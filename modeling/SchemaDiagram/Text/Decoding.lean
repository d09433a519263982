import SchemaDiagram.Text.Line

/-!
# Text from bytes

Text comes in as bytes in UTF-8. Line ends are made uniform as part of reading. A file may start
with a byte order mark, which says how it is encoded and is not part of its text; a stream has none.

Bytes of a file that are not UTF-8 are an error: the file is no text. What becomes of such bytes on
a stream is not for the program to say, but depends on where it runs (`ErrorHandler`). They may be
an error there, too. Or each of them becomes a character that stands for it, and the stream is a
text after all. A character like that can be read and worked on, but it has no encoding, so what is
made of the text cannot be written to a file if there is one in it (`Decoded.encode?`).

A file that breaks off inside its byte order mark is no valid UTF-8, but it is taken to be empty
all the same.
-/

namespace SchemaDiagram
namespace Text

/-- The byte order mark. -/
def byteOrderMark : Char := '\uFEFF'

/-- The text without the byte order mark it starts with, if it does. Only one is dropped. -/
def dropMark : List Char → List Char
  | [] => []
  | c :: text => if c = byteOrderMark then text else c :: text

/-- The beginnings of an encoded byte order mark. -/
def brokenMarks : List (List UInt8) :=
  [[0xEF], [0xEF, 0xBB]]

/-! ## What is read -/

/-- What becomes of bytes on a stream that are not UTF-8. -/
inductive ErrorHandler where
  /-- They are an error. -/
  | strict
  /-- Each of them becomes a character that stands for it. All that counts is that the character
  has no meaning in a schema and that the text has no other use for it. -/
  | escape (standIn : UInt8 → Char)

/-- A text that was read, and the characters in it that stand for bytes. -/
structure Decoded where
  text : String
  standIns : List Char := []
  deriving DecidableEq, Repr

/-- The bytes of what was made of the text. There are none if a character in it stands for a
byte. -/
def Decoded.encode? (t : Decoded) (made : String) : Option ByteArray :=
  if made.toList.any t.standIns.contains then none else some made.toUTF8

/-! ## Streams and files -/

/-- The characters in the given bytes, and between them the bytes that belong to no character. Every
one takes a byte at least, and so the bound does not matter if it is not below their number. -/
def unitsWithin : Nat → ByteArray → List (Char ⊕ UInt8)
  | 0, _ => []
  | n + 1, bytes => match bytes.utf8DecodeChar? 0, bytes.data.toList with
    | some c, _ => .inl c :: unitsWithin n (bytes.extract c.utf8Size bytes.size)
    | none, [] => []
    | none, b :: _ => .inr b :: unitsWithin n (bytes.extract 1 bytes.size)

/-- The characters in the given bytes, and the bytes that belong to no character. -/
def units (bytes : ByteArray) : List (Char ⊕ UInt8) :=
  unitsWithin bytes.size bytes

/-- The text of the characters, and of what stands for the bytes. -/
def Decoded.ofUnits (standIn : UInt8 → Char) (us : List (Char ⊕ UInt8)) : Decoded where
  text := String.ofList (unifyLineEnds (us.map (Sum.elim id standIn)))
  standIns := us.filterMap fun u => u.getRight?.map standIn

/-- The text of a stream of bytes. -/
def ofStream? (errors : ErrorHandler) (bytes : ByteArray) : Option Decoded :=
  match errors with
  | .strict => (String.fromUTF8? bytes).map fun s =>
      { text := String.ofList (unifyLineEnds s.toList) }
  | .escape standIn => some (.ofUnits standIn (units bytes))

/-- The text of a file. -/
def ofFile? (bytes : ByteArray) : Option Decoded :=
  match String.fromUTF8? bytes with
  | some s => some { text := String.ofList (unifyLineEnds (dropMark s.toList)) }
  | none => if brokenMarks.contains bytes.data.toList then some { text := "" } else none

@[simp] theorem dropMark_nil : dropMark [] = [] := rfl

theorem dropMark_cons (c : Char) (text : List Char) :
    dropMark (c :: text) = if c = byteOrderMark then text else c :: text := rfl

end Text
end SchemaDiagram
