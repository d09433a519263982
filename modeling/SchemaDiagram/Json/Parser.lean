import SchemaDiagram.Json.Basic
import SchemaDiagram.Text.Front

/-!
# Reading JSON

A reader of a JSON text consumes it from the front and gives the value it has read and the rest of
the text. Values nest, so the three readers of values call each other; they carry a bound on the
depth of the calls, and since no two calls in a row leave the text as it is, twice the length of
the text is bound enough.

The text of a string may hold the two halves of a surrogate pair as two escapes. They are read as
numbers first, like every other character, and put together afterwards; a half that stands alone
is no text.
-/

namespace SchemaDiagram
namespace Json

/-- Whether the character may stand between two parts of a JSON text. -/
def isSpace (c : Char) : Bool :=
  c == ' ' || c == '\n' || c == '\r' || c == '\t'

/-- The text without the space it starts with. -/
def skipSpace (text : List Char) : List Char :=
  text.dropWhile isSpace

/-! ## Strings -/

/-- The value of a hexadecimal digit, in either case. -/
def hexValue? (c : Char) : Option Nat :=
  if '0' ≤ c ∧ c ≤ '9' then some (c.toNat - 48)
  else if 'a' ≤ c ∧ c ≤ 'f' then some (c.toNat - 87)
  else if 'A' ≤ c ∧ c ≤ 'F' then some (c.toNat - 55)
  else none

/-- The value of four hexadecimal digits. -/
def unitValue? (a b c d : Char) : Option Nat := do
  some (4096 * (← hexValue? a) + 256 * (← hexValue? b) + 16 * (← hexValue? c) + (← hexValue? d))

/-- The character that a backslash and a letter stand for. -/
def escapeValue? : Char → Option Nat
  | '"' => some 0x22
  | '\\' => some 0x5C
  | '/' => some 0x2F
  | 'b' => some 0x08
  | 'f' => some 0x0C
  | 'n' => some 0x0A
  | 'r' => some 0x0D
  | 't' => some 0x09
  | _ => none

/-- Reads the rest of a string after its opening quote, as numbers: code points, and halves of
surrogate pairs. -/
def readUnits : List Char → Option (List Nat × List Char)
  | [] => none
  | '"' :: rest => some ([], rest)
  | '\\' :: 'u' :: a :: b :: c :: d :: rest => do
    let unit ← unitValue? a b c d
    (readUnits rest).map fun r => (unit :: r.1, r.2)
  | '\\' :: c :: rest => do
    let unit ← escapeValue? c
    (readUnits rest).map fun r => (unit :: r.1, r.2)
  | c :: rest =>
    if c.toNat < 0x20 ∨ c = '\\' then none
    else (readUnits rest).map fun r => (c.toNat :: r.1, r.2)

/-- Puts surrogate pairs together. -/
def ofUnits? : List Nat → Option (List Char)
  | [] => some []
  | [unit] => if 0xD800 ≤ unit ∧ unit < 0xE000 then none else some [Char.ofNat unit]
  | unit :: low :: rest =>
    if 0xD800 ≤ unit ∧ unit < 0xDC00 ∧ 0xDC00 ≤ low ∧ low < 0xE000 then
      (ofUnits? rest).map (Char.ofNat (0x10000 + (unit - 0xD800) * 0x400 + (low - 0xDC00)) :: ·)
    else if 0xD800 ≤ unit ∧ unit < 0xE000 then none
    else (ofUnits? (low :: rest)).map (Char.ofNat unit :: ·)

/-- Reads the rest of a string after its opening quote. -/
def readString (text : List Char) : Option (List Char × List Char) := do
  let (units, rest) ← readUnits text
  let s ← ofUnits? units
  some (s, rest)

/-! ## Numbers -/

/-- The value of a run of decimal digits. -/
def digitsValue (digits : List Char) : Nat :=
  digits.foldl (fun n c => 10 * n + (c.toNat - 48)) 0

/-- Reads digits, of which there must be one. -/
def readDigits (text : List Char) : Option (List Char × List Char) :=
  let digits := text.takeWhile Char.isDigit
  if digits.isEmpty then none else some (digits, text.dropWhile Char.isDigit)

/-- Reads the digits of a fraction, if there is a point. -/
def readFraction : List Char → Option (Option (List Char) × List Char)
  | '.' :: text => (readDigits text).map fun r => (some r.1, r.2)
  | text => some (none, text)

/-- Reads an exponent, if there is one. -/
def readExponent : List Char → Option (Option Int × List Char)
  | c :: text =>
    if c = 'e' ∨ c = 'E' then
      match text with
      | '-' :: text => (readDigits text).map fun r => (some (-(digitsValue r.1 : Int)), r.2)
      | '+' :: text => (readDigits text).map fun r => (some (digitsValue r.1 : Int), r.2)
      | text => (readDigits text).map fun r => (some (digitsValue r.1 : Int), r.2)
    else some (none, c :: text)
  | [] => some (none, [])

/-- Reads a number that has no sign. A number is whole if it has neither fraction nor exponent. -/
def readUnsigned (negative : Bool) (text : List Char) : Option (Json × List Char) := do
  let (whole, rest) ← readDigits text
  if whole.length > 1 ∧ whole.head? = some '0' then none
  let (fraction, rest) ← readFraction rest
  let (exponent, rest) ← readExponent rest
  match fraction, exponent with
  | none, none =>
    let n : Int := digitsValue whole
    some (.integer (if negative then -n else n), rest)
  | _, _ =>
    let behind := fraction.getD []
    some (.decimal { negative, digits := digitsValue (whole ++ behind),
                     exponent := exponent.getD 0 - behind.length }, rest)

/-- Reads a number. -/
def readNumber : List Char → Option (Json × List Char)
  | '-' :: text => readUnsigned true text
  | text => readUnsigned false text

/-! ## Values -/

/-- Reads one of the three constants, or a number. -/
def readScalar (text : List Char) : Option (Json × List Char) :=
  match text with
  | 'n' :: rest => (Text.dropFront? ['u', 'l', 'l'] rest).map fun r => (.null, r)
  | 't' :: rest => (Text.dropFront? ['r', 'u', 'e'] rest).map fun r => (.bool true, r)
  | 'f' :: rest => (Text.dropFront? ['a', 'l', 's', 'e'] rest).map fun r => (.bool false, r)
  | _ => readNumber text

mutual

/-- Reads a value. -/
def readValue : Nat → List Char → Option (Json × List Char)
  | 0, _ => none
  | bound + 1, text => match skipSpace text with
    | '"' :: rest => (readString rest).map fun r => (.string (String.ofList r.1), r.2)
    | '[' :: rest => match skipSpace rest with
      | ']' :: rest => some (.array [], rest)
      | rest => (readItems bound rest).map fun r => (.array r.1, r.2)
    | '{' :: rest => match skipSpace rest with
      | '}' :: rest => some (.object [], rest)
      | rest => (readMembers bound rest).map fun r => (.object r.1, r.2)
    | rest => readScalar rest

/-- Reads the items of an array and its closing bracket. -/
def readItems : Nat → List Char → Option (List Json × List Char)
  | 0, _ => none
  | bound + 1, text => match readValue bound text with
    | none => none
    | some (v, rest) => match skipSpace rest with
      | ',' :: rest => (readItems bound rest).map fun r => (v :: r.1, r.2)
      | ']' :: rest => some ([v], rest)
      | _ => none

/-- Reads the members of an object and its closing bracket. -/
def readMembers : Nat → List Char → Option (List (String × Json) × List Char)
  | 0, _ => none
  | bound + 1, text => match skipSpace text with
    | '"' :: rest => match readString rest with
      | none => none
      | some (k, rest) => match skipSpace rest with
        | ':' :: rest => match readValue bound rest with
          | none => none
          | some (v, rest) => match skipSpace rest with
            | ',' :: rest =>
              (readMembers bound rest).map fun r => ((String.ofList k, v) :: r.1, r.2)
            | '}' :: rest => some ([(String.ofList k, v)], rest)
            | _ => none
        | _ => none
    | _ => none

end

/-- Reads a whole JSON text. -/
def parseChars? (text : List Char) : Option Json :=
  match readValue (2 * text.length + 2) text with
  | some (v, rest) => if (skipSpace rest).isEmpty then some v else none
  | none => none

/-- Reads a whole JSON text. -/
def parse? (text : String) : Option Json :=
  parseChars? text.toList

end Json
end SchemaDiagram
