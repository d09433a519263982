import SchemaDiagram.Text.CharRange

/-!
# Lines

A schema is read line by line. A line ends at any of the characters below, or at a carriage return
and line feed together, which count as one end. The terminator belongs to neither line, and one at
the very end of the text starts no further line; so the empty text has no line at all.

Text that comes from a file or from standard input has its line ends made uniform before anything
else sees it. `lines` cannot tell the difference, which is why line numbers in diagnostics are those
of the file.
-/

namespace SchemaDiagram
namespace Text

/-- The inclusive ranges of code points that end a line. -/
def terminatorRanges : List (Nat × Nat) :=
  [(0x0A, 0x0D), (0x1C, 0x1E), (0x85, 0x85), (0x2028, 0x2029)]

/-- Whether the character ends a line. -/
def isTerminator (c : Char) : Bool :=
  inRanges terminatorRanges c

/-- Puts a character in front of the first line. -/
def consToFirst (c : Char) : List (List Char) → List (List Char)
  | [] => [[c]]
  | l :: ls => (c :: l) :: ls

/-- The lines of a text, in order and without their terminators. -/
def lines : List Char → List (List Char)
  | [] => []
  | '\r' :: '\n' :: r => [] :: lines r
  | c :: r => if isTerminator c then [] :: lines r else consToFirst c (lines r)

/-- The text with every carriage return, and every carriage return and line feed together, replaced
by one line feed. -/
def unifyLineEnds : List Char → List Char
  | [] => []
  | '\r' :: '\n' :: r => '\n' :: unifyLineEnds r
  | '\r' :: r => '\n' :: unifyLineEnds r
  | c :: r => c :: unifyLineEnds r

/-- The pieces of a text between its line feeds, which are one more than there are line feeds. -/
def splitAtFeeds : List Char → List (List Char)
  | [] => [[]]
  | c :: r => if c = '\n' then [] :: splitAtFeeds r else consToFirst c (splitAtFeeds r)

/-- The lines, each followed by one line feed. -/
def endLines : List String → String
  | [] => ""
  | l :: ls => l ++ "\n" ++ endLines ls

/-- The lines, with one line feed between each and the next. -/
def joinLines : List String → String
  | [] => ""
  | [l] => l
  | l :: m :: ls => l ++ "\n" ++ joinLines (m :: ls)

@[simp] theorem lines_nil : lines [] = [] := rfl

@[simp] theorem lines_crlf (r : List Char) : lines ('\r' :: '\n' :: r) = [] :: lines r := by
  simp [lines]

@[simp] theorem endLines_nil : endLines [] = "" := rfl

@[simp] theorem endLines_cons (l : String) (ls : List String) :
    endLines (l :: ls) = l ++ "\n" ++ endLines ls := rfl

end Text
end SchemaDiagram
