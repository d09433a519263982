import SchemaDiagram.Schema.Literal
import SchemaDiagram.Text.Blank

/-!
# Comments

A comment starts at the first two slashes that stand outside every string literal and runs to the
end of the line. What stands before it, without the blanks at either end, is the code of the line.
A literal that is never closed hides every slash after it.

A comment whose own text starts with a slash, which is to say one written with three slashes, is a
line of documentation.
-/

namespace SchemaDiagram

/-- A line of a schema, taken apart: the code without surrounding blanks, and the text after the
comment's two slashes if there is a comment. -/
structure SourceLine where
  code : List Char
  comment : Option (List Char)
  deriving DecidableEq, Repr

namespace SourceLine

/-- Cuts the text at the comment. The text before it keeps its blanks. -/
def cut : LiteralState → List Char → List Char × Option (List Char)
  | .outside, '/' :: '/' :: rest => ([], some rest)
  | _, [] => ([], none)
  | s, c :: rest =>
    let tail := cut (s.next c) rest
    (c :: tail.1, tail.2)

/-- Takes a line apart. -/
def ofText (line : List Char) : SourceLine :=
  let parts := cut .outside line
  { code := Text.strip parts.1, comment := parts.2 }

end SourceLine
end SchemaDiagram
