import SchemaDiagram.Text.Front
import SchemaDiagram.Text.Word

/-!
# The forms of a line

Three forms of line give a schema its shape: the header that opens a block, the field of a model,
view or composite type, and the value of an enum. Each reader here takes the code of one line
apart, or says that the line does not have the form. None of them looks into the attributes at the
end of a line; they are handed on as text, which is empty or starts with a blank or an `@`.

Each form can be read from left to right without looking back, because every part ends at a
character the part itself cannot contain. In particular `Unsupported(` always starts an
unsupported type, even though `Unsupported` alone is a fine name for a type.
-/

namespace SchemaDiagram

/-- Whether the text may follow the last name or modifier of a line. -/
def startsAttributes : List Char → Bool
  | [] => true
  | c :: _ => Text.isBlank c || c == '@'

/-! ## Headers -/

/-- The header of a block. A header that ends in `{}` opens and closes its block. -/
structure HeaderLine where
  keyword : String
  name : String
  isClosed : Bool
  deriving DecidableEq, Repr

namespace HeaderLine

/-- Whether nothing is left, or only the closing bracket of an empty block. -/
def readEnd : List Char → Option Bool
  | [] => some false
  | ['}'] => some true
  | _ => none

/-- Reads a header: letters, a name and an opening curly bracket. -/
def read (code : List Char) : Option HeaderLine := do
  let keyword := code.takeWhile Char.isAlpha
  if keyword.isEmpty then none
  let rest ← Text.dropBlanks? (code.dropWhile Char.isAlpha)
  let (name, rest) ← Text.readName rest
  let rest ← Text.dropFront? ['{'] (Text.stripStart rest)
  let isClosed ← readEnd (Text.stripStart rest)
  some { keyword := String.ofList keyword, name := String.ofList name, isClosed }

end HeaderLine

/-! ## Fields -/

/-- The type of a field as it is written. -/
inductive TypeExpr where
  /-- The name of a built-in or declared type. -/
  | named (name : String)
  /-- The text between the quotes of an unsupported type. -/
  | unsupported (raw : String)
  deriving DecidableEq, Repr

namespace TypeExpr

/-- The name that the diagram shows. -/
def name : TypeExpr → String
  | .named name => name
  | .unsupported raw => raw

/-- The text up to the next double quote that is not escaped, and the text after that quote. -/
def readRaw : List Char → Option (List Char × List Char)
  | [] => none
  | '"' :: rest => some ([], rest)
  | ['\\'] => none
  | '\\' :: c :: rest => (readRaw rest).map fun r => ('\\' :: c :: r.1, r.2)
  | c :: rest => (readRaw rest).map fun r => (c :: r.1, r.2)

/-- Reads what follows `Unsupported(`: a string literal and a closing bracket. -/
def readUnsupported (text : List Char) : Option (TypeExpr × List Char) := do
  let rest ← Text.dropFront? ['"'] (Text.stripStart text)
  let (raw, rest) ← readRaw rest
  let rest ← Text.dropFront? [')'] (Text.stripStart rest)
  some (.unsupported (String.ofList raw), rest)

/-- The text that starts an unsupported type. -/
def unsupportedOpening : List Char :=
  ['U', 'n', 's', 'u', 'p', 'p', 'o', 'r', 't', 'e', 'd', '(']

/-- Reads a type. -/
def read (text : List Char) : Option (TypeExpr × List Char) :=
  match Text.dropFront? unsupportedOpening text with
  | some rest => readUnsupported rest
  | none => (Text.readName text).map fun r => (.named (String.ofList r.1), r.2)

end TypeExpr

/-- A field as it is written, with its attributes still to be read. -/
structure FieldLine where
  name : String
  type : TypeExpr
  isList : Bool
  isOptional : Bool
  attributes : List Char
  deriving DecidableEq, Repr

/-- Reads an optional modifier: whether it is there, and the text after it. -/
def readModifier (modifier text : List Char) : Bool × List Char :=
  match Text.dropFront? modifier text with
  | some rest => (true, rest)
  | none => (false, text)

/-- Reads a field: a name, blanks, a type, an optional `[]`, an optional `?` and the attributes. -/
def FieldLine.read (code : List Char) : Option FieldLine := do
  let (name, rest) ← Text.readName code
  let rest ← Text.dropBlanks? rest
  let (type, rest) ← TypeExpr.read rest
  let (isList, rest) := readModifier ['[', ']'] rest
  let (isOptional, rest) := readModifier ['?'] rest
  if startsAttributes rest then
    some { name := String.ofList name, type, isList, isOptional, attributes := rest }
  else
    none

/-! ## Values -/

/-- A value of an enum as it is written, with its attributes still to be read. -/
structure ValueLine where
  name : String
  attributes : List Char
  deriving DecidableEq, Repr

/-- Reads a value: a name and the attributes. -/
def ValueLine.read (code : List Char) : Option ValueLine :=
  match Text.readName code with
  | some (name, rest) =>
    if startsAttributes rest then some { name := String.ofList name, attributes := rest } else none
  | none => none

end SchemaDiagram
