import SchemaDiagram.Schema.Attribute
import SchemaDiagram.Schema.Comment
import SchemaDiagram.Schema.Declaration
import SchemaDiagram.Text.Line

/-!
# Blocks

The first pass over a schema groups its lines into blocks. It reads one line at a time and never
looks ahead: `BlockReader` is all it remembers, namely the blocks that are complete, the block
that is open, and the documentation lines that wait for a declaration. Because a pass is a plain
fold of `BlockReader.step` over the lines, what it does on a text is decided line by line, and an
error on one line cannot depend on the lines below it.

The documentation of a declaration is what stands directly above it. A line with code takes the
waiting lines or drops them, a blank line drops them, and a comment that is not documentation
leaves them alone.

Types are not looked up here. A name may be used before it is declared, so that has to wait for
the second pass, which is in `Schema.Resolve`.
-/

namespace SchemaDiagram

/-- A field as it was declared, before its type is looked up. -/
structure FieldDecl where
  line : Nat
  name : String
  type : TypeExpr
  isList : Bool := false
  isOptional : Bool := false
  attributes : List Attribute := []
  documentation : Option String := none
  deriving DecidableEq, Repr

/-- A block as it was declared. Which of the lists are filled depends on the keyword: values belong
to enums, fields to models, views and composite types, and blocks of settings have neither. -/
structure Block where
  keyword : Keyword
  name : String
  line : Nat
  documentation : Option String := none
  fields : List FieldDecl := []
  values : List String := []
  attributes : List Attribute := []
  deriving DecidableEq, Repr

namespace Block

/-- The block after a line of block attributes, the code of which starts with `@@`. -/
def addAttributes (b : Block) (run : List Char) : Except Cause Block :=
  (Attribute.parseRun run).map fun as => { b with attributes := b.attributes ++ as }

/-- The block after a line that declares a value. The attributes of a value are checked and then
forgotten. -/
def addValue (b : Block) (code : List Char) : Except Cause Block :=
  match ValueLine.read code with
  | none => .error (.invalidValue (String.ofList code))
  | some v =>
    (Attribute.parseRun v.attributes).map fun _ => { b with values := b.values ++ [v.name] }

/-- The block after a line that declares a field. -/
def addField (b : Block) (line : Nat) (documentation : Option String) (code : List Char) :
    Except Cause Block :=
  match FieldLine.read code with
  | none => .error (.invalidField (String.ofList code))
  | some f =>
    if b.fields.any (·.name == f.name) then .error (.duplicateField f.name b.name)
    else (Attribute.parseRun f.attributes).map fun as =>
      { b with fields := b.fields ++
          [{ line, name := f.name, type := f.type, isList := f.isList, isOptional := f.isOptional,
             attributes := as, documentation }] }

/-- The block after one more line of code, which does not close it. -/
def addLine (b : Block) (line : Nat) (documentation : Option String) (code : List Char) :
    Except Cause Block :=
  if b.keyword.isSettings then .ok b
  else match code with
    | '@' :: '@' :: run => b.addAttributes ('@' :: run)
    | _ => if b.keyword = .enum then b.addValue code else b.addField line documentation code

/-- Reads the header of a block: the block, and whether it is closed already. -/
def ofHeader (line : Nat) (documentation : Option String) (code : List Char) :
    Except Cause (Block × Bool) :=
  match HeaderLine.read code with
  | none => .error (.notABlock (String.ofList code))
  | some h => match Keyword.ofWord? h.keyword with
    | none => .error (.unknownKeyword h.keyword)
    | some keyword => .ok ({ keyword, name := h.name, line, documentation }, h.isClosed)

end Block

/-- What the first pass remembers between two lines. -/
structure BlockReader where
  /-- The complete blocks, in order. -/
  blocks : List Block := []
  /-- The block that is open. -/
  current : Option Block := none
  /-- The documentation lines that wait for a declaration. -/
  pending : List (List Char) := []
  deriving DecidableEq, Repr

namespace BlockReader

/-- The text of the waiting documentation lines. Documentation that is empty counts as none. -/
def documentation (r : BlockReader) : Option String :=
  let text := Text.joinLines (r.pending.map String.ofList)
  if text.isEmpty then none else some text

/-- The reader after a line with code. -/
def stepCode (r : BlockReader) (line : Nat) (code : List Char) : Except Cause BlockReader :=
  match r.current with
  | none => (Block.ofHeader line r.documentation code).map fun h =>
      if h.2 then { blocks := r.blocks ++ [h.1] } else { blocks := r.blocks, current := some h.1 }
  | some b =>
    if code = ['}'] then .ok { blocks := r.blocks ++ [b] }
    else (b.addLine line r.documentation code).map fun b' =>
      { blocks := r.blocks, current := some b' }

/-- The reader after a line without code, of which only the comment is left. -/
def stepLayout (r : BlockReader) : Option (List Char) → BlockReader
  | none => { r with pending := [] }
  | some ('/' :: doc) => { r with pending := r.pending ++ [Text.strip doc] }
  | some _ => r

/-- The reader after one more line, whose number is given. -/
def step (r : BlockReader) (line : Nat) (text : List Char) : Except Cause BlockReader :=
  let source := SourceLine.ofText text
  if source.code.isEmpty then .ok (r.stepLayout source.comment) else r.stepCode line source.code

/-- The reader after the given lines, the first of which has the given number. An error carries the
number of the line it was met on. -/
def run (r : BlockReader) (line : Nat) : List (List Char) → Except SchemaError BlockReader
  | [] => .ok r
  | text :: texts => match r.step line text with
    | .error cause => .error (.atLine line cause)
    | .ok r' => r'.run (line + 1) texts

/-- The blocks that were read, if none is still open. -/
def finish (r : BlockReader) : Except SchemaError (List Block) :=
  match r.current with
  | none => .ok r.blocks
  | some b => .error (.atLine b.line (.neverClosed b.keyword b.name))

@[simp] theorem run_nil (r : BlockReader) (line : Nat) : r.run line [] = .ok r := rfl

/-- Reading two stretches of lines one after the other is reading them as one. -/
theorem run_append (r : BlockReader) (line : Nat) (a b : List (List Char)) :
    r.run line (a ++ b) =
      match r.run line a with
      | .error e => .error e
      | .ok r' => r'.run (line + a.length) b := by
  induction a generalizing r line with
  | nil => simp
  | cons text texts ih =>
    simp only [List.cons_append, run]
    cases r.step line text with
    | error cause => rfl
    | ok r' =>
      simp only [ih, List.length_cons]
      cases r'.run (line + 1) texts with
      | error e => rfl
      | ok r'' => simp only [Nat.add_assoc, Nat.add_comm 1]

end BlockReader

/-- The blocks of a text, given by its lines. -/
def Block.ofLines (texts : List (List Char)) : Except SchemaError (List Block) :=
  match BlockReader.run {} 1 texts with
  | .error e => .error e
  | .ok r => r.finish

end SchemaDiagram
