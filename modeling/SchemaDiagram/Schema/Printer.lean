import SchemaDiagram.Schema.Keyword
import SchemaDiagram.Schema.Basic
import SchemaDiagram.Text.Line

/-!
# Writing a schema

A schema is written as one block for each model, then for each enum, then for each composite type.
Every declaration has a line of its own, with its documentation above it. What is written here is
what `Schema.parse` reads: a schema whose names and arguments have the right form comes back as it
was.
-/

namespace SchemaDiagram

/-- An argument as it is written. -/
def Argument.print (a : Argument) : String :=
  match a.name with
  | some name => name ++ ": " ++ a.value
  | none => a.value

/-- An attribute as it is written. Without arguments it has no parentheses. -/
def Attribute.print (a : Attribute) : String :=
  if a.arguments.isEmpty then "@" ++ a.name
  else "@" ++ a.name ++ "(" ++ ", ".intercalate (a.arguments.map Argument.print) ++ ")"

/-- Several attributes in a row. -/
def Attribute.printRun (as : List Attribute) : String :=
  " ".intercalate (as.map Attribute.print)

/-- The type of a field as it is written. -/
def FieldType.print (t : FieldType) : String :=
  (if t.kind = .unsupported then "Unsupported(\"" ++ t.name ++ "\")" else t.name)
    ++ (if t.isList then "[]" else "") ++ (if t.isOptional then "?" else "")

/-- The lines of a documentation text. -/
def documentationLines : Option String → List String
  | none => []
  | some text => (Text.splitAtFeeds text.toList).map fun l => "/// " ++ String.ofList l

/-- The lines of a field. -/
def Field.printLines (f : Field) : List String :=
  documentationLines f.documentation ++
    [f.name ++ " " ++ f.type.print ++ String.join (f.attributes.map fun a => " " ++ a.print)]

/-- The lines of a block: its header, its body and the line that closes it. -/
def blockLines (keyword : Keyword) (name : String) (body : List String) : List String :=
  (keyword.word ++ " " ++ name ++ " \x7b") :: body ++ ["\x7d"]

/-- The lines of a model. -/
def Model.printLines (m : Model) : List String :=
  documentationLines m.documentation ++
    blockLines .model m.name
      (m.fields.flatMap Field.printLines ++ m.attributes.map fun a => "@" ++ a.print)

/-- The lines of an enum. -/
def Enum.printLines (e : Enum) : List String :=
  blockLines .enum e.name e.values

/-- The lines of a composite type. -/
def CompositeType.printLines (t : CompositeType) : List String :=
  blockLines .type t.name (t.fields.flatMap Field.printLines)

/-- The lines of a schema. -/
def Schema.printLines (s : Schema) : List String :=
  s.models.flatMap Model.printLines ++ s.enums.flatMap Enum.printLines ++
    s.compositeTypes.flatMap CompositeType.printLines

/-- A schema as it is written. -/
def Schema.print (s : Schema) : String :=
  Text.endLines s.printLines

end SchemaDiagram
