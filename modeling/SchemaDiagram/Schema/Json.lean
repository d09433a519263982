import SchemaDiagram.Json.Check
import SchemaDiagram.Schema.Basic

/-!
# Schemas as JSON

Every part of a schema can be written as a JSON object with all its members in a fixed order, and
read back from one. What is read may leave out the members that have a default, and may have
others, which are ignored.
-/

namespace SchemaDiagram

open Json.Check (string nullable bool listed list object required optional)

/-! ## Writing -/

namespace FieldKind

/-- The word for the kind. -/
def word : FieldKind → String
  | .scalar => "scalar"
  | .model => "model"
  | .enum => "enum"
  | .composite => "composite"
  | .unsupported => "unsupported"

/-- Every kind. -/
def all : List FieldKind :=
  [.scalar, .model, .enum, .composite, .unsupported]

/-- The kind that is written as the given word. -/
def ofWord? (word : String) : Option FieldKind :=
  all.find? fun k => k.word == word

@[simp] theorem ofWord?_word (k : FieldKind) : ofWord? k.word = some k := by
  cases k <;> decide

end FieldKind

/-- An argument as JSON. -/
def Argument.toJson (a : Argument) : Json :=
  .object [("name", .ofOption a.name), ("value", .string a.value)]

/-- An attribute as JSON. -/
def Attribute.toJson (a : Attribute) : Json :=
  .object [("name", .string a.name), ("arguments", .array (a.arguments.map Argument.toJson))]

/-- The type of a field as JSON. -/
def FieldType.toJson (t : FieldType) : Json :=
  .object [("name", .string t.name), ("kind", .string t.kind.word),
    ("optional", .bool t.isOptional), ("is_list", .bool t.isList)]

/-- A field as JSON. -/
def Field.toJson (f : Field) : Json :=
  .object [("name", .string f.name), ("field_type", f.type.toJson),
    ("attributes", .array (f.attributes.map Attribute.toJson)),
    ("documentation", .ofOption f.documentation)]

/-- A model as JSON. -/
def Model.toJson (m : Model) : Json :=
  .object [("name", .string m.name), ("fields", .array (m.fields.map Field.toJson)),
    ("block_attributes", .array (m.attributes.map Attribute.toJson)),
    ("documentation", .ofOption m.documentation)]

/-- An enum as JSON. -/
def Enum.toJson (e : Enum) : Json :=
  .object [("name", .string e.name), ("values", .array (e.values.map Json.string))]

/-- A composite type as JSON. -/
def CompositeType.toJson (t : CompositeType) : Json :=
  .object [("name", .string t.name), ("fields", .array (t.fields.map Field.toJson))]

/-- A schema as JSON. -/
def Schema.toJson (s : Schema) : Json :=
  .object [("models", .array (s.models.map Model.toJson)),
    ("enums", .array (s.enums.map Enum.toJson)),
    ("composite_types", .array (s.compositeTypes.map CompositeType.toJson))]

/-! ## Reading -/

/-- Checks that a value is an argument. -/
def Argument.ofJson : Json → Json.Checked Argument :=
  object fun ms => Argument.mk
    <$> optional ms "name" none (nullable string)
    <*> required ms "value" string

/-- Checks that a value is an attribute. -/
def Attribute.ofJson : Json → Json.Checked Attribute :=
  object fun ms => Attribute.mk
    <$> required ms "name" string
    <*> optional ms "arguments" [] (list Argument.ofJson)

/-- Checks that a value is the type of a field. -/
def FieldType.ofJson : Json → Json.Checked FieldType :=
  object fun ms => FieldType.mk
    <$> required ms "name" string
    <*> required ms "kind" (listed FieldKind.ofWord?)
    <*> optional ms "optional" false bool
    <*> optional ms "is_list" false bool

/-- Checks that a value is a field. -/
def Field.ofJson : Json → Json.Checked Field :=
  object fun ms => Field.mk
    <$> required ms "name" string
    <*> required ms "field_type" FieldType.ofJson
    <*> optional ms "attributes" [] (list Attribute.ofJson)
    <*> optional ms "documentation" none (nullable string)

/-- Checks that a value is a model. -/
def Model.ofJson : Json → Json.Checked Model :=
  object fun ms => Model.mk
    <$> required ms "name" string
    <*> optional ms "fields" [] (list Field.ofJson)
    <*> optional ms "block_attributes" [] (list Attribute.ofJson)
    <*> optional ms "documentation" none (nullable string)

/-- Checks that a value is an enum. -/
def Enum.ofJson : Json → Json.Checked Enum :=
  object fun ms => Enum.mk
    <$> required ms "name" string
    <*> optional ms "values" [] (list string)

/-- Checks that a value is a composite type. -/
def CompositeType.ofJson : Json → Json.Checked CompositeType :=
  object fun ms => CompositeType.mk
    <$> required ms "name" string
    <*> optional ms "fields" [] (list Field.ofJson)

/-- Checks that a value is a schema. -/
def Schema.ofJson : Json → Json.Checked Schema :=
  object fun ms => Schema.mk
    <$> optional ms "models" [] (list Model.ofJson)
    <*> optional ms "enums" [] (list Enum.ofJson)
    <*> optional ms "composite_types" [] (list CompositeType.ofJson)

end SchemaDiagram
