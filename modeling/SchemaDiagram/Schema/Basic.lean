/-!
# Schemas

A schema declares models, enums and composite types. This module holds what remains of a schema
once it has been read: every field knows what its type refers to, and a documentation text belongs
to the declaration it stands above. Views, data sources and generators are read but leave no trace
here, because they have no place in a diagram.

The lists keep the order of declaration, and arguments are kept as the text they were written as.
-/

namespace SchemaDiagram

/-- One argument of an attribute, with its name if it was written `name: value`. -/
structure Argument where
  name : Option String := none
  value : String
  deriving DecidableEq, Repr, Inhabited

/-- An attribute of a field or of a block. The name is without the `@` in front; a namespaced name
such as `db.VarChar` keeps its dot. -/
structure Attribute where
  name : String
  arguments : List Argument := []
  deriving DecidableEq, Repr, Inhabited

/-- What the type of a field refers to. -/
inductive FieldKind where
  | scalar
  | model
  | enum
  | composite
  | unsupported
  deriving DecidableEq, Repr, Inhabited

/-- The type of a field. For an unsupported type the name is the text between the quotes, exactly as
it was written. -/
structure FieldType where
  name : String
  kind : FieldKind
  isOptional : Bool := false
  isList : Bool := false
  deriving DecidableEq, Repr, Inhabited

/-- A field of a model or of a composite type. -/
structure Field where
  name : String
  type : FieldType
  attributes : List Attribute := []
  documentation : Option String := none
  deriving DecidableEq, Repr, Inhabited

/-- A model: a table of the database. -/
structure Model where
  name : String
  fields : List Field := []
  attributes : List Attribute := []
  documentation : Option String := none
  deriving DecidableEq, Repr, Inhabited

/-- An enum with the names of its values. -/
structure Enum where
  name : String
  values : List String := []
  deriving DecidableEq, Repr, Inhabited

/-- A composite type: a record that is stored inside the rows of a model. -/
structure CompositeType where
  name : String
  fields : List Field := []
  deriving DecidableEq, Repr, Inhabited

/-- A schema: its models, enums and composite types, each in order of declaration. -/
structure Schema where
  models : List Model := []
  enums : List Enum := []
  compositeTypes : List CompositeType := []
  deriving DecidableEq, Repr, Inhabited

/-- The first argument that was written with the given name. -/
def Attribute.argument? (a : Attribute) (name : String) : Option Argument :=
  a.arguments.find? fun arg => arg.name == some name

/-- Whether the field has an unsupported type. -/
def Field.isUnsupported (f : Field) : Bool :=
  f.type.kind == .unsupported

/-- The first attribute of the field with the given name. -/
def Field.attribute? (f : Field) (name : String) : Option Attribute :=
  f.attributes.find? fun a => a.name == name

/-- The first field of the model with the given name. -/
def Model.field? (m : Model) (name : String) : Option Field :=
  m.fields.find? fun f => f.name == name

/-- The first model of the schema with the given name. -/
def Schema.model? (s : Schema) (name : String) : Option Model :=
  s.models.find? fun m => m.name == name

/-- The types that are built in. No declaration may take one of these names. -/
def scalarNames : List String :=
  ["String", "Boolean", "Int", "BigInt", "Float", "Decimal", "DateTime", "Json", "Bytes"]

/-- Whether the name is that of a built-in type. -/
def isScalarName (name : String) : Bool :=
  scalarNames.contains name

end SchemaDiagram
