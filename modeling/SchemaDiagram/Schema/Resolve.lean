import SchemaDiagram.Schema.Block

/-!
# Looking types up

The second pass turns blocks into a schema. First it enters every declared name, together with
what the name stands for, into one table; a name may be declared once, and never if it is that of
a built-in type. Then it looks up the type of every field in that table, in the order of
declaration. Because the whole table is there before the first type is looked up, the order of the
blocks does not matter.

A view stands for a model when it is referred to, and the types of its own fields are looked up
for the sake of errors, but it is no model of the schema. Blocks of settings declare nothing, and
neither they nor enums have fields to look up.
-/

namespace SchemaDiagram

/-- The declared names with what they stand for, in order of declaration. -/
abbrev Names := List (String × FieldKind)

/-- What a block of this keyword declares its name to stand for. -/
def Keyword.declares : Keyword → Option FieldKind
  | .model | .view => some .model
  | .enum => some .enum
  | .type => some .composite
  | .datasource | .generator => none

/-- Enters the name of a block, if the block declares one. -/
def Names.enter (names : Names) (b : Block) : Except SchemaError Names :=
  match b.keyword.declares with
  | none => .ok names
  | some kind =>
    if (names.lookup b.name).isSome || isScalarName b.name then
      .error (.atLine b.line (.duplicateName b.name))
    else
      .ok (names ++ [(b.name, kind)])

/-- Enters the names of all blocks, in order. -/
def Names.enterAll (names : Names) : List Block → Except SchemaError Names
  | [] => .ok names
  | b :: bs => match names.enter b with
    | .error e => .error e
    | .ok names' => names'.enterAll bs

/-- What a type refers to. -/
def Names.kindOf (names : Names) : TypeExpr → Option FieldKind
  | .unsupported _ => some .unsupported
  | .named name => if isScalarName name then some .scalar else names.lookup name

/-- Looks up the type of a field. -/
def FieldDecl.resolve (names : Names) (f : FieldDecl) : Except SchemaError Field :=
  match names.kindOf f.type with
  | none => .error (.atLine f.line (.undefinedType f.type.name f.name))
  | some kind => .ok
      { name := f.name
        type := { name := f.type.name, kind, isOptional := f.isOptional, isList := f.isList }
        attributes := f.attributes
        documentation := f.documentation }

/-- Looks up the types of several fields, in order. -/
def FieldDecl.resolveAll (names : Names) : List FieldDecl → Except SchemaError (List Field)
  | [] => .ok []
  | f :: fs => match f.resolve names with
    | .error e => .error e
    | .ok field => (resolveAll names fs).map (field :: ·)

/-- The fields of the block whose types are looked up. -/
def Block.typedFields (b : Block) : List FieldDecl :=
  match b.keyword with
  | .model | .type | .view => b.fields
  | .enum | .datasource | .generator => []

namespace Schema

/-- Puts a resolved block in front of the schema of the blocks after it. -/
def consBlock (b : Block) (fields : List Field) (rest : Schema) : Schema :=
  match b.keyword with
  | .model =>
    let model : Model :=
      { name := b.name, fields, attributes := b.attributes, documentation := b.documentation }
    { rest with models := model :: rest.models }
  | .enum => { rest with enums := { name := b.name, values := b.values } :: rest.enums }
  | .type => { rest with compositeTypes := { name := b.name, fields } :: rest.compositeTypes }
  | .view | .datasource | .generator => rest

/-- Looks up the types of all fields of the blocks, in order, and collects what they declare. -/
def ofBlocksIn (names : Names) : List Block → Except SchemaError Schema
  | [] => .ok {}
  | b :: bs => match FieldDecl.resolveAll names b.typedFields with
    | .error e => .error e
    | .ok fields => (ofBlocksIn names bs).map (consBlock b fields)

/-- The schema that a list of blocks declares. -/
def ofBlocks (blocks : List Block) : Except SchemaError Schema :=
  match Names.enterAll [] blocks with
  | .error e => .error e
  | .ok names => ofBlocksIn names blocks

end Schema
end SchemaDiagram
