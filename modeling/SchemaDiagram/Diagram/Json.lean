import SchemaDiagram.Diagram.Basic
import SchemaDiagram.Json.Check

/-!
# Diagrams as JSON

A diagram can be written as JSON, with the members of every object in a fixed order, and read
back. A diagram that is read is put in order on the way: constraints that are repeated are listed
once. A table without a name is refused.
-/

namespace SchemaDiagram

open Json.Check (string nonempty nullable listed list object required optional)

/-! ## Writing -/

/-- A column as JSON. -/
def Column.toJson (c : Column) : Json :=
  .object [("name", .string c.name), ("datatype", .string c.datatype),
    ("constraints", .array (c.constraints.map fun k => .string k.word))]

/-- A table as JSON. -/
def Table.toJson (t : Table) : Json :=
  .object [("name", .string t.name), ("columns", .array (t.columns.map Column.toJson))]

/-- A relation as JSON. -/
def Relation.toJson (r : Relation) : Json :=
  .object [("source", .string r.source), ("target", .string r.target),
    ("label", .ofOption r.label)]

/-- A diagram as JSON. -/
def Diagram.toJson (d : Diagram) : Json :=
  .object [("tables", .array (d.tables.map Table.toJson)),
    ("relations", .array (d.relations.map Relation.toJson))]

/-! ## Reading -/

/-- Checks that a value is a column. -/
def Column.ofJson : Json → Json.Checked Column :=
  object fun ms => Column.ofConstraints
    <$> required ms "name" string
    <*> required ms "datatype" string
    <*> optional ms "constraints" [] (list (listed Constraint.ofWord?))

/-- Checks that a value is a table. -/
def Table.ofJson : Json → Json.Checked Table :=
  object fun ms => (fun name columns => { name := name.1, columns, name_ne := name.2 })
    <$> required ms "name" nonempty
    <*> optional ms "columns" [] (list Column.ofJson)

/-- Checks that a value is a relation. -/
def Relation.ofJson : Json → Json.Checked Relation :=
  object fun ms => Relation.mk
    <$> required ms "source" string
    <*> required ms "target" string
    <*> optional ms "label" none (nullable string)

/-- Checks that a value is a diagram. -/
def Diagram.ofJson : Json → Json.Checked Diagram :=
  object fun ms => Diagram.mk
    <$> optional ms "tables" [] (list Table.ofJson)
    <*> optional ms "relations" [] (list Relation.ofJson)

end SchemaDiagram
