import SchemaDiagram.Diagram.Contribution

/-!
# The diagram of a schema

Every model becomes a table and every field of it a column, in order of declaration; the edges of
the fields are collected in the same order. A schema that was read from text always has a diagram.
One that was put together by other means may hold a model without a name, and then it has none.
-/

namespace SchemaDiagram

/-- The column of a field of the given table. -/
def Column.ofField (table : String) (f : Field) : Column :=
  .ofConstraints f.name f.type.name (Contribution.ofField table f).constraints

namespace Model

/-- The columns of the model's table. -/
def columns (m : Model) : List Column :=
  m.fields.map (Column.ofField m.name)

/-- The table of the model, unless the model has no name. -/
def table? (m : Model) : Option Table :=
  Table.ofName? m.name m.columns

/-- The edges that start at the model's table. -/
def relations (m : Model) : List Relation :=
  m.fields.flatMap fun f => (Contribution.ofField m.name f).relations

end Model

/-- The diagram of a schema, unless one of its models has no name. -/
def Schema.diagram? (s : Schema) : Option Diagram :=
  (s.models.mapM Model.table?).map fun tables =>
    { tables, relations := s.models.flatMap Model.relations }

end SchemaDiagram
