import SchemaDiagram.Diagram.Basic
import SchemaDiagram.Text.Line

/-!
# Drawing a diagram as D2 text

A table is a block of lines: its name with an opening bracket, the line that says it is drawn as a
table, one line per column and the closing bracket. A relation is one line with an arrow. In the
text of a diagram every table and every relation is followed by an empty line, tables first.

No character of a name is escaped. The lines are defined first and the text from the lines, so that
what a reader of the text sees, line by line, can be stated without taking the text apart again.
-/

namespace SchemaDiagram

/-- The constraints of a column as they are drawn behind its type. -/
def Column.annotation (c : Column) : String :=
  if c.constraints.isEmpty then ""
  else " \x7b constraint: [" ++ "; ".intercalate (c.constraints.map Constraint.word) ++ "] \x7d"

/-- A column as it is drawn, without the indentation of its line. -/
def Column.render (c : Column) : String :=
  c.name ++ ": " ++ c.datatype ++ c.annotation

/-- The lines of a table. -/
def Table.lines (t : Table) : List String :=
  (t.name ++ " \x7b") :: "\tshape: sql_table" :: (t.columns.map fun c => "\t" ++ c.render)
    ++ ["\x7d"]

/-- A table as it is drawn. -/
def Table.render (t : Table) : String :=
  Text.joinLines t.lines

/-- A relation as it is drawn. An empty label is still a label. -/
def Relation.render (r : Relation) : String :=
  r.source ++ " -> " ++ r.target ++
    match r.label with
    | none => ""
    | some label => ": " ++ label

namespace Diagram

/-- The lines of a diagram. -/
def lines (d : Diagram) : List String :=
  (d.tables.flatMap fun t => t.lines ++ [""]) ++ (d.relations.flatMap fun r => [r.render, ""])

/-- A diagram as it is drawn. -/
def render (d : Diagram) : String :=
  Text.endLines d.lines

end Diagram
end SchemaDiagram
