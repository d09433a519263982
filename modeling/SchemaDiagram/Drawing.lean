import SchemaDiagram.Diagram.Build
import SchemaDiagram.Diagram.Render
import SchemaDiagram.Log.Traced
import SchemaDiagram.Schema.Parser

/-!
# From schema text to a drawn diagram

A schema is read, its diagram is built, and the diagram is drawn. Each of the first two steps
reports what it did; the third has nothing to report. `draw` is the whole way without the reports;
`traceDiagram` is the part of it that reports, and `outcome_traceDiagram` says that both make the
same diagram.
-/

namespace SchemaDiagram

/-- Why a schema has no drawn diagram. -/
inductive DrawingError where
  /-- The schema has an error. -/
  | schema (error : SchemaError)
  /-- A model has no name, so there can be no table for it. -/
  | unnamedTable
  deriving DecidableEq, Repr, Inhabited

/-- The error in words. -/
def DrawingError.message : DrawingError → String
  | .schema e => e.message
  | .unnamedTable => "a table needs a name"

/-- The diagram of the schema that a text spells. -/
def diagramOf (text : String) : Except DrawingError Diagram :=
  match Schema.parse text with
  | .error e => .error (.schema e)
  | .ok s => match s.diagram? with
    | none => .error .unnamedTable
    | some d => .ok d

/-- The drawn diagram of the schema that a text spells. -/
def draw (text : String) : Except DrawingError String :=
  (diagramOf text).map Diagram.render

/-! ## The same way with reports -/

namespace Schema

open Log (Event Traced)

/-- Reads a schema. A schema that was read is reported with the number of its parts. -/
def parseTraced (text : String) : Traced DrawingError Schema :=
  match parse text with
  | .error e => ⟨[], .error (.schema e)⟩
  | .ok s => ⟨[.schemaParsed s.models.length s.enums.length s.compositeTypes.length], .ok s⟩

/-- The models up to the first one without a name, which is the last one to be worked on. -/
def workedOn : List Model → List Model
  | [] => []
  | m :: ms => if m.name = "" then [m] else m :: workedOn ms

/-- What is reported about one model: the fields of an unsupported type, and then its table. -/
def tableEvents (m : Model) : List Event :=
  ((m.fields.filter Field.isUnsupported).map fun f =>
    .unsupportedColumn m.name f.name f.type.name) ++ [.tableBuilt m.name m.fields.length]

/-- Builds the diagram of a schema. Each table is reported, and the diagram once it is complete. -/
def buildTraced (s : Schema) : Traced DrawingError Diagram :=
  let events := (workedOn s.models).flatMap tableEvents
  match s.diagram? with
  | none => ⟨events, .error .unnamedTable⟩
  | some d => ⟨events ++ [.diagramBuilt d.tables.length d.relations.length], .ok d⟩

end Schema

/-- The diagram of the schema that a text spells, with the reports of both steps. -/
def traceDiagram (text : String) : Log.Traced DrawingError Diagram :=
  Schema.parseTraced text >>= Schema.buildTraced

/-- Reports do not change the diagram. -/
@[simp] theorem outcome_traceDiagram (text : String) :
    (traceDiagram text).outcome = diagramOf text := by
  simp only [traceDiagram, Log.Traced.outcome_bind, Schema.parseTraced, diagramOf]
  cases Schema.parse text with
  | error e => rfl
  | ok s =>
    simp only [bind, Except.bind, Schema.buildTraced]
    cases s.diagram? <;> rfl

end SchemaDiagram
