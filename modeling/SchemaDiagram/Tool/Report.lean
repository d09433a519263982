import SchemaDiagram.Diagram.Json
import SchemaDiagram.Drawing

/-!
# The report of a rendering

The tool that renders a schema answers with the drawn diagram, with the number of its tables and of
its relations, and, if it is asked to, with the diagram itself.
-/

namespace SchemaDiagram

/-- What the rendering tool answers. -/
structure Report where
  diagram : String
  tables : Nat
  relations : Nat
  model : Option Diagram := none
  deriving DecidableEq, Repr

namespace Report

/-- The report on a diagram. -/
def ofDiagram (d : Diagram) (includeModel : Bool) : Report :=
  { diagram := d.render
    tables := d.tables.length
    relations := d.relations.length
    model := if includeModel then some d else none }

/-- Renders a schema. The work is announced, and a failure is reported. -/
def render (schema : String) (includeModel : Bool) : Log.Traced DrawingError Report := do
  Log.Traced.report (.renderingStarted schema.length)
  let d ← (traceDiagram schema).onError fun e => .renderingFailed e.message
  pure (ofDiagram d includeModel)

/-- A report as JSON. There is a member for the diagram only if the report has it. -/
def toJson (r : Report) : Json :=
  .object
    ([("diagram", .string r.diagram), ("tables", .ofNat r.tables),
      ("relations", .ofNat r.relations)]
      ++ (r.model.map fun d => ("model", d.toJson)).toList)

/-- The outcome of a rendering is the report on the schema's diagram. -/
theorem outcome_render (schema : String) (includeModel : Bool) :
    (render schema includeModel).outcome = (diagramOf schema).map (ofDiagram · includeModel) := by
  simp only [render, Log.Traced.outcome_bind, Log.Traced.outcome_report,
    Log.Traced.outcome_onError, outcome_traceDiagram, Log.Traced.outcome_pure]
  cases diagramOf schema <;> rfl

end Report
end SchemaDiagram
