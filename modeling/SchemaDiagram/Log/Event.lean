import SchemaDiagram.Log.Level

/-!
# Log events

What the program reports about its own work. An event says what happened; its level, the place it is
reported from and its wording are functions of it, so they are decided here and nowhere else. The
place is written the way the log has always shown it, as a module and a function.
-/

namespace SchemaDiagram
namespace Log

/-- Something worth reporting. -/
inductive Event where
  /-- A schema was read. -/
  | schemaParsed (models enums compositeTypes : Nat)
  /-- A field has an unsupported type, which the diagram shows as it was written. -/
  | unsupportedColumn (model field type : String)
  /-- A table has its columns. -/
  | tableBuilt (model : String) (columns : Nat)
  /-- A diagram is complete. -/
  | diagramBuilt (tables relations : Nat)
  /-- A diagram was asked for, of a schema of so many characters. -/
  | renderingStarted (characters : Nat)
  /-- A diagram that was asked for cannot be made. -/
  | renderingFailed (reason : String)
  /-- A tool was called. -/
  | toolCalled (tool : String)
  /-- A tool that was called has failed. -/
  | toolFailed (reason : String)
  /-- The schema cannot be read from its file. -/
  | inputUnavailable (path reason : String)
  /-- The schema has an error. -/
  | schemaInvalid (reason : String)
  /-- The diagram cannot be written to its file. -/
  | outputUnavailable (path reason : String)
  /-- The diagram was written to its file. -/
  | diagramWritten (path : String)
  deriving DecidableEq, Repr

namespace Event

/-- How severe the event is. -/
def level : Event → Level
  | .schemaParsed .. | .unsupportedColumn .. | .tableBuilt .. => .debug
  | .diagramBuilt .. | .renderingStarted _ | .toolCalled _ | .diagramWritten _ => .info
  | .renderingFailed _ | .toolFailed _ | .inputUnavailable .. | .schemaInvalid _
  | .outputUnavailable .. => .error

/-- The place the event is reported from. -/
def origin : Event → String
  | .schemaParsed .. => "prisma_d2.core.parser:parse"
  | .unsupportedColumn .. | .tableBuilt .. => "prisma_d2.core.builder:_build_table"
  | .diagramBuilt .. => "prisma_d2.core.builder:build"
  | .renderingStarted _ | .renderingFailed _ => "prisma_d2.tools.render_diagram:render_diagram"
  | .toolCalled _ | .toolFailed _ => "prisma_d2.server:dispatch_tool"
  | .inputUnavailable .. | .schemaInvalid _ | .outputUnavailable .. | .diagramWritten _ =>
    "prisma_d2.cli:run_cli"

/-- The event in words. -/
def message : Event → String
  | .schemaParsed models enums compositeTypes =>
    "Parsed schema: " ++ toString models ++ " models, " ++ toString enums ++ " enums, "
      ++ toString compositeTypes ++ " composite types"
  | .unsupportedColumn model field type =>
    model ++ "." ++ field ++ ": unsupported type '" ++ type ++ "' passed through"
  | .tableBuilt model columns => "Table " ++ model ++ ": " ++ toString columns ++ " columns"
  | .diagramBuilt tables relations =>
    "Built diagram: " ++ toString tables ++ " tables, " ++ toString relations ++ " relations"
  | .renderingStarted characters =>
    "Rendering diagram from " ++ toString characters ++ " characters of schema"
  | .renderingFailed reason => "Diagram rendering failed: " ++ reason
  | .toolCalled tool => "Executing tool: " ++ tool
  | .toolFailed reason => "Tool execution failed: " ++ reason
  | .inputUnavailable path reason => "Cannot read schema from " ++ path ++ ": " ++ reason
  | .schemaInvalid reason => "Invalid schema: " ++ reason
  | .outputUnavailable path reason => "Cannot write diagram to " ++ path ++ ": " ++ reason
  | .diagramWritten path => "Diagram written to " ++ path

/-- The place and the words, without the level. -/
def text (e : Event) : String :=
  e.origin ++ " - " ++ e.message

/-- The line of the log that shows the event, with the level in a column of eight characters. -/
def line (e : Event) : String :=
  e.level.word ++ "".pushn ' ' (8 - e.level.word.length) ++ " | " ++ e.text ++ "\n"

/-- Whether the event is shown when the given level is asked for. -/
def isShownAt (threshold : Level) (e : Event) : Bool :=
  threshold.severity ≤ e.level.severity

end Event

/-- The log of some events, as shown when the given level is asked for. -/
def text (threshold : Level) (events : List Event) : String :=
  String.join ((events.filter (Event.isShownAt threshold)).map Event.line)

end Log
end SchemaDiagram
