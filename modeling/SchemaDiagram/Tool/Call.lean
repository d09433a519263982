import SchemaDiagram.Json.Printer
import SchemaDiagram.Tool.Catalog
import SchemaDiagram.Tool.Report

/-!
# Calling a tool

A call names a tool and gives it arguments, and it is always answered with a text. If the tool
succeeds the text is its report, and if it fails the text is an error payload; both are JSON. Only
a call to a tool that does not exist is answered with a plain sentence.

A server checks the arguments against the published parameters before it makes the call. That
check is `Call.serve`; `Call.answer` is the call itself.
-/

namespace SchemaDiagram

/-- A call to a tool. -/
structure Call where
  tool : String
  arguments : List (String × Json)

/-- Why a call to the rendering tool fails. -/
inductive CallError where
  /-- There is an argument that the tool does not take. -/
  | unexpectedArgument (name : String)
  /-- There is no schema. -/
  | missingSchema
  /-- The schema is a value of the given type and not a text. It may have a length all the same. -/
  | notAText (type : String) (length : Option Nat)
  /-- The schema cannot be drawn. -/
  | drawing (error : DrawingError)
  deriving DecidableEq, Repr

/-- The error in words. -/
def CallError.message : CallError → String
  | .unexpectedArgument name =>
    "render_diagram() got an unexpected keyword argument '" ++ name ++ "'"
  | .missingSchema => "render_diagram() missing 1 required positional argument: 'schema'"
  | .notAText type none => "object of type '" ++ type ++ "' has no len()"
  | .notAText type (some _) => "'" ++ type ++ "' object has no attribute 'removeprefix'"
  | .drawing e => e.message

/-- What is reported before the call fails. A value that has a length is announced by it, as a text
would be, before it is found out that it is none. -/
def CallError.events (e : CallError) : List Log.Event :=
  match e with
  | .notAText _ (some length) => [.renderingStarted length, .renderingFailed e.message]
  | _ => []

/-- What a server sends back for a call. -/
structure Reply where
  isError : Bool
  text : List String
  deriving DecidableEq, Repr

namespace Call

/-- The word for the type of a value in a message about a schema that is no text. -/
def typeWord : Json → String
  | .null => "NoneType"
  | .bool _ => "bool"
  | .integer _ => "int"
  | .decimal _ => "float"
  | .string _ => "str"
  | .array _ => "list"
  | .object _ => "dict"

/-- The length of a value, if values of its type have one. -/
def length? : Json → Option Nat
  | .string s => some s.length
  | .array items => some items.length
  | .object members => some members.length
  | _ => none

/-- Takes the arguments of the rendering tool apart: the schema, and whether the diagram itself is
asked for, for which any value may stand. -/
def renderingArguments (arguments : List (String × Json)) : Except CallError (String × Bool) :=
  match arguments.find? fun a => a.1 != "schema" && a.1 != "include_model" with
  | some (name, _) => .error (.unexpectedArgument name)
  | none => match arguments.lookup "schema" with
    | some (.string schema) =>
      .ok (schema, ((arguments.lookup "include_model").map Json.isTruthy).getD false)
    | some v => .error (.notAText (typeWord v) (length? v))
    | none => .error .missingSchema

/-- Runs the rendering tool. -/
def runRendering (arguments : List (String × Json)) : Log.Traced CallError Report :=
  match renderingArguments arguments with
  | .error e => ⟨e.events, .error e⟩
  | .ok (schema, includeModel) =>
    let report := Report.render schema includeModel
    ⟨report.events, report.outcome.mapError .drawing⟩

/-- The payload that tells the caller about a failure. -/
def errorPayload (tool message : String) : Json :=
  .object [("error", .bool true), ("message", .string message), ("tool", .string tool)]

/-- The answer to a call, and what is reported while it is worked on. -/
def answer (c : Call) : List Log.Event × String :=
  if c.tool = Tool.renderDiagram.name then
    let result := (runRendering c.arguments).onError fun e => .toolFailed e.message
    (.toolCalled c.tool :: result.events,
      match result.outcome with
      | .ok report => report.toJson.indented
      | .error e => (errorPayload c.tool e.message).oneLine)
  else
    ([], "Unknown tool: " ++ c.tool)

/-- What a server sends back. The arguments of a known tool are checked first. -/
def serve (c : Call) : Reply :=
  match Tool.all.find? fun t => t.name == c.tool with
  | some tool => match tool.fault? c.arguments with
    | some fault => { isError := true, text := ["Input validation error: " ++ fault.message] }
    | none => { isError := false, text := [c.answer.2] }
  | none => { isError := false, text := [c.answer.2] }

end Call
end SchemaDiagram
