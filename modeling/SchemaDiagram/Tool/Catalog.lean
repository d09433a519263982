import SchemaDiagram.Json.Basic

/-!
# The catalog of tools

A tool is announced to its callers by a name, a description and its parameters. The parameters are
published as a JSON schema, and the same list decides which arguments a call may have.
-/

namespace SchemaDiagram

/-- The type of a parameter. -/
inductive ParameterType where
  | string
  | boolean
  deriving DecidableEq, Repr

namespace ParameterType

/-- The word for the type. -/
def word : ParameterType → String
  | .string => "string"
  | .boolean => "boolean"

/-- Whether the value is of the type. -/
def admits : ParameterType → Json → Bool
  | .string, .string _ => true
  | .boolean, .bool _ => true
  | _, _ => false

end ParameterType

/-- A parameter of a tool. A parameter without a default must be given. -/
structure Parameter where
  name : String
  type : ParameterType
  description : String
  default : Option Json := none

/-- A tool as it is announced. -/
structure Tool where
  name : String
  description : String
  parameters : List Parameter

namespace Parameter

/-- The parameter as a part of a JSON schema. -/
def toJson (p : Parameter) : Json :=
  .object
    ([("type", .string p.type.word), ("description", .string p.description)]
      ++ (p.default.map fun v => ("default", v)).toList)

end Parameter

/-- What is wrong with the arguments of a call. -/
inductive ArgumentFault where
  /-- A parameter that must be given is not. -/
  | required (parameter : String)
  /-- An argument is not of the type of its parameter. -/
  | wrongType (value : Json) (type : ParameterType)

/-- The fault in words. -/
def ArgumentFault.message : ArgumentFault → String
  | .required parameter =>
    String.ofList (Text.quoted parameter.toList) ++ " is a required property"
  | .wrongType value type =>
    String.ofList value.shown ++ " is not of type "
      ++ String.ofList (Text.quoted type.word.toList)

namespace Tool

/-- The parameters that must be given. -/
def requiredNames (t : Tool) : List String :=
  (t.parameters.filter fun p => p.default.isNone).map Parameter.name

/-- The JSON schema of the tool's arguments. -/
def inputSchema (t : Tool) : Json :=
  .object
    [("type", .string "object"),
     ("properties", .object (t.parameters.map fun p => (p.name, p.toJson))),
     ("required", .array (t.requiredNames.map Json.string))]

/-- The tool as JSON. -/
def toJson (t : Tool) : Json :=
  .object [("name", .string t.name), ("description", .string t.description),
    ("inputSchema", t.inputSchema)]

/-- What is wrong with the arguments of a call, if anything is: first a parameter that is missing,
then an argument of a wrong type. An argument that belongs to no parameter is let through. -/
def fault? (t : Tool) (arguments : List (String × Json)) : Option ArgumentFault :=
  match t.requiredNames.find? fun name => (arguments.lookup name).isNone with
  | some name => some (.required name)
  | none => t.parameters.findSome? fun p =>
    match arguments.lookup p.name with
    | some v => if p.type.admits v then none else some (.wrongType v p.type)
    | none => none

/-- The tool that renders a schema. -/
def renderDiagram : Tool :=
  { name := "render_diagram"
    description := "Convert a Prisma schema into a D2 entity-relationship diagram. " ++
      "Each model becomes a sql_table shape with column types and primary_key/unique markers; " ++
      "@relation fields become edges."
    parameters :=
      [{ name := "schema"
         type := .string
         description := "Prisma schema source text (schema.prisma contents)" },
       { name := "include_model"
         type := .boolean
         description := "Also return the intermediate diagram model as JSON (default: false)"
         default := some (.bool false) }] }

/-- Every tool. -/
def all : List Tool :=
  [renderDiagram]

end Tool
end SchemaDiagram
