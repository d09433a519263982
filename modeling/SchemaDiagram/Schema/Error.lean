import SchemaDiagram.Schema.Bracket
import SchemaDiagram.Schema.Keyword

/-!
# Errors in a schema

Reading a schema can go wrong in the ways listed by `Cause` and in no other. A
scanner only knows the cause; the line is attached by whoever knows which line is being read, so
that a cause and the place where it was met stay apart until the two are shown together.
-/

namespace SchemaDiagram

/-- What is wrong with a schema. -/
inductive Cause where
  /-- A closing bracket that does not match the innermost open one. -/
  | mismatchedCloser (bracket : Bracket)
  /-- An opening bracket whose group does not end. -/
  | unclosedGroup (bracket : Bracket)
  /-- A closing bracket where none is open. -/
  | unexpectedCloser (bracket : Bracket)
  /-- A string literal that does not end. -/
  | unterminatedLiteral
  /-- Text where an attribute should start. -/
  | unexpectedText (text : String)
  /-- A line outside any block that is no block header. -/
  | notABlock (code : String)
  /-- A block header with a word that opens no block. -/
  | unknownKeyword (word : String)
  /-- A block that is still open where the text ends. -/
  | neverClosed (keyword : Keyword) (name : String)
  /-- A line of an enum that is no value. -/
  | invalidValue (code : String)
  /-- A line of a model, view or composite type that is no field. -/
  | invalidField (code : String)
  /-- A second field of one name in a block. -/
  | duplicateField (field block : String)
  /-- A declaration whose name is already taken. -/
  | duplicateName (name : String)
  /-- A field whose type is not declared. -/
  | undefinedType (type field : String)
  deriving DecidableEq, Repr, Inhabited

/-- The cause in words. -/
def Cause.message : Cause → String
  | .mismatchedCloser b => "mismatched '" ++ b.closer.toString ++ "'"
  | .unclosedGroup b => "unclosed '" ++ b.opener.toString ++ "'"
  | .unexpectedCloser b => "unexpected '" ++ b.closer.toString ++ "'"
  | .unterminatedLiteral => "unterminated string literal"
  | .unexpectedText text => "unexpected '" ++ text ++ "'"
  | .notABlock code => "expected a block declaration, found '" ++ code ++ "'"
  | .unknownKeyword word => "unknown block type '" ++ word ++ "'"
  | .neverClosed keyword name => keyword.word ++ " '" ++ name ++ "' is never closed"
  | .invalidValue code => "invalid enum value '" ++ code ++ "'"
  | .invalidField code => "invalid field declaration '" ++ code ++ "'"
  | .duplicateField field block => "field '" ++ field ++ "' is already defined on '" ++ block ++ "'"
  | .duplicateName name => "'" ++ name ++ "' is already defined"
  | .undefinedType type field => "type '" ++ type ++ "' of field '" ++ field ++ "' is not defined"

/-- A cause, with the number of the line it was met on if there is one. -/
structure SchemaError where
  cause : Cause
  line : Option Int
  deriving DecidableEq, Repr, Inhabited

namespace SchemaError

/-- The error on a line of a schema; the first line has number one. -/
def atLine (line : Nat) (cause : Cause) : SchemaError :=
  ⟨cause, some line⟩

/-- What a scan comes to for a caller who knows its line, or that it has none: the result of the
scan, or its cause on that line. -/
def located {α : Type} (line : Option Int) (outcome : Except Cause α) : Except SchemaError α :=
  outcome.mapError fun cause => { cause, line }

/-- The error in words, with the line in front. -/
def message (e : SchemaError) : String :=
  match e.line with
  | some n => "line " ++ toString n ++ ": " ++ e.cause.message
  | none => e.cause.message

end SchemaError
end SchemaDiagram
