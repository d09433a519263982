import SchemaDiagram.Text.Uppercase

/-!
# Log levels

A message is shown if its level is at least as severe as the level that was asked for. There are
more levels to ask for than there are levels of messages.
-/

namespace SchemaDiagram
namespace Log

/-- How severe a message is, or must be to be shown. -/
inductive Level where
  | trace
  | debug
  | info
  | success
  | warning
  | error
  | critical
  deriving DecidableEq, Repr, Inhabited

namespace Level

/-- Every level, the least severe first. -/
def all : List Level :=
  [.trace, .debug, .info, .success, .warning, .error, .critical]

/-- The word for the level. -/
def word : Level → String
  | .trace => "TRACE"
  | .debug => "DEBUG"
  | .info => "INFO"
  | .success => "SUCCESS"
  | .warning => "WARNING"
  | .error => "ERROR"
  | .critical => "CRITICAL"

/-- How severe the level is. -/
def severity : Level → Nat
  | .trace => 5
  | .debug => 10
  | .info => 20
  | .success => 25
  | .warning => 30
  | .error => 40
  | .critical => 50

/-- The level that is written as the given word, in upper case. -/
def ofWord? (word : String) : Option Level :=
  all.find? fun l => l.word == word

/-- The level of the given name, in any case. An unknown name is given back in upper case. -/
def ofName (name : String) : Except String Level :=
  let upper := String.ofList (Text.upper name.toList)
  match ofWord? upper with
  | some l => .ok l
  | none => .error upper

@[simp] theorem ofWord?_word (l : Level) : ofWord? l.word = some l := by
  cases l <;> decide

end Level
end Log
end SchemaDiagram
