/-!
# String literals

A string literal runs from one double quote to the next that is not escaped; inside it a backslash
escapes the character after it, whichever that is. Comments, brackets and commas only count outside
of literals, so every scanner of a line follows the same three-state machine, one character at a
time. Outside of a literal a backslash is an ordinary character.
-/

namespace SchemaDiagram

/-- Where a scan stands with respect to string literals. -/
inductive LiteralState where
  /-- Not in a literal. -/
  | outside
  /-- In a literal. -/
  | inside
  /-- In a literal, just after a backslash. -/
  | escaped
  deriving DecidableEq, Repr, Inhabited

namespace LiteralState

/-- The state after one more character. -/
def next : LiteralState → Char → LiteralState
  | .outside, c => if c = '"' then .inside else .outside
  | .inside, c => if c = '"' then .outside else if c = '\\' then .escaped else .inside
  | .escaped, _ => .inside

/-- The state after a text. -/
def after (s : LiteralState) (text : List Char) : LiteralState :=
  text.foldl next s

@[simp] theorem after_nil (s : LiteralState) : s.after [] = s := rfl

@[simp] theorem after_cons (s : LiteralState) (c : Char) (text : List Char) :
    s.after (c :: text) = (s.next c).after text := rfl

theorem after_append (s : LiteralState) (a b : List Char) :
    s.after (a ++ b) = (s.after a).after b :=
  List.foldl_append

@[simp] theorem next_escaped (c : Char) : LiteralState.escaped.next c = .inside := rfl

end LiteralState
end SchemaDiagram
