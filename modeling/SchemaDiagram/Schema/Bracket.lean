/-!
# Brackets

The three kinds of brackets that group text inside an attribute's arguments.
-/

namespace SchemaDiagram

/-- A kind of bracket. -/
inductive Bracket where
  | round
  | square
  | curly
  deriving DecidableEq, Repr, Inhabited

namespace Bracket

/-- The character that opens a group. -/
def opener : Bracket → Char
  | .round => '('
  | .square => '['
  | .curly => '{'

/-- The character that closes a group. -/
def closer : Bracket → Char
  | .round => ')'
  | .square => ']'
  | .curly => '}'

/-- The bracket that the character opens. -/
def ofOpener? : Char → Option Bracket
  | '(' => some .round
  | '[' => some .square
  | '{' => some .curly
  | _ => none

/-- The bracket that the character closes. -/
def ofCloser? : Char → Option Bracket
  | ')' => some .round
  | ']' => some .square
  | '}' => some .curly
  | _ => none

@[simp] theorem ofOpener?_opener (b : Bracket) : ofOpener? b.opener = some b := by
  cases b <;> rfl

@[simp] theorem ofCloser?_closer (b : Bracket) : ofCloser? b.closer = some b := by
  cases b <;> rfl

@[simp] theorem ofOpener?_closer (b : Bracket) : ofOpener? b.closer = none := by
  cases b <;> rfl

@[simp] theorem ofCloser?_opener (b : Bracket) : ofCloser? b.opener = none := by
  cases b <;> rfl

/-- A character opens a bracket exactly when it is that bracket's opener. -/
theorem ofOpener?_eq_some_iff {c : Char} {b : Bracket} : ofOpener? c = some b ↔ c = b.opener := by
  constructor
  · intro h
    unfold ofOpener? at h
    split at h <;> cases h <;> rfl
  · rintro rfl
    simp

/-- A character closes a bracket exactly when it is that bracket's closer. -/
theorem ofCloser?_eq_some_iff {c : Char} {b : Bracket} : ofCloser? c = some b ↔ c = b.closer := by
  constructor
  · intro h
    unfold ofCloser? at h
    split at h <;> cases h <;> rfl
  · rintro rfl
    simp

end Bracket
end SchemaDiagram
