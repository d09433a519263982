import SchemaDiagram.Json.Basic

/-!
# Checking a JSON value against a shape

A value that comes from outside is checked against the shape that is expected of it. A check
either gives the value of the shape, or it lists everything that is wrong: every issue with the
path at which it was found, in the order in which the shape names its parts. A part that is wrong
never hides what is wrong with another part.
-/

namespace SchemaDiagram
namespace Json

/-- One step into a value: to a member of an object, or to an item of an array. -/
inductive Step where
  | member (name : String)
  | item (index : Nat)
  deriving DecidableEq, Repr

/-- The step in words. -/
def Step.text : Step → String
  | .member name => name
  | .item index => toString index

/-- How a value can fail to have the shape that is expected of it. -/
inductive Fault where
  /-- A member that has to be there is not. -/
  | missing
  /-- The value is no string. -/
  | notAString
  /-- The value is no array. -/
  | notAList
  /-- The value is none of those that are listed. -/
  | notListed
  /-- The string is empty and must not be. -/
  | tooShort
  /-- The value is no object. -/
  | notAnObject
  /-- The value is neither true nor false and cannot stand for them. -/
  | notABool
  /-- The value could stand for true or false, but is not among those that do. -/
  | unclearBool
  deriving DecidableEq, Repr

/-- The word for a fault. -/
def Fault.word : Fault → String
  | .missing => "missing"
  | .notAString => "string_type"
  | .notAList => "list_type"
  | .notListed => "enum"
  | .tooShort => "string_too_short"
  | .notAnObject => "model_type"
  | .notABool => "bool_type"
  | .unclearBool => "bool_parsing"

/-- A fault and the path at which it was found. -/
structure Issue where
  path : List Step
  fault : Fault
  deriving DecidableEq, Repr

/-- The issue in words. -/
def Issue.text (i : Issue) : String :=
  ".".intercalate (i.path.map Step.text) ++ ": " ++ i.fault.word

/-- The result of a check: the value, or at least one issue. -/
inductive Checked (α : Type) where
  | valid (value : α)
  | invalid (first : Issue) (others : List Issue)
  deriving DecidableEq, Repr

namespace Checked

variable {α β : Type}

/-- Everything that is wrong. -/
def issues : Checked α → List Issue
  | .valid _ => []
  | .invalid first others => first :: others

/-- A single fault, at the value itself. -/
def fault (f : Fault) : Checked α :=
  .invalid ⟨[], f⟩ []

/-- Changes the value. -/
protected def map (f : α → β) : Checked α → Checked β
  | .valid a => .valid (f a)
  | .invalid first others => .invalid first others

/-- Goes on to the next part of a shape; what is wrong with either part is listed. -/
protected def seq (f : Checked (α → β)) (x : Unit → Checked α) : Checked β :=
  match f, x () with
  | .valid f, .valid a => .valid (f a)
  | .valid _, .invalid first others => .invalid first others
  | .invalid first others, y => .invalid first (others ++ y.issues)

instance : Applicative Checked where
  pure := .valid
  map := Checked.map
  seq := Checked.seq

/-- The result, seen from one step further out. -/
def under (s : Step) : Checked α → Checked α
  | .valid a => .valid a
  | .invalid first others =>
    let move (i : Issue) : Issue := { i with path := s :: i.path }
    .invalid (move first) (others.map move)

@[simp] theorem issues_valid (a : α) : (valid a).issues = [] := rfl

@[simp] theorem issues_fault (f : Fault) : (fault f : Checked α).issues = [⟨[], f⟩] := rfl

@[simp] theorem issues_pure (a : α) : (pure a : Checked α).issues = [] := rfl

@[simp] theorem issues_map (f : α → β) (x : Checked α) : (f <$> x).issues = x.issues := by
  cases x <;> rfl

/-- The issues of two parts are those of the first and then those of the second. -/
@[simp] theorem issues_seq (f : Checked (α → β)) (x : Checked α) :
    (f <*> x).issues = f.issues ++ x.issues := by
  cases f <;> cases x <;> rfl

/-- There is a value exactly when nothing is wrong. -/
theorem issues_eq_nil_iff {x : Checked α} : x.issues = [] ↔ ∃ a, x = .valid a := by
  cases x <;> simp [issues]

theorem valid_seq (f : α → β) (x : Checked α) : valid f <*> x = f <$> x := by
  cases x <;> rfl

theorem map_invalid (f : α → β) (first : Issue) (others : List Issue) :
    f <$> (invalid first others : Checked α) = invalid first others := rfl

theorem invalid_seq (first : Issue) (others : List Issue) (x : Checked α) :
    (invalid first others : Checked (α → β)) <*> x = invalid first (others ++ x.issues) := by
  cases x <;> rfl

theorem map_eq_valid_iff {f : α → β} {x : Checked α} {b : β} :
    f <$> x = .valid b ↔ ∃ a, x = .valid a ∧ f a = b := by
  cases x with
  | valid a =>
    constructor
    · intro h
      exact ⟨a, rfl, valid.inj h⟩
    · rintro ⟨_, h, rfl⟩
      rw [valid.inj h]
      rfl
  | invalid first others => exact ⟨nofun, nofun⟩

theorem seq_eq_valid_iff {f : Checked (α → β)} {x : Checked α} {b : β} :
    f <*> x = .valid b ↔ ∃ g a, f = .valid g ∧ x = .valid a ∧ g a = b := by
  cases f with
  | valid g =>
    rw [valid_seq, map_eq_valid_iff]
    constructor
    · rintro ⟨a, hx, ha⟩
      exact ⟨g, a, rfl, hx, ha⟩
    · rintro ⟨_, a, h, hx, ha⟩
      exact ⟨a, hx, by rw [valid.inj h]; exact ha⟩
  | invalid first others =>
    rw [invalid_seq]
    exact ⟨nofun, nofun⟩

theorem under_eq_valid_iff {s : Step} {x : Checked α} {a : α} :
    x.under s = .valid a ↔ x = .valid a := by
  cases x with
  | valid b => exact Iff.rfl
  | invalid first others => exact ⟨nofun, nofun⟩

end Checked

instance : LawfulApplicative Checked where
  map_const := rfl
  id_map x := by cases x <;> rfl
  seqLeft_eq _ _ := rfl
  seqRight_eq _ _ := rfl
  pure_seq := Checked.valid_seq
  map_pure _ _ := rfl
  seq_pure f _ := by
    cases f with
    | valid f => rfl
    | invalid first others => simp [Checked.invalid_seq, Checked.map_invalid]
  seq_assoc x g f := by
    cases f with
    | valid f =>
      cases g with
      | valid g => cases x <;> rfl
      | invalid first others => rfl
    | invalid first others =>
      simp only [Checked.invalid_seq, Checked.map_invalid, Checked.issues_seq, List.append_assoc]

/-! ## Checks for simple shapes -/

namespace Check

variable {α : Type}

/-- A string. -/
def string : Json → Checked String
  | .string s => .valid s
  | _ => .fault .notAString

/-- A string that is not empty. -/
def nonempty : Json → Checked { s : String // s ≠ "" }
  | .string s => if h : s = "" then .fault .tooShort else .valid ⟨s, h⟩
  | _ => .fault .notAString

/-- A value of the given shape, or null. -/
def nullable (check : Json → Checked α) : Json → Checked (Option α)
  | .null => .valid none
  | v => some <$> check v

/-- The words that stand for true, in lower case. -/
def yesWords : List String :=
  ["true", "t", "yes", "y", "on", "1"]

/-- The words that stand for false, in lower case. -/
def noWords : List String :=
  ["false", "f", "no", "n", "off", "0"]

/-- The integers of a word are those from the negative of this up to, but not including, this. It is
`2 ^ 63`. -/
def wordLimit : Int := 9223372036854775808

/-- True or false for the numbers one and zero. Any other whole number is unclear. -/
def boolOfWhole (n : Int) : Checked Bool :=
  if n = 1 then .valid true else if n = 0 then .valid false else .fault .unclearBool

/-- True or false. Some words may stand for them, and so may the numbers one and zero, also where
they are written as decimals. A number is not taken for a truth value at all if it has a fraction,
if it is an integer that is not one of a word, or if it is a decimal whose size is at least the
limit of a word. A decimal at the limit may be one beyond it that was rounded, so of decimals the
least integer of a word is left out too. -/
def bool : Json → Checked Bool
  | .bool b => .valid b
  | .integer n => if -wordLimit ≤ n ∧ n < wordLimit then boolOfWhole n else .fault .notABool
  | .decimal d => match d.whole? with
    | some n => if -wordLimit < n ∧ n < wordLimit then boolOfWhole n else .fault .notABool
    | none => .fault .notABool
  | .string s =>
    let word := s.map Char.toLower
    if yesWords.contains word then .valid true
    else if noWords.contains word then .valid false
    else .fault .unclearBool
  | _ => .fault .notABool

/-- One of the values that have a word of their own. -/
def listed (ofWord? : String → Option α) : Json → Checked α
  | .string s => match ofWord? s with
    | some a => .valid a
    | none => .fault .notListed
  | _ => .fault .notListed

/-- Items of the given shape, the first of which has the given position. -/
def items (check : Json → Checked α) (index : Nat) : List Json → Checked (List α)
  | [] => .valid []
  | v :: vs => (· :: ·) <$> (check v).under (.item index) <*> items check (index + 1) vs

/-- An array whose items have the given shape. -/
def list (check : Json → Checked α) : Json → Checked (List α)
  | .array vs => items check 0 vs
  | _ => .fault .notAList

/-- An object whose members are as expected. -/
def object (check : List (String × Json) → Checked α) : Json → Checked α
  | .object members => check members
  | _ => .fault .notAnObject

/-- A member that has to be there. -/
def required (members : List (String × Json)) (name : String) (check : Json → Checked α) :
    Checked α :=
  match members.lookup name with
  | none => (Checked.fault .missing).under (.member name)
  | some v => (check v).under (.member name)

/-- A member that may be missing and then has the given value. -/
def optional (members : List (String × Json)) (name : String) (default : α)
    (check : Json → Checked α) : Checked α :=
  match members.lookup name with
  | none => .valid default
  | some v => (check v).under (.member name)

end Check
end Json
end SchemaDiagram
