/-!
# Diagrams

A diagram has one table per model and one relation per edge between two of them, both in the order
in which they are drawn. Two things hold of every diagram and are part of its type: a table has a
name, because the name is what relations refer to, and a column lists no constraint twice.
-/

namespace SchemaDiagram

/-- A constraint that a column can carry. -/
inductive Constraint where
  | primaryKey
  | unique
  | foreignKey
  deriving DecidableEq, Repr, Inhabited

namespace Constraint

/-- The word for the constraint. -/
def word : Constraint → String
  | .primaryKey => "primary_key"
  | .unique => "unique"
  | .foreignKey => "foreign_key"

/-- Every constraint. -/
def all : List Constraint :=
  [.primaryKey, .unique, .foreignKey]

/-- The constraint that is written as the given word. -/
def ofWord? (word : String) : Option Constraint :=
  all.find? fun k => k.word == word

@[simp] theorem ofWord?_word (k : Constraint) : ofWord? k.word = some k := by
  cases k <;> decide

theorem eq_of_word_eq {k l : Constraint} (h : k.word = l.word) : k = l := by
  have hword := ofWord?_word k
  rw [h, ofWord?_word] at hword
  exact (Option.some.inj hword).symm

end Constraint

/-! ## Lists without repetition -/

/-- The elements of a list, each where it first occurs. -/
def firstOccurrences {α : Type} [DecidableEq α] : List α → List α
  | [] => []
  | a :: as => a :: (firstOccurrences as).filter (· ≠ a)

@[simp] theorem firstOccurrences_nil {α : Type} [DecidableEq α] :
    firstOccurrences ([] : List α) = [] := rfl

@[simp] theorem firstOccurrences_cons {α : Type} [DecidableEq α] (a : α) (as : List α) :
    firstOccurrences (a :: as) = a :: (firstOccurrences as).filter (· ≠ a) := rfl

/-- An element occurs among the first occurrences exactly when it occurs at all. -/
@[simp] theorem mem_firstOccurrences {α : Type} [DecidableEq α] {x : α} {as : List α} :
    x ∈ firstOccurrences as ↔ x ∈ as := by
  induction as with
  | nil => simp
  | cons a as ih =>
    by_cases h : x = a
    · simp [h]
    · simp [h, ih]

/-- No element occurs first twice. -/
theorem nodup_firstOccurrences {α : Type} [DecidableEq α] (as : List α) :
    (firstOccurrences as).Nodup := by
  induction as with
  | nil => simp
  | cons a as ih =>
    rw [firstOccurrences_cons, List.nodup_cons]
    exact ⟨by simp, ih.sublist List.filter_sublist⟩

/-! ## Tables and relations -/

/-- A column of a table. -/
structure Column where
  name : String
  datatype : String
  constraints : List Constraint := []
  nodup : constraints.Nodup := by decide
  deriving DecidableEq, Repr

/-- The column with the given constraints, each listed where it first occurs. -/
def Column.ofConstraints (name datatype : String) (constraints : List Constraint) : Column :=
  { name, datatype, constraints := firstOccurrences constraints,
    nodup := nodup_firstOccurrences constraints }

/-- A table. -/
structure Table where
  name : String
  columns : List Column := []
  name_ne : name ≠ "" := by decide
  deriving DecidableEq, Repr

/-- The table of the given name, unless the name is empty. -/
def Table.ofName? (name : String) (columns : List Column) : Option Table :=
  if h : name = "" then none else some { name, columns, name_ne := h }

/-- A directed edge between two tables, given by their names. -/
structure Relation where
  source : String
  target : String
  label : Option String := none
  deriving DecidableEq, Repr, Inhabited

/-- A diagram: its tables and its relations, each in the order in which they are drawn. -/
structure Diagram where
  tables : List Table := []
  relations : List Relation := []
  deriving DecidableEq, Repr, Inhabited

end SchemaDiagram
