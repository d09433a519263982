import Mathlib.Data.List.Infix
import SchemaDiagram.Proofs.Building
import SchemaDiagram.Proofs.Validation

/-!
# Listing each constraint once

Constraints are listed once in two places. A field collects those that its attributes ask for, one
after the other, and leaves out what is there already; a column is handed a list as a whole and
keeps what occurs in it first. `KeepsFirst` says what both of them should leave of a list, without
saying how it is found, and only one list fits (`keepsFirst_iff`).

Adding constraints step by step only ever puts something behind what is there
(`Contribution.isChain_constraintSteps`), and each step leaves what a column would keep of the
constraints so far (`Contribution.constraintSteps_eq`). So a column that is made for a field finds
nothing to leave out (`Contribution.constraints_of_steps`).
-/

namespace SchemaDiagram

/-! ## What is kept of a list -/

section Lists

variable {α : Type} [DecidableEq α]

/-- The list holds the elements of another one, in the order in which they first occur there. -/
structure KeepsFirst (as kept : List α) : Prop where
  mem_iff : ∀ a, a ∈ kept ↔ a ∈ as
  ordered : kept.Pairwise fun a b => as.idxOf a < as.idxOf b

variable {as kept kept' : List α}

theorem KeepsFirst.nodup (h : KeepsFirst as kept) : kept.Nodup :=
  h.ordered.imp fun {a b} hlt heq => by
    rw [heq] at hlt
    exact Nat.lt_irrefl _ hlt

/-- Only one list is left. -/
theorem KeepsFirst.unique (h : KeepsFirst as kept) (h' : KeepsFirst as kept') : kept = kept' := by
  have hperm : kept.Perm kept' :=
    (List.perm_ext_iff_of_nodup h.nodup h'.nodup).mpr fun a =>
      (h.mem_iff a).trans (h'.mem_iff a).symm
  exact hperm.eq_of_pairwise (fun a b _ _ hab hba => absurd hab (Nat.lt_asymm hba)) h.ordered
    h'.ordered

theorem keepsFirst_firstOccurrences (as : List α) : KeepsFirst as (firstOccurrences as) where
  mem_iff _ := mem_firstOccurrences
  ordered := by
    have hidx : ∀ a, as.idxOf a = as.findIdx fun b => some b = some a := fun a => by
      simp [List.idxOf, beq_eq_decide]
    have h := pairwise_firstOccurrences_filterMap some as
    simpa only [List.filterMap_some, ← hidx] using h

/-- **What is kept** is the list of first occurrences, and nothing else. -/
theorem keepsFirst_iff : KeepsFirst as kept ↔ kept = firstOccurrences as := by
  constructor
  · exact fun h => h.unique (keepsFirst_firstOccurrences as)
  · rintro rfl
    exact keepsFirst_firstOccurrences as

/-! ## Adding one element -/

theorem prefix_appendNew (as : List α) (a : α) : as <+: appendNew as a := by
  rw [appendNew]
  split
  · exact List.prefix_rfl
  · exact List.prefix_append as [a]

theorem nodup_appendNew (h : as.Nodup) (a : α) : (appendNew as a).Nodup := by
  rw [appendNew]
  split
  · exact h
  · next ha =>
    rw [← List.concat_eq_append]
    exact h.concat ha

end Lists

/-! ## Adding constraints one by one -/

namespace Contribution

theorem constraints_foldl_addConstraint (r : Contribution) (ks : List Constraint) :
    (ks.foldl addConstraint r).constraints = ks.foldl appendNew r.constraints := by
  induction ks generalizing r with
  | nil => rfl
  | cons k ks ih => rw [List.foldl_cons, ih, constraints_addConstraint, List.foldl_cons]

/-- What all the steps lead to, from nothing, is what a column keeps. -/
theorem foldl_addConstraint (ks : List Constraint) :
    (ks.foldl addConstraint {}).constraints = firstOccurrences ks := by
  rw [constraints_foldl_addConstraint]
  exact foldl_appendNew_nil ks

/-- After each step the constraints are those of the steps so far. -/
theorem constraintSteps_eq (r : Contribution) (ks : List Constraint) :
    r.constraintSteps ks =
      ks.inits.tail.map fun part => (part.foldl addConstraint r).constraints := by
  induction ks generalizing r with
  | nil => rfl
  | cons k ks ih =>
    rw [constraintSteps, ih, List.inits_cons, List.tail_cons, List.map_map]
    cases ks with
    | nil => rfl
    | cons l ks => rfl

/-- **No step takes anything back.** The constraints after each step start with those before it. -/
theorem isChain_constraintSteps (r : Contribution) (ks : List Constraint) :
    (r.constraints :: r.constraintSteps ks).IsChain (· <+: ·) := by
  induction ks generalizing r with
  | nil => exact .singleton _
  | cons k ks ih =>
    refine List.isChain_cons_cons.mpr ⟨?_, ih (r.addConstraint k)⟩
    rw [constraints_addConstraint]
    exact prefix_appendNew r.constraints k

/-- **No step repeats anything.** -/
theorem nodup_of_mem_constraintSteps {r : Contribution} (hr : r.constraints.Nodup)
    {ks : List Constraint} : ∀ kept ∈ r.constraintSteps ks, kept.Nodup := by
  induction ks generalizing r with
  | nil => exact List.forall_mem_nil _
  | cons k ks ih =>
    have hstep : (r.addConstraint k).constraints.Nodup := by
      rw [constraints_addConstraint]
      exact nodup_appendNew hr k
    exact List.forall_mem_cons.mpr ⟨hstep, ih hstep⟩

end Contribution

/-! ## Columns with given constraints -/

/-- A column as JSON, with constraints that may be repeated. -/
def Column.listing (name datatype : String) (ks : List Constraint) : Json :=
  .object [("name", .string name), ("datatype", .string datatype),
    ("constraints", .array (ks.map fun k => .string k.word))]

open Json (Reads) in
/-- A column that is given from outside keeps of its constraints what any column keeps. -/
theorem Column.ofJson_listing (name datatype : String) (ks : List Constraint) :
    ofJson (listing name datatype ks) = .valid (ofConstraints name datatype ks) := by
  rw [ofJson, listing, Json.Check.object, Reads.string.required_write rfl,
    Reads.string.required_write rfl, Constraint.reads.list.optional_write rfl]
  rfl

/-- The columns of a diagram list the constraints of the fields as they are. -/
theorem Schema.constraints_of_diagram {s : Schema} {d : Diagram} (h : s.diagram? = some d) :
    d.tables.map (fun t => t.columns.map Column.constraints) =
      s.models.map fun m => m.fields.map fun f => (Contribution.ofField m.name f).constraints := by
  refine map_eq_map_of_forall₂ ((diagram?_eq_some_iff.mp h).1.imp fun t m htm => ?_)
  rw [htm.2, Model.columns, List.map_map]
  exact List.map_congr_left fun f _ => Contribution.constraints_column m.name f

namespace Contribution

/-- **Constraints are listed once, in the same way twice.** Adding constraints to nothing, one by
one, leaves what a column keeps of the list, no matter whether the column is built or given from
outside; these are the constraints of the list in the order of their first occurrences, and no other
list is. After each step the constraints are those of the steps so far, without repetition, and they
start with those before the step. So the column of a field has the very constraints that the field
asks for, and so have all columns of a diagram. -/
theorem constraints_of_steps :
    (∀ ks : List Constraint,
      (∀ name datatype,
        (ks.foldl addConstraint {}).constraints =
          (Column.ofConstraints name datatype ks).constraints ∧
        Column.ofJson (Column.listing name datatype ks) =
          .valid (Column.ofConstraints name datatype ks)) ∧
      (∀ kept, KeepsFirst ks kept ↔ kept = (ks.foldl addConstraint {}).constraints) ∧
      constraintSteps {} ks =
        ks.inits.tail.map (fun part => (part.foldl addConstraint {}).constraints) ∧
      (∀ kept ∈ constraintSteps {} ks, kept.Nodup) ∧
      ([] :: constraintSteps {} ks).IsChain (· <+: ·)) ∧
    (∀ table f, (Column.ofField table f).constraints = (ofField table f).constraints) ∧
    ∀ (s : Schema) (d : Diagram), s.buildTraced.outcome = .ok d →
      d.tables.map (fun t => t.columns.map Column.constraints) =
        s.models.map fun m => m.fields.map fun f => (ofField m.name f).constraints := by
  refine ⟨fun ks => ⟨fun name datatype => ?_, fun kept => ?_, ?_, ?_, ?_⟩, constraints_column,
    fun s d h => ?_⟩
  · exact ⟨foldl_addConstraint ks, Column.ofJson_listing name datatype ks⟩
  · rw [foldl_addConstraint]
    exact keepsFirst_iff
  · exact constraintSteps_eq {} ks
  · exact nodup_of_mem_constraintSteps List.nodup_nil
  · exact isChain_constraintSteps {} ks
  · rw [Schema.outcome_buildTraced] at h
    cases hd : s.diagram? with
    | none =>
      rw [hd] at h
      exact nomatch h
    | some d' =>
      rw [hd] at h
      obtain rfl := Except.ok.inj h
      exact Schema.constraints_of_diagram hd

/-- Constraints that are added in five steps, two of which add nothing; and a field with a
constraint that is asked for twice. -/
theorem constraints_of_steps_repeated :
    let ks : List Constraint := [.unique, .primaryKey, .unique, .foreignKey, .primaryKey]
    constraintSteps {} ks = [[.unique], [.unique, .primaryKey], [.unique, .primaryKey],
        [.unique, .primaryKey, .foreignKey], [.unique, .primaryKey, .foreignKey]] ∧
      ([] :: constraintSteps {} ks).IsChain (· <+: ·) ∧
      Column.ofJson (Column.listing "a" "Int" ks) = .valid
        { name := "a", datatype := "Int", constraints := [.unique, .primaryKey, .foreignKey] } ∧
      ∃ (s : Schema) (d : Diagram), s.buildTraced.outcome = .ok d ∧
        d.tables.map (fun t => t.columns.map Column.constraints) = [[[.unique, .primaryKey]]] := by
  intro ks
  obtain ⟨hlists, -, hbuilt⟩ := constraints_of_steps
  obtain ⟨hcolumn, -, -, -, hchain⟩ := hlists ks
  let s : Schema := { models := [{
    name := "A"
    fields := [{
      name := "a", type := { name := "Int", kind := .scalar }
      attributes := [{ name := "unique" }, { name := "id" }, { name := "unique" }] }] }] }
  have hs : ∃ d, s.buildTraced.outcome = .ok d := ⟨_, rfl⟩
  obtain ⟨d, hd⟩ := hs
  exact ⟨by decide, hchain, (hcolumn "a" "Int").2, s, d, hd, hbuilt s d hd⟩

end Contribution
end SchemaDiagram
