import Mathlib.Data.List.Pairwise
import Mathlib.Tactic.SplitIfs
import SchemaDiagram.Diagram.Build

/-!
# What a field puts into a diagram

The attributes of a field are gone through one by one, and what they add up to is said here without
the walk. The edges are copies of one edge, one for each attribute that means a relation
(`Contribution.relations_ofField`). The constraints are those that some attribute puts on the
column, each where it is first put there (`Contribution.constraints_ofField`); so they are ordered
by the first attribute that puts them (`Contribution.pairwise_constraints_ofField`), and listing
each once, as a column does, changes nothing.

Everything else of a field is left aside. `Field.outline` is what a diagram takes from a field, and
fields of one outline have the same column and the same edges.
-/

namespace SchemaDiagram

/-! ## Adding what is new -/

section Lists

variable {α β : Type} [DecidableEq α]

/-- The list with one more element at its end, unless the element is there already. -/
def appendNew (as : List α) (a : α) : List α :=
  if a ∈ as then as else as ++ [a]

/-- **Adding elements one by one** lists each where it first occurs, behind what was there. -/
theorem foldl_appendNew (as acc : List α) :
    as.foldl appendNew acc = acc ++ (firstOccurrences as).filter (· ∉ acc) := by
  induction as generalizing acc with
  | nil => simp
  | cons a as ih =>
    rw [List.foldl_cons, ih, firstOccurrences_cons, appendNew]
    by_cases ha : a ∈ acc
    · -- what is taken from the tail on account of `a` is taken from it anyway
      have hfilter : ((firstOccurrences as).filter (· ≠ a)).filter (· ∉ acc) =
          (firstOccurrences as).filter (· ∉ acc) := by
        rw [List.filter_filter]
        refine List.filter_congr fun b _ => ?_
        by_cases hb : b = a
        · simp [hb, ha]
        · simp [hb]
      rw [if_pos ha, List.filter_cons_of_neg (by simp [ha]), hfilter]
    · have hfilter : (firstOccurrences as).filter (· ∉ acc ++ [a]) =
          ((firstOccurrences as).filter (· ≠ a)).filter (· ∉ acc) := by
        rw [List.filter_filter]
        exact List.filter_congr fun b _ => by simp
      rw [if_neg ha, List.filter_cons_of_pos (by simp [ha]), hfilter, List.append_assoc,
        List.singleton_append]

theorem foldl_appendNew_nil (as : List α) : as.foldl appendNew [] = firstOccurrences as := by
  rw [foldl_appendNew, List.nil_append]
  exact List.filter_eq_self.mpr (by simp)

/-- A list without repetition is its own list of first occurrences. -/
theorem firstOccurrences_eq_self {as : List α} (h : as.Nodup) : firstOccurrences as = as := by
  induction as with
  | nil => rfl
  | cons a as ih =>
    obtain ⟨ha, has⟩ := List.nodup_cons.mp h
    rw [firstOccurrences_cons, ih has, List.filter_eq_self.mpr]
    intro b hb
    simpa using ne_of_mem_of_not_mem hb ha

/-- **First occurrences are in order**: what comes first in the list of them occurs first. -/
theorem pairwise_firstOccurrences_filterMap (g : β → Option α) (bs : List β) :
    (firstOccurrences (bs.filterMap g)).Pairwise fun x y =>
      bs.findIdx (g · = some x) < bs.findIdx (g · = some y) := by
  induction bs with
  | nil => exact List.Pairwise.nil
  | cons b bs ih =>
    cases hg : g b with
    | none =>
      rw [List.filterMap_cons_none hg]
      exact ih.imp fun h => by simpa [List.findIdx_cons, hg] using h
    | some k =>
      rw [List.filterMap_cons_some hg, firstOccurrences_cons, List.pairwise_cons]
      have hne : ∀ x ∈ (firstOccurrences (bs.filterMap g)).filter (· ≠ k), k ≠ x := by
        intro x hx
        exact Ne.symm (by simpa using (List.mem_filter.mp hx).2)
      constructor
      · intro x hx
        simp [List.findIdx_cons, hg, hne x hx]
      · refine (ih.filter _).imp_of_mem fun {x y} hx hy h => ?_
        simpa [List.findIdx_cons, hg, hne x hx, hne y hy] using h

end Lists

/-! ## What an attribute means -/

/-- The names of the attributes that mean something to a diagram. -/
def Meaning.names : List String :=
  ["id", "unique", "relation"]

/-- The name of the attribute that puts the constraint on a column, if there is one. -/
def Constraint.attributeName? : Constraint → Option String
  | .primaryKey => some "id"
  | .unique => some "unique"
  | .foreignKey => none

/-- The constraint that the attribute puts on a column. -/
def Attribute.constraint? (a : Attribute) : Option Constraint :=
  match Meaning.ofName a.name with
  | .primaryKey => some .primaryKey
  | .unique => some .unique
  | .relation | .nothing => none

namespace Meaning

theorem ofName_eq_relation_iff {name : String} : ofName name = .relation ↔ name = "relation" := by
  unfold ofName
  split_ifs <;> simp_all

theorem ofName_eq_nothing {name : String} (h : name ∉ names) : ofName name = .nothing := by
  simp only [names, List.mem_cons, List.not_mem_nil, or_false, not_or] at h
  rw [ofName, if_neg h.1, if_neg h.2.1, if_neg h.2.2]

end Meaning

theorem Attribute.constraint?_eq_some_iff {a : Attribute} {k : Constraint} :
    a.constraint? = some k ↔ k.attributeName? = some a.name := by
  unfold constraint? Meaning.ofName
  cases k <;> split_ifs <;> grind [Constraint.attributeName?]

/-! ## The edges of a field -/

namespace Contribution

theorem relations_addConstraint (r : Contribution) (k : Constraint) :
    (r.addConstraint k).relations = r.relations := by
  rw [addConstraint]
  split <;> rfl

/-- One attribute draws an edge if it means a relation, and leaves the edges alone otherwise. -/
theorem relations_addAttribute (table target : String) (r : Contribution) (a : Attribute) :
    (addAttribute table target r a).relations = r.relations ++
      if Meaning.ofName a.name = .relation then [{ source := table, target }] else [] := by
  rw [addAttribute]
  cases Meaning.ofName a.name with
  | relation => rfl
  | primaryKey => exact (relations_addConstraint r .primaryKey).trans (List.append_nil _).symm
  | unique => exact (relations_addConstraint r .unique).trans (List.append_nil _).symm
  | nothing => exact (List.append_nil _).symm

theorem relations_foldl (table target : String) (as : List Attribute) (r : Contribution) :
    (as.foldl (addAttribute table target) r).relations = r.relations ++
      List.replicate (as.countP fun a => Meaning.ofName a.name = .relation)
        { source := table, target } := by
  induction as generalizing r with
  | nil => simp
  | cons a as ih =>
    rw [List.foldl_cons, ih, relations_addAttribute, List.countP_cons, List.append_assoc]
    by_cases ha : Meaning.ofName a.name = .relation
    · simp [ha, List.replicate_succ]
    · simp [ha]

/-- **The edges of a field** are all the same, and there is one for each attribute that means a
relation. -/
theorem relations_ofField (table : String) (f : Field) :
    (ofField table f).relations =
      List.replicate (f.attributes.countP fun a => Meaning.ofName a.name = .relation)
        { source := table, target := f.type.name } := by
  rw [ofField, relations_foldl]
  exact List.nil_append _

/-! ## The constraints of a field -/

theorem constraints_addConstraint (r : Contribution) (k : Constraint) :
    (r.addConstraint k).constraints = appendNew r.constraints k := by
  rw [addConstraint, appendNew]
  split <;> rfl

theorem constraints_addAttribute (table target : String) (r : Contribution) (a : Attribute) :
    (addAttribute table target r a).constraints =
      a.constraint?.toList.foldl appendNew r.constraints := by
  rw [addAttribute, Attribute.constraint?]
  cases Meaning.ofName a.name with
  | primaryKey => exact constraints_addConstraint r .primaryKey
  | unique => exact constraints_addConstraint r .unique
  | relation => rfl
  | nothing => rfl

theorem constraints_foldl (table target : String) (as : List Attribute) (r : Contribution) :
    (as.foldl (addAttribute table target) r).constraints =
      (as.filterMap Attribute.constraint?).foldl appendNew r.constraints := by
  induction as generalizing r with
  | nil => rfl
  | cons a as ih =>
    rw [List.foldl_cons, ih, constraints_addAttribute]
    cases ha : a.constraint? with
    | none => rw [List.filterMap_cons_none ha]; rfl
    | some k => rw [List.filterMap_cons_some ha]; rfl

/-- **The constraints of a field** are those that its attributes put on the column, each where it is
first put there. -/
theorem constraints_ofField (table : String) (f : Field) :
    (ofField table f).constraints =
      firstOccurrences (f.attributes.filterMap Attribute.constraint?) := by
  rw [ofField, constraints_foldl]
  exact foldl_appendNew_nil _

theorem mem_constraints_ofField {table : String} {f : Field} {k : Constraint} :
    k ∈ (ofField table f).constraints ↔ ∃ a ∈ f.attributes, k.attributeName? = some a.name := by
  rw [constraints_ofField, mem_firstOccurrences, List.mem_filterMap]
  simp only [Attribute.constraint?_eq_some_iff]

/-- The constraints of a field are ordered by the first attribute that puts them. -/
theorem pairwise_constraints_ofField (table : String) (f : Field) :
    (ofField table f).constraints.Pairwise fun k l =>
      f.attributes.findIdx (fun a => k.attributeName? = some a.name) <
        f.attributes.findIdx (fun a => l.attributeName? = some a.name) := by
  have h := pairwise_firstOccurrences_filterMap Attribute.constraint? f.attributes
  simp only [Attribute.constraint?_eq_some_iff] at h
  rwa [constraints_ofField]

/-- A column lists the constraints of its field as they are. -/
theorem constraints_column (table : String) (f : Field) :
    (Column.ofField table f).constraints = (ofField table f).constraints := by
  have hnodup : (ofField table f).constraints.Nodup := by
    rw [constraints_ofField]
    exact nodup_firstOccurrences _
  exact firstOccurrences_eq_self hnodup

end Contribution

/-! ## What a diagram takes from a field -/

/-- What a diagram takes from a field: its name, the name of its type, and in order the names of
those of its attributes that mean something. -/
structure Field.Outline where
  name : String
  type : String
  markers : List String
  deriving DecidableEq, Repr

/-- The outline of a field. -/
def Field.outline (f : Field) : Field.Outline :=
  { name := f.name, type := f.type.name
    markers := (f.attributes.map Attribute.name).filter (· ∈ Meaning.names) }

/-- An attribute that means nothing can be left out, and of the others only the name counts. -/
theorem Contribution.foldl_addAttribute_markers (table target : String) (as : List Attribute)
    (r : Contribution) :
    as.foldl (addAttribute table target) r =
      ((as.map Attribute.name).filter (· ∈ Meaning.names)).foldl
        (fun r n => addAttribute table target r { name := n }) r := by
  rw [List.foldl_filter, List.foldl_map]
  congr 1
  funext r a
  split
  · rfl
  · next hname => rw [addAttribute, Meaning.ofName_eq_nothing (by simpa using hname)]

theorem Contribution.ofField_congr (table : String) {f g : Field} (h : f.outline = g.outline) :
    ofField table f = ofField table g := by
  obtain ⟨-, htype, hmarkers⟩ := Field.Outline.mk.inj h
  rw [ofField, ofField, foldl_addAttribute_markers, foldl_addAttribute_markers, htype, hmarkers]

/-- Fields of one outline have the same column. -/
theorem Column.ofField_congr (table : String) {f g : Field} (h : f.outline = g.outline) :
    ofField table f = ofField table g := by
  have hcontribution := Contribution.ofField_congr table h
  obtain ⟨hname, htype, -⟩ := Field.Outline.mk.inj h
  rw [ofField, ofField, hcontribution, hname, htype]

end SchemaDiagram
