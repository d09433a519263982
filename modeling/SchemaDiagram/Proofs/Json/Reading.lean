import Mathlib.Control.Basic
import SchemaDiagram.Proofs.Contribution
import SchemaDiagram.Proofs.Json.Site

/-!
# Reading a value back

A check of the library belongs to a shape, and to a way of writing down what it gives
(`Reads`): it accepts and refuses what the shape does, and with the same issues; what it gives is
written as the normal form of what it was given; and what is written is read back. The checks for
strings, lists and the like have this property, and from them it passes to the checks of records,
member by member.

So everything that is known about sites holds of a check that has it.
-/

namespace SchemaDiagram
namespace Json

theorem Checked.seq_valid {α β : Type} (f : Checked (α → β)) (a : α) :
    f <*> .valid a = (fun g => g a) <$> f :=
  seq_pure f a

/-- What is told apart after a change occurs first where it did before. -/
theorem map_firstOccurrences {α β : Type} [DecidableEq α] [DecidableEq β] {f : α → β}
    (hf : Function.Injective f) (as : List α) :
    (firstOccurrences as).map f = firstOccurrences (as.map f) := by
  induction as with
  | nil => rfl
  | cons a as ih =>
    have hne : ∀ b, decide (f b ≠ f a) = decide (b ≠ a) := fun b => by simp [hf.eq_iff]
    simp only [firstOccurrences_cons, List.map_cons, ← ih, List.filter_map, Function.comp_def, hne]

variable {α : Type} {check : Json → Checked α} {write : α → Json} {t : Shape}

/-- The check is one against the shape, and what it gives is written as the shape asks. -/
structure Reads (check : Json → Checked α) (write : α → Json) (t : Shape) : Prop where
  proper : t.IsProper
  map_write : ∀ v, write <$> check v = t.check v
  check_write : ∀ a, check (write a) = .valid a

namespace Reads

/-! ## Leaves and lists -/

theorem string : Reads Check.string .string (.leaf .string) :=
  ⟨.leaf _, fun _ => rfl, fun _ => rfl⟩

theorem nonempty : Reads Check.nonempty (fun s => .string s.1) (.leaf .nonempty) :=
  ⟨.leaf _, fun _ => rfl, fun s => dif_neg s.2⟩

theorem nullable : Reads (Check.nullable Check.string) .ofOption (.leaf .nullable) :=
  ⟨.leaf _, fun _ => rfl, fun s => by cases s <;> rfl⟩

theorem bool : Reads Check.bool .bool (.leaf .bool) :=
  ⟨.leaf _, fun _ => rfl, fun _ => rfl⟩

/-- Values that have words of their own are read by their words. -/
theorem listed {all : List α} {word : α → String}
    (h : ∀ a, (all.find? fun b => word b == word a) = some a) :
    Reads (Check.listed fun s => all.find? fun a => word a == s) (fun a => .string (word a))
      (.leaf (.word (all.map word))) where
  proper := .leaf _
  map_write v := by
    cases v with
    | string s =>
      simp only [Shape.check, Leaf.check, Check.listed]
      by_cases hs : ∃ a ∈ all, word a = s
      · obtain ⟨a, ha, rfl⟩ := hs
        rw [if_pos (List.mem_map_of_mem ha), h a]
        rfl
      · have hnone : (all.find? fun a => word a == s) = none := by
          rw [List.find?_eq_none]
          intro a ha heq
          exact hs ⟨a, ha, eq_of_beq heq⟩
        rw [if_neg (by rwa [List.mem_map]), hnone]
        rfl
    | _ => rfl
  check_write a := by
    simp only [Check.listed, h a]

theorem map_items (h : ∀ v, write <$> check v = t.check v) (k : Nat) (vs : List Json) :
    List.map write <$> Check.items check k vs = Check.items t.check k vs := by
  induction vs generalizing k with
  | nil => rfl
  | cons v vs ih =>
    have hunder : write <$> (check v).under (.item k) = (t.check v).under (.item k) := by
      rw [← h v]
      cases check v <;> rfl
    simp only [Check.items, ← hunder, ← ih, functor_norm, Function.comp_def, List.map_cons]

theorem list (h : Reads check write t) :
    Reads (Check.list check) (fun as => .array (as.map write)) (.list false t) where
  proper := .list h.proper
  map_write v := by
    cases v with
    | array vs =>
      simp only [Shape.check, Check.list, ← map_items h.map_write, functor_norm]
      rfl
    | _ => rfl
  check_write as := by
    have hitems : ∀ k, Check.items check k (as.map write) = .valid as := by
      induction as with
      | nil => exact fun _ => rfl
      | cons a as ih =>
        intro k
        rw [List.map_cons, Check.items, h.check_write, ih]
        rfl
    exact hitems 0

/-- Words that are written without repetition are read without it. -/
theorem map_distinct [DecidableEq α] {word : α → String} (hword : Function.Injective word)
    (h : Reads check (fun a => .string (word a)) t) (v : Json) :
    (fun as => Json.array ((firstOccurrences as).map fun a => .string (word a))) <$>
      Check.list check v = (Shape.list true t).check v := by
  have hdistinct : ∀ as : List α, distinctStrings (as.map fun a => .string (word a)) =
      (firstOccurrences as).map fun a => .string (word a) := by
    intro as
    have hstrings : (as.map fun a => Json.string (word a)).filterMap string? = as.map word := by
      rw [List.filterMap_map]
      exact congrFun List.filterMap_eq_map' as
    rw [distinctStrings, hstrings, ← map_firstOccurrences hword, List.map_map]
    rfl
  cases v with
  | array vs =>
    simp only [Shape.check, Check.list, ← map_items h.map_write, functor_norm, if_true, hdistinct]
  | _ => rfl

/-! ## Members and records -/

theorem member_required (h : ∀ v, write <$> check v = t.check v) (given : List (String × Json))
    (name : String) :
    Check.member name none t.check given = write <$> Check.required given name check := by
  simp only [Check.member, Check.required]
  cases given.lookup name with
  | none => rfl
  | some v =>
    simp only [← h v]
    cases check v <;> rfl

theorem member_optional (h : ∀ v, write <$> check v = t.check v) (given : List (String × Json))
    (name : String) (default : α) : Check.member name (some (write default)) t.check given =
      write <$> Check.optional given name default check := by
  simp only [Check.member, Check.optional]
  cases given.lookup name with
  | none => rfl
  | some v =>
    simp only [← h v]
    cases check v <;> rfl

theorem required (h : Reads check write t) (given : List (String × Json)) (name : String) :
    Check.member name none t.check given = write <$> Check.required given name check :=
  member_required h.map_write given name

theorem required_write (h : Reads check write t) {given : List (String × Json)} {name : String}
    {a : α} (hlookup : given.lookup name = some (write a)) :
    Check.required given name check = .valid a := by
  rw [Check.required, hlookup]
  exact Checked.under_eq_valid_iff.mpr (h.check_write a)

theorem optional_write (h : Reads check write t) {given : List (String × Json)} {name : String}
    {a default : α} (hlookup : given.lookup name = some (write a)) :
    Check.optional given name default check = .valid a := by
  rw [Check.optional, hlookup]
  exact Checked.under_eq_valid_iff.mpr (h.check_write a)

theorem optional_null (given : List (String × Json)) (name : String) :
    Check.member name (some .null) (Shape.leaf .nullable).check given =
      Json.ofOption <$> Check.optional given name none (Check.nullable Check.string) :=
  member_optional nullable.map_write given name none

theorem optional_false (given : List (String × Json)) (name : String) :
    Check.member name (some (.bool false)) (Shape.leaf .bool).check given =
      Json.bool <$> Check.optional given name false Check.bool :=
  member_optional bool.map_write given name false

theorem optional_list (h : Reads check write t) (given : List (String × Json)) (name : String) :
    Check.member name (some (.array [])) (Shape.list false t).check given =
      (fun as => Json.array (as.map write)) <$>
        Check.optional given name [] (Check.list check) :=
  member_optional h.list.map_write given name []

/-- A record is read if its members are. -/
theorem record {ms : List (Member Shape)} {read : List (String × Json) → Checked α}
    {members : α → List (String × Json)} (proper : (Shape.record ms).IsProper)
    (hread : ∀ given, members <$> read given = Shape.checkMembers ms given)
    (hmembers : ∀ a, read (members a) = .valid a) :
    Reads (Check.object read) (fun a => .object (members a)) (.record ms) where
  proper := proper
  map_write v := by
    cases v with
    | object given =>
      simp only [Shape.check, Check.object, ← hread given, functor_norm]
    | _ => rfl
  check_write := hmembers

/-! ## What is known of a check -/

/-- What is wrong with a value is what is wrong at the site where it stands. -/
theorem issues_eq (h : Reads check write t) (v : Json) :
    (check v).issues = Site.issues ⟨t, some v⟩ := by
  rw [Site.issues, ← h.map_write, Checked.issues_map]

/-- What is accepted is written in its normal form. -/
theorem write_eq_normal (h : Reads check write t) {v : Json} {a : α} (ha : check v = .valid a) :
    write a = t.normal v :=
  (t.normal_of_check_eq_valid (by rw [← h.map_write, ha]; rfl)).symm

end Reads

end Json
end SchemaDiagram
