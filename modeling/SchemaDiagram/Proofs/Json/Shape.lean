import Mathlib.Data.List.Basic
import Mathlib.Tactic.SplitIfs
import SchemaDiagram.Diagram.Basic
import SchemaDiagram.Json.Check

/-!
# The shapes of JSON values

A shape says what is asked of a value: a leaf asks something of the value alone, a list asks its
items to have a shape, and a record asks members of given names to have shapes of their own, some of
which may be missing. `Shape.check` is the check of a value against any shape.

What is asked by a leaf is said by `Leaf.Fits`, without a check; a value that does not fit has one
fault. A value that is accepted is changed on the way: defaults are filled in, members that nobody
asks for are left out, and what stands for true or false becomes that. What comes of it is the
normal form of the value, which can be told from the value and the shape alone
(`Shape.normal_of_check_eq_valid`).
-/

namespace SchemaDiagram
namespace Json

/-! ## Shapes -/

/-- What is asked of a value on its own. -/
inductive Leaf where
  /-- A string. -/
  | string
  /-- A string that is not empty. -/
  | nonempty
  /-- A string, or null. -/
  | nullable
  /-- True or false, or what stands for them. -/
  | bool
  /-- One of the given words. -/
  | word (words : List String)

/-- A member of a record: its name, the value that is used where it is missing, unless it must not
be, and what is asked of it. -/
structure Member (σ : Type) where
  name : String
  default : Option Json
  shape : σ

/-- What is asked of a value. -/
inductive Shape where
  | leaf (leaf : Leaf)
  /-- An array of items. If they are to be distinct, strings that are repeated are listed once. -/
  | list (distinct : Bool) (item : Shape)
  | record (members : List (Member Shape))

/-- The names of the members of a record differ, here and in all parts of the shape. -/
inductive Shape.IsProper : Shape → Prop
  | leaf (l : Leaf) : IsProper (.leaf l)
  | list {distinct : Bool} {t : Shape} (h : IsProper t) : IsProper (.list distinct t)
  | record {ms : List (Member Shape)} (nodup : (ms.map Member.name).Nodup)
      (h : ∀ m ∈ ms, IsProper m.shape) : IsProper (.record ms)

/-! ## What fits a leaf -/

/-- The number that the value is read as where true or false is asked. It has to be whole, and to
fit into one word of a machine; `Check.bool` says why the bounds of decimals differ. -/
def wordNumber? : Json → Option Int
  | .integer n => if -Check.wordLimit ≤ n ∧ n < Check.wordLimit then some n else none
  | .decimal d => d.whole?.filter fun n => -Check.wordLimit < n ∧ n < Check.wordLimit
  | _ => none

/-- The value is what is asked. -/
inductive Leaf.Fits : Leaf → Json → Prop
  | string (s : String) : Fits .string (.string s)
  | nonempty {s : String} (h : s ≠ "") : Fits .nonempty (.string s)
  | null : Fits .nullable .null
  | nullable (s : String) : Fits .nullable (.string s)
  | bool (b : Bool) : Fits .bool (.bool b)
  | number {v : Json} {n : Int} (hv : v.wordNumber? = some n) (hn : n = 1 ∨ n = 0) : Fits .bool v
  | truthWord {s : String}
      (h : s.map Char.toLower ∈ Check.yesWords ∨ s.map Char.toLower ∈ Check.noWords) :
      Fits .bool (.string s)
  | word {words : List String} {s : String} (h : s ∈ words) : Fits (.word words) (.string s)

/-- What is wrong with a value that is not what is asked. -/
def Leaf.fault : Leaf → Json → Fault
  | .string, _ => .notAString
  | .nonempty, .string _ => .tooShort
  | .nonempty, _ => .notAString
  | .nullable, _ => .notAString
  | .bool, .string _ => .unclearBool
  | .bool, v => if v.wordNumber?.isSome then .unclearBool else .notABool
  | .word _, _ => .notListed

/-! ## Normal forms -/

/-- What a value stands for where true or false is asked. -/
def truth : Json → Bool
  | .bool b => b
  | .string s => s.map Char.toLower ∈ Check.yesWords
  | v => v.wordNumber? == some 1

/-- What a value that is what is asked is written as. -/
def Leaf.normal : Leaf → Json → Json
  | .bool, v => .bool v.truth
  | _, v => v

/-- The string that the value is, if it is one. -/
def string? : Json → Option String
  | .string s => some s
  | _ => none

/-- The strings among the values, each where it first occurs. -/
def distinctStrings (vs : List Json) : List Json :=
  (firstOccurrences (vs.filterMap string?)).map .string

mutual

/-- A value in its normal form: with the members that the shape names and no others, in its order
and with the defaults of those that are missing, with true and false for what stands for them, and
without the repetitions in a list of distinct strings. -/
def Shape.normal : Shape → Json → Json
  | .leaf l => l.normal
  | .list distinct t => fun v => match v with
    | .array vs =>
      .array (if distinct then distinctStrings (vs.map t.normal) else vs.map t.normal)
    | v => v
  | .record ms => fun v => match v with
    | .object given => .object (Shape.normalMembers ms given)
    | v => v

/-- The members that a record names, in their normal forms. -/
def Shape.normalMembers : List (Member Shape) → List (String × Json) → List (String × Json)
  | [], _ => []
  | ⟨name, default, t⟩ :: ms, given =>
    (name, match given.lookup name with
      | some v => t.normal v
      | none => default.getD .null) :: Shape.normalMembers ms given

end

/-! ## Checking against a shape -/

/-- Checks a value on its own. -/
def Leaf.check : Leaf → Json → Checked Json
  | .string, v => .string <$> Check.string v
  | .nonempty, v => (fun s => .string s.1) <$> Check.nonempty v
  | .nullable, v => .ofOption <$> Check.nullable Check.string v
  | .bool, v => .bool <$> Check.bool v
  | .word words, v => .string <$> Check.listed (fun s => if s ∈ words then some s else none) v

/-- Checks a member whose value is checked as given. -/
def Check.member (name : String) (default : Option Json) (check : Json → Checked Json)
    (given : List (String × Json)) : Checked Json :=
  match default with
  | none => Check.required given name check
  | some d => Check.optional given name d check

mutual

/-- Checks a value against a shape, and puts it in order. -/
def Shape.check : Shape → Json → Checked Json
  | .leaf l => l.check
  | .list distinct t => fun v =>
    (fun ws => .array (if distinct then distinctStrings ws else ws)) <$> Check.list t.check v
  | .record ms => Check.object fun given => .object <$> Shape.checkMembers ms given

/-- Checks the members of an object, and puts them in order. -/
def Shape.checkMembers :
    List (Member Shape) → List (String × Json) → Checked (List (String × Json))
  | [], _ => .valid []
  | ⟨name, default, t⟩ :: ms, given =>
    (fun w ws => (name, w) :: ws) <$> Check.member name default t.check given
      <*> Shape.checkMembers ms given

end

/-! ## The check of a leaf -/

theorem Check.bool_of_wordNumber? {v : Json} {n : Int} (h : v.wordNumber? = some n) :
    Check.bool v = Check.boolOfWhole n := by
  cases v with
  | integer m =>
    simp only [wordNumber?, Option.ite_none_right_eq_some, Option.some_inj] at h
    obtain ⟨hm, rfl⟩ := h
    exact if_pos hm
  | decimal d =>
    obtain ⟨hd, hn⟩ := Option.filter_eq_some_iff.mp h
    simp only [Check.bool, hd]
    exact if_pos (of_decide_eq_true hn)
  | _ => simp [wordNumber?] at h

theorem Check.bool_of_wordNumber?_eq_none {v : Json} (h : v.wordNumber? = none)
    (hbool : ∀ b, v ≠ .bool b) (hstring : ∀ s, v ≠ .string s) :
    Check.bool v = .fault .notABool := by
  cases v with
  | bool b => exact absurd rfl (hbool b)
  | string s => exact absurd rfl (hstring s)
  | integer n => exact if_neg fun hn => by simp [wordNumber?, hn] at h
  | decimal d =>
    cases hd : d.whole? with
    | none => simp [Check.bool, hd]
    | some n =>
      simp only [Check.bool, hd]
      exact if_neg fun hn => by simp [wordNumber?, hd, Option.filter, hn] at h
  | null => rfl
  | array vs => rfl
  | object ms => rfl

theorem truth_of_wordNumber? {v : Json} {n : Int} (h : v.wordNumber? = some n) :
    v.truth = (n == 1) := by
  have htruth : v.truth = (v.wordNumber? == some 1) := by
    cases v with
    | bool b => simp [wordNumber?] at h
    | string s => simp [wordNumber?] at h
    | _ => rfl
  rw [htruth, h]
  rfl

namespace Leaf

variable {l : Leaf} {v : Json}

theorem check_of_fits (h : l.Fits v) : l.check v = .valid (l.normal v) := by
  cases h with
  | string s => rfl
  | nonempty h =>
    rw [check, Check.nonempty, dif_neg h]
    rfl
  | null => rfl
  | nullable s => rfl
  | bool b => rfl
  | number hv hn =>
    rw [check, normal, Check.bool_of_wordNumber? hv, truth_of_wordNumber? hv]
    rcases hn with rfl | rfl <;> rfl
  | truthWord h =>
    rw [check, normal, truth, Check.bool]
    simp only [List.contains_iff_mem]
    split_ifs with hyes hno
    · rw [decide_eq_true hyes]
      rfl
    · rw [decide_eq_false hyes]
      rfl
    · exact absurd h (not_or.mpr ⟨hyes, hno⟩)
  | word h =>
    simp only [check, Check.listed, if_pos h]
    rfl

theorem issues_check_of_not_fits (h : ¬ l.Fits v) : (l.check v).issues = [⟨[], l.fault v⟩] := by
  cases l with
  | string =>
    cases v with
    | string s => exact absurd (.string s) h
    | _ => rfl
  | nonempty =>
    cases v with
    | string s =>
      have hs : s = "" := Decidable.not_not.mp fun hs => h (.nonempty hs)
      simp [check, Check.nonempty, hs, fault]
    | _ => rfl
  | nullable =>
    cases v with
    | null => exact absurd .null h
    | string s => exact absurd (.nullable s) h
    | _ => rfl
  | bool =>
    rw [check, Checked.issues_map]
    cases hv : v.wordNumber? with
    | some n =>
      have hn : ¬ n = 1 ∧ ¬ n = 0 := not_or.mp fun hn => h (.number hv hn)
      have hfault : fault .bool v = .unclearBool := by
        unfold fault
        split <;> simp_all
      rw [Check.bool_of_wordNumber? hv, Check.boolOfWhole, if_neg hn.1, if_neg hn.2, hfault]
      rfl
    | none =>
      cases v with
      | bool b => exact absurd (.bool b) h
      | string s =>
        have hs := not_or.mp fun hs => h (.truthWord hs)
        simp [Check.bool, hs, fault]
      | _ =>
        rw [Check.bool_of_wordNumber?_eq_none hv (by simp) (by simp)]
        simp [fault, hv]
  | word words =>
    cases v with
    | string s =>
      have hs : s ∉ words := fun hs => h (.word hs)
      simp [check, Check.listed, hs, fault]
    | _ => rfl

end Leaf

/-! ## What is accepted -/

theorem Leaf.normal_of_check_eq_valid {l : Leaf} {v w : Json} (h : l.check v = .valid w) :
    l.normal v = w := by
  by_cases hv : l.Fits v
  · exact Checked.valid.inj ((check_of_fits hv).symm.trans h)
  · have hissues := issues_check_of_not_fits hv
    rw [h] at hissues
    nomatch hissues

theorem Check.map_of_items_eq_valid {α : Type} {check : Json → Checked α} {f : Json → α}
    (h : ∀ v a, check v = .valid a → f v = a) {k : Nat} {vs : List Json} {as : List α}
    (has : Check.items check k vs = .valid as) : vs.map f = as := by
  induction vs generalizing k as with
  | nil => exact Checked.valid.inj has
  | cons v vs ih =>
    obtain ⟨_, rest, hcons, hrest, rfl⟩ := Checked.seq_eq_valid_iff.mp has
    obtain ⟨a, ha, rfl⟩ := Checked.map_eq_valid_iff.mp hcons
    rw [List.map_cons, h v a (Checked.under_eq_valid_iff.mp ha), ih hrest]

/-- What is accepted for a member is put into its normal form, and so is what is missing. -/
theorem Check.normal_of_member_eq_valid {check : Json → Checked Json} {f : Json → Json}
    (h : ∀ v w, check v = .valid w → f v = w) {name : String} {default : Option Json}
    {given : List (String × Json)} {w : Json}
    (hw : Check.member name default check given = .valid w) :
    (match given.lookup name with
      | some v => f v
      | none => default.getD .null) = w := by
  cases default with
  | none =>
    rw [Check.member, Check.required] at hw
    cases hlookup : given.lookup name with
    | none =>
      rw [hlookup] at hw
      nomatch hw
    | some v =>
      rw [hlookup] at hw
      exact h v w (Checked.under_eq_valid_iff.mp hw)
  | some d =>
    rw [Check.member, Check.optional] at hw
    cases hlookup : given.lookup name with
    | none =>
      rw [hlookup] at hw
      exact Checked.valid.inj hw
    | some v =>
      rw [hlookup] at hw
      exact h v w (Checked.under_eq_valid_iff.mp hw)

mutual

/-- **What is accepted** is put into its normal form. -/
theorem Shape.normal_of_check_eq_valid :
    ∀ (t : Shape) {v w : Json}, t.check v = .valid w → t.normal v = w
  | .leaf l, v, w, h => Leaf.normal_of_check_eq_valid h
  | .list distinct t, v, w, h => by
    obtain ⟨ws, hws, rfl⟩ := Checked.map_eq_valid_iff.mp h
    cases v with
    | array vs =>
      simp only [normal, Check.map_of_items_eq_valid (fun _ _ => t.normal_of_check_eq_valid) hws]
    | _ => nomatch hws
  | .record ms, v, w, h => by
    cases v with
    | object given =>
      obtain ⟨ws, hws, rfl⟩ := Checked.map_eq_valid_iff.mp h
      exact congrArg Json.object (normalMembers_of_checkMembers_eq_valid ms hws)
    | _ => nomatch h

theorem Shape.normalMembers_of_checkMembers_eq_valid :
    ∀ (ms : List (Member Shape)) {given ws : List (String × Json)},
      checkMembers ms given = .valid ws → normalMembers ms given = ws
  | [], given, ws, h => Checked.valid.inj h
  | ⟨name, default, t⟩ :: ms, given, ws, h => by
    obtain ⟨_, rest, hcons, hrest, rfl⟩ := Checked.seq_eq_valid_iff.mp h
    obtain ⟨w, hw, rfl⟩ := Checked.map_eq_valid_iff.mp hcons
    rw [normalMembers, normalMembers_of_checkMembers_eq_valid ms hrest,
      Check.normal_of_member_eq_valid (fun _ _ => t.normal_of_check_eq_valid) hw]

end

end Json
end SchemaDiagram
