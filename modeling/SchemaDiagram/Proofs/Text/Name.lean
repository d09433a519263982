import Mathlib.Data.List.TakeWhile
import SchemaDiagram.Proofs.Text.Strip
import SchemaDiagram.Text.Word

/-!
# Names in a text

`readName` takes the longest name off the front of a text, and `readName_eq_some_iff` says so: what
it takes is a name, and what follows does not go on with a word character. So a name is read back
whenever the character after it can be told apart from those inside it. Blanks and line ends are
such characters, which is the one fact about the tables of Unicode that is needed, and the
punctuation of a schema is as well.
-/

namespace SchemaDiagram
namespace Text

/-! ## Word characters are no blanks -/

/-- The ranges of the word characters below U+0080. -/
def asciiWordRanges : List (Nat × Nat) :=
  [(0x30, 0x39), (0x41, 0x5A), (0x5F, 0x5F), (0x61, 0x7A)]

/-- Whether no code point lies in a range of both lists. -/
def AreDisjoint (rs qs : List (Nat × Nat)) : Prop :=
  ∀ r ∈ rs, ∀ q ∈ qs, r.2 < q.1 ∨ q.2 < r.1

instance (rs qs : List (Nat × Nat)) : Decidable (AreDisjoint rs qs) :=
  inferInstanceAs (Decidable (∀ r ∈ rs, ∀ q ∈ qs, r.2 < q.1 ∨ q.2 < r.1))

theorem inRanges_eq_true_iff {rs : List (Nat × Nat)} {c : Char} :
    inRanges rs c = true ↔ ∃ r ∈ rs, r.1 ≤ c.toNat ∧ c.toNat ≤ r.2 := by
  simp [inRanges]

theorem inRanges_eq_false_of_areDisjoint {rs qs : List (Nat × Nat)} {c : Char}
    (h : AreDisjoint rs qs) (hc : inRanges rs c = true) : inRanges qs c = false := by
  rw [Bool.eq_false_iff]
  intro hq
  obtain ⟨r, hr, hr1, hr2⟩ := inRanges_eq_true_iff.mp hc
  obtain ⟨q, hq, hq1, hq2⟩ := inRanges_eq_true_iff.mp hq
  have := h r hr q hq
  omega

theorem areDisjoint_blank_ascii : AreDisjoint asciiWordRanges blankRanges := by
  decide

set_option maxRecDepth 8000 in
theorem areDisjoint_blank_word : AreDisjoint wordRanges blankRanges := by
  decide +kernel

theorem toNat_of_isUpper {c : Char} (h : c.isUpper = true) : 65 ≤ c.toNat ∧ c.toNat ≤ 90 :=
  of_decide_eq_true h

theorem toNat_of_isLower {c : Char} (h : c.isLower = true) : 97 ≤ c.toNat ∧ c.toNat ≤ 122 := by
  obtain ⟨hle, hge⟩ := Bool.and_eq_true_iff.mp h
  exact ⟨of_decide_eq_true hle, of_decide_eq_true hge⟩

theorem inRanges_ascii_of_isAlphanum {c : Char} (h : (c.isAlphanum || c == '_') = true) :
    inRanges asciiWordRanges c = true := by
  have hcases : ((c.isUpper = true ∨ c.isLower = true) ∨ c.isDigit = true) ∨ c = '_' := by
    rcases Bool.or_eq_true_iff.mp h with h | h
    · exact Or.inl ((Bool.or_eq_true_iff.mp h).imp_left Bool.or_eq_true_iff.mp)
    · exact Or.inr (eq_of_beq h)
  simp only [inRanges_cons, inRanges_nil, asciiWordRanges, Bool.or_eq_true, Bool.and_eq_true,
    decide_eq_true_eq, Bool.or_false]
  rcases hcases with ((hupper | hlower) | hdigit) | rfl
  · have := toNat_of_isUpper hupper
    omega
  · have := toNat_of_isLower hlower
    omega
  · have hdigit : 48 ≤ c.toNat ∧ c.toNat ≤ 57 := Char.isDigit_iff_toNat.mp hdigit
    omega
  · simp

/-- No word character is blank. -/
theorem isBlank_eq_false_of_isWord {c : Char} (h : isWord c = true) : isBlank c = false := by
  rw [isWord, Bool.or_eq_true, Bool.and_eq_true] at h
  rcases h with h | ⟨-, h⟩
  · exact inRanges_eq_false_of_areDisjoint areDisjoint_blank_ascii
      (inRanges_ascii_of_isAlphanum h)
  · exact inRanges_eq_false_of_areDisjoint areDisjoint_blank_word h

theorem isWord_eq_false_of_isBlank {c : Char} (h : isBlank c = true) : isWord c = false := by
  by_contra hc
  rw [Bool.not_eq_false] at hc
  rw [isBlank_eq_false_of_isWord hc] at h
  exact Bool.false_ne_true h

theorem isWord_of_isNameStart {c : Char} (h : isNameStart c = true) : isWord c = true := by
  rw [isNameStart, Bool.or_eq_true] at h
  rw [isWord, Char.isAlphanum, Bool.or_eq_true, Bool.or_eq_true, Bool.or_eq_true]
  rcases h with h | h
  · exact Or.inl (Or.inl (Or.inl h))
  · exact Or.inl (Or.inr h)

/-! ## Reading a name -/

/-- Whether a name that stands in front of the text ends there. -/
def EndsName (rest : List Char) : Prop :=
  ∀ c ∈ rest.head?, isWord c = false

theorem endsName_nil : EndsName [] := by
  simp [EndsName]

theorem endsName_cons {c : Char} {rest : List Char} :
    EndsName (c :: rest) ↔ isWord c = false := by
  simp [EndsName]

theorem endsName_append {rest s : List Char} (hrest : EndsName rest) (hs : EndsName s) :
    EndsName (rest ++ s) := by
  cases rest with
  | nil => exact hs
  | cons c rest => exact endsName_cons.mpr (endsName_cons.mp hrest)

/-- A name ends where a gap follows. -/
theorem endsName_of_isGap {gap : List Char} (hgap : IsGap gap) : EndsName gap :=
  fun c hc => isWord_eq_false_of_isBlank (hgap c (List.mem_of_mem_head? hc))

theorem endsName_gap_append {gap : List Char} (hne : gap ≠ []) (hgap : IsGap gap)
    (s : List Char) : EndsName (gap ++ s) := by
  rw [EndsName, List.head?_append_of_ne_nil _ hne]
  exact endsName_of_isGap hgap

theorem isName_cons {c : Char} {s : List Char} :
    isName (c :: s) = true ↔ isNameStart c = true ∧ ∀ d ∈ s, isWord d = true := by
  simp [isName]

theorem isWord_of_mem_isName {s : List Char} (hs : isName s = true) {c : Char} (hc : c ∈ s) :
    isWord c = true := by
  cases s with
  | nil => simp at hc
  | cons d s =>
    obtain ⟨hd, hall⟩ := isName_cons.mp hs
    rcases List.mem_cons.mp hc with rfl | hc
    · exact isWord_of_isNameStart hd
    · exact hall c hc

theorem ne_nil_of_isName {s : List Char} (hs : isName s = true) : s ≠ [] := by
  rintro rfl
  simp [isName] at hs

/-- **What `readName` takes.** It takes a name off the front of the text, and the longest one. -/
theorem readName_eq_some_iff {s name rest : List Char} :
    readName s = some (name, rest) ↔ s = name ++ rest ∧ isName name = true ∧ EndsName rest := by
  constructor
  · intro h
    refine ⟨(append_of_readName h).symm, isName_of_readName h, ?_⟩
    cases s with
    | nil => simp at h
    | cons c s =>
      rw [readName_cons] at h
      split at h
      · obtain ⟨-, rfl⟩ := Prod.mk.inj (Option.some.inj h)
        intro d hd
        have hnot := List.head?_dropWhile_not isWord s
        rw [Option.mem_def.mp hd] at hnot
        simpa using hnot
      · simp at h
  · rintro ⟨rfl, hname, hrest⟩
    cases name with
    | nil => simp [isName] at hname
    | cons c name =>
      obtain ⟨hc, hall⟩ := isName_cons.mp hname
      have htake : rest.takeWhile isWord = [] := by
        cases rest with
        | nil => rfl
        | cons d rest => rw [List.takeWhile_cons_of_neg (by simp [endsName_cons.mp hrest])]
      have hdrop : rest.dropWhile isWord = rest := by
        cases rest with
        | nil => rfl
        | cons d rest => rw [List.dropWhile_cons_of_neg (by simp [endsName_cons.mp hrest])]
      rw [List.cons_append, readName_cons, if_pos hc, List.takeWhile_append_of_pos hall,
        List.dropWhile_append_of_pos hall, htake, hdrop, List.append_nil]

/-- A name in front of a text is told from what it stands in front of. -/
theorem eq_of_name_append {n m r s : List Char} (hn : isName n = true) (hm : isName m = true)
    (hr : EndsName r) (hs : EndsName s) (h : n ++ r = m ++ s) : n = m ∧ r = s := by
  have hread := readName_eq_some_iff.mpr ⟨rfl, hn, hr⟩
  rw [h, readName_eq_some_iff.mpr ⟨rfl, hm, hs⟩] at hread
  obtain ⟨rfl, rfl⟩ := Prod.mk.inj (Option.some.inj hread)
  exact ⟨rfl, rfl⟩

/-- A text has no name in front exactly when it is empty or starts with another character. -/
theorem readName_eq_none_iff {s : List Char} :
    readName s = none ↔ ∀ c ∈ s.head?, isNameStart c = false := by
  cases s with
  | nil => simp
  | cons c s =>
    rw [readName_cons]
    cases hc : isNameStart c <;> simp [hc]

/-- Where no name starts, none starts if a text follows that does not go on with one. -/
theorem readName_append_eq_none {rest s : List Char} (h : readName rest = none)
    (hs : EndsName s) : readName (rest ++ s) = none := by
  rw [readName_eq_none_iff] at h ⊢
  cases rest with
  | nil =>
    intro c hc
    by_contra hstart
    rw [Bool.not_eq_false] at hstart
    have hword : isWord c = false := hs c hc
    rw [isWord_of_isNameStart hstart] at hword
    exact absurd hword (by decide)
  | cons c rest => exact h

/-- A name is stripped. -/
theorem isStripped_of_isName {s : List Char} (hs : isName s = true) : IsStripped s := by
  constructor
  · intro c hc
    exact isBlank_eq_false_of_isWord (isWord_of_mem_isName hs (List.mem_of_mem_head? hc))
  · intro c hc
    exact isBlank_eq_false_of_isWord (isWord_of_mem_isName hs (List.mem_of_mem_getLast? hc))

/-- No blank stands in front of a name. -/
theorem head?_name_append {s : List Char} (hs : isName s = true) (rest : List Char) :
    ∀ c ∈ (s ++ rest).head?, isBlank c = false := by
  rw [List.head?_append_of_ne_nil _ (ne_nil_of_isName hs)]
  exact (isStripped_of_isName hs).1

end Text
end SchemaDiagram
