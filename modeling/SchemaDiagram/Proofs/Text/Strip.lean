import Mathlib.Data.List.DropRight
import SchemaDiagram.Text.Blank

/-!
# Cutting blanks off a text

`strip` takes a text apart into a gap, a text without blanks at its ends, and another gap, and the
three are determined by the text: `exists_gaps_of_strip` is the one direction and
`strip_gap_append_gap` the other. Nothing else about the two traversals behind `strip` is used
later.
-/

namespace SchemaDiagram
namespace Text

/-- A text that consists of blanks. -/
def IsGap (s : List Char) : Prop :=
  ∀ c ∈ s, isBlank c = true

/-- A text with no blank at either end. -/
def IsStripped (s : List Char) : Prop :=
  (∀ c ∈ s.head?, isBlank c = false) ∧ ∀ c ∈ s.getLast?, isBlank c = false

theorem isGap_nil : IsGap [] := by
  intro c hc
  simp at hc

theorem isGap_cons {c : Char} {s : List Char} : IsGap (c :: s) ↔ isBlank c = true ∧ IsGap s := by
  simp [IsGap]

/-- The gap that is written between two words. -/
theorem isGap_space : IsGap [' '] :=
  isGap_cons.mpr ⟨by decide, isGap_nil⟩

theorem isStripped_nil : IsStripped [] := by
  simp [IsStripped]

/-- The first and the last character decide whether a text is stripped. -/
theorem IsStripped.of_ends {s : List Char} {c d : Char} (hc : isBlank c = false)
    (hd : isBlank d = false) (hhead : s.head? = some c) (hlast : s.getLast? = some d) :
    IsStripped s := by
  constructor
  · intro x hx
    rw [hhead, Option.mem_some_iff] at hx
    rw [← hx]
    exact hc
  · intro x hx
    rw [hlast, Option.mem_some_iff] at hx
    rw [← hx]
    exact hd

/-! ## The start -/

theorem stripStart_gap_append {a s : List Char} (ha : IsGap a) :
    stripStart (a ++ s) = stripStart s :=
  List.dropWhile_append_of_pos ha

theorem stripStart_eq_nil {a : List Char} (ha : IsGap a) : stripStart a = [] :=
  List.dropWhile_eq_nil_iff.mpr ha

theorem stripStart_eq_self {s : List Char} (h : ∀ c ∈ s.head?, isBlank c = false) :
    stripStart s = s := by
  cases s with
  | nil => rfl
  | cons c s =>
    rw [stripStart_cons, if_neg]
    rw [h c rfl]
    exact Bool.false_ne_true

theorem head?_stripStart (s : List Char) : ∀ c ∈ (stripStart s).head?, isBlank c = false := by
  intro c hc
  obtain ⟨r, hr⟩ := List.head?_eq_some_iff.mp hc
  exact isBlank_eq_false_of_stripStart hr

/-- Stripping the start takes a gap off. -/
theorem exists_gap_of_stripStart (s : List Char) : ∃ a, IsGap a ∧ s = a ++ stripStart s :=
  ⟨s.takeWhile isBlank, fun _ hc => List.mem_takeWhile_imp hc,
    List.takeWhile_append_dropWhile.symm⟩

/-- What is left after stripping the start stands behind a gap. -/
theorem stripStart_eq_cons_iff {s r : List Char} {c : Char} :
    stripStart s = c :: r ↔ ∃ a, IsGap a ∧ isBlank c = false ∧ s = a ++ c :: r := by
  constructor
  · intro h
    obtain ⟨a, ha, hs⟩ := exists_gap_of_stripStart s
    rw [h] at hs
    exact ⟨a, ha, isBlank_eq_false_of_stripStart h, hs⟩
  · rintro ⟨a, ha, hc, rfl⟩
    rw [stripStart_gap_append ha, stripStart_eq_self]
    intro d hd
    rw [List.head?_cons, Option.mem_some_iff] at hd
    rw [← hd]
    exact hc

/-- A gap in front of a text is told from the text, if the text starts with no blank. -/
theorem eq_of_gap_append {a b s t : List Char} (ha : IsGap a) (hb : IsGap b)
    (hs : ∀ c ∈ s.head?, isBlank c = false) (ht : ∀ c ∈ t.head?, isBlank c = false)
    (h : a ++ s = b ++ t) : a = b ∧ s = t := by
  have hstrip := congrArg stripStart h
  rw [stripStart_gap_append ha, stripStart_gap_append hb, stripStart_eq_self hs,
    stripStart_eq_self ht] at hstrip
  rw [hstrip] at h
  exact ⟨List.append_cancel_right h, hstrip⟩

/-- A gap in front of a character that is no blank is told from what follows. -/
theorem eq_of_gap_append_cons {a b s t : List Char} {c : Char} (hc : isBlank c = false)
    (ha : IsGap a) (hb : IsGap b) (h : a ++ c :: s = b ++ c :: t) : a = b ∧ s = t := by
  obtain ⟨hgap, htail⟩ := eq_of_gap_append ha hb (by simp [hc]) (by simp [hc]) h
  exact ⟨hgap, (List.cons.inj htail).2⟩

/-! ## The end -/

theorem stripEnd_eq (s : List Char) : stripEnd s = s.rdropWhile isBlank := rfl

theorem stripEnd_append_gap {s b : List Char} (hb : IsGap b) : stripEnd (s ++ b) = stripEnd s := by
  rw [stripEnd, stripEnd, List.reverse_append, List.dropWhile_append_of_pos]
  intro c hc
  exact hb c (List.mem_reverse.mp hc)

theorem stripEnd_eq_self {s : List Char} (h : ∀ c ∈ s.getLast?, isBlank c = false) :
    stripEnd s = s := by
  rw [stripEnd_eq, List.rdropWhile_eq_self_iff]
  intro hs
  rw [h _ (List.getLast?_eq_some_getLast hs)]
  exact Bool.false_ne_true

theorem getLast?_stripEnd (s : List Char) : ∀ c ∈ (stripEnd s).getLast?, isBlank c = false := by
  intro c hc
  have hne : s.rdropWhile isBlank ≠ [] := by
    intro h
    rw [stripEnd_eq, h] at hc
    simp at hc
  have hlast := List.rdropWhile_last_not isBlank s hne
  rw [stripEnd_eq, List.getLast?_eq_some_getLast hne, Option.mem_some_iff] at hc
  rw [hc] at hlast
  simpa using hlast

/-- Stripping the end takes a gap off. -/
theorem exists_gap_of_stripEnd (s : List Char) : ∃ b, IsGap b ∧ s = stripEnd s ++ b := by
  obtain ⟨a, ha, hs⟩ := exists_gap_of_stripStart s.reverse
  refine ⟨a.reverse, fun c hc => ha c (List.mem_reverse.mp hc), ?_⟩
  have h := congrArg List.reverse hs
  rw [List.reverse_reverse, List.reverse_append] at h
  exact h

/-! ## Both ends -/

/-- Stripping takes a gap off each end. -/
theorem exists_gaps_of_strip (s : List Char) :
    ∃ a b, IsGap a ∧ IsGap b ∧ s = a ++ (strip s ++ b) := by
  obtain ⟨a, ha, hs⟩ := exists_gap_of_stripStart s
  obtain ⟨b, hb, ht⟩ := exists_gap_of_stripEnd (stripStart s)
  refine ⟨a, b, ha, hb, ?_⟩
  rw [strip, ← ht]
  exact hs

/-- What is left after stripping has no blank at either end. -/
theorem isStripped_strip (s : List Char) : IsStripped (strip s) := by
  refine ⟨fun c hc => ?_, getLast?_stripEnd (stripStart s)⟩
  obtain ⟨b, -, ht⟩ := exists_gap_of_stripEnd (stripStart s)
  refine head?_stripStart s c ?_
  obtain ⟨r, hr⟩ := List.head?_eq_some_iff.mp hc
  rw [ht, ← strip, hr]
  rfl

/-- A text without blanks at its ends is what is left after gaps around it are stripped. -/
theorem strip_gap_append_gap {a s b : List Char} (ha : IsGap a) (hs : IsStripped s)
    (hb : IsGap b) : strip (a ++ (s ++ b)) = s := by
  rw [strip, stripStart_gap_append ha]
  cases s with
  | nil =>
    rw [List.nil_append, stripStart_eq_nil hb]
    rfl
  | cons c s =>
    rw [stripStart_eq_self (s := c :: s ++ b) (fun d hd => hs.1 d hd), stripEnd_append_gap hb]
    exact stripEnd_eq_self hs.2

theorem strip_eq_self {s : List Char} (hs : IsStripped s) : strip s = s := by
  have h := strip_gap_append_gap isGap_nil hs isGap_nil
  rwa [List.nil_append, List.append_nil] at h

theorem strip_gap_append {a s : List Char} (ha : IsGap a) (hs : IsStripped s) :
    strip (a ++ s) = s := by
  have h := strip_gap_append_gap ha hs isGap_nil
  rwa [List.append_nil] at h

/-- A text is all blank exactly when nothing is left of it. -/
theorem strip_eq_nil_iff {s : List Char} : strip s = [] ↔ IsGap s := by
  constructor
  · intro h
    obtain ⟨a, b, ha, hb, hs⟩ := exists_gaps_of_strip s
    rw [h, List.nil_append] at hs
    intro c hc
    rw [hs, List.mem_append] at hc
    rcases hc with hc | hc
    · exact ha c hc
    · exact hb c hc
  · intro h
    have := strip_gap_append h isStripped_nil
    rwa [List.append_nil] at this

/-- What stands at the end of a stripped text has no blanks behind it. -/
theorem exists_gap_of_isStripped_append {p s : List Char} (h : IsStripped (p ++ s)) :
    ∃ a, IsGap a ∧ s = a ++ strip s := by
  obtain ⟨a, b, ha, hb, hs⟩ := exists_gaps_of_strip s
  rcases List.eq_nil_or_concat b with rfl | ⟨b, c, rfl⟩
  · exact ⟨a, ha, by rwa [List.append_nil] at hs⟩
  · have hlast : (p ++ s).getLast? = some c := by
      rw [hs, List.concat_eq_append, ← List.append_assoc, ← List.append_assoc, ← List.append_assoc,
        List.getLast?_concat]
    have hblank := hb c (by simp)
    rw [h.2 c hlast] at hblank
    exact absurd hblank Bool.false_ne_true

/-- The characters that are left after stripping were there before. -/
theorem mem_of_mem_strip {s : List Char} {c : Char} (h : c ∈ strip s) : c ∈ s := by
  obtain ⟨a, b, -, -, hs⟩ := exists_gaps_of_strip s
  rw [hs, List.mem_append, List.mem_append]
  exact Or.inr (Or.inl h)

end Text
end SchemaDiagram
