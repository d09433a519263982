import SchemaDiagram.Proofs.Scan.Comment
import SchemaDiagram.Schema.Bracket

/-!
# Balanced texts

A text is balanced when every literal and every group that starts in it also ends in it. The grammar
is given here, together with the ways in which balanced texts are put together and taken apart
without looking at their groups: at plain characters, at blanks, and at the ends. That the scans of
a schema follow this grammar is in `Proofs.Scan.Nesting`.
-/

namespace SchemaDiagram

/-! ## The grammar -/

/-- A character that is neither a bracket nor a quote. -/
def IsPlain (c : Char) : Prop :=
  Bracket.ofOpener? c = none ∧ Bracket.ofCloser? c = none ∧ c ≠ '"'

/-- The balanced texts. The flag says whether a comma may stand outside of all groups and literals;
inside of them it always may. -/
inductive Balanced : Bool → List Char → Prop where
  | nil {commas : Bool} : Balanced commas []
  | plain {commas : Bool} {c : Char} {s : List Char} :
      IsPlain c → (c = ',' → commas = true) → Balanced commas s → Balanced commas (c :: s)
  | literal {commas : Bool} {body s : List Char} :
      LiteralBody body → Balanced commas s → Balanced commas ('"' :: (body ++ '"' :: s))
  | group {commas : Bool} {b : Bracket} {inside s : List Char} :
      Balanced true inside → Balanced commas s →
        Balanced commas (b.opener :: (inside ++ b.closer :: s))

theorem opener_ne_quote (b : Bracket) : b.opener ≠ '"' := by
  cases b <;> decide

theorem closer_ne_quote (b : Bracket) : b.closer ≠ '"' := by
  cases b <;> decide

theorem opener_ne_comma (b : Bracket) : b.opener ≠ ',' := by
  cases b <;> decide

theorem closer_injective {b d : Bracket} (h : b.closer = d.closer) : b = d := by
  have := congrArg Bracket.ofCloser? h
  simpa using this

theorem not_isPlain_quote : ¬ IsPlain '"' :=
  fun h => h.2.2 rfl

theorem not_isPlain_opener (b : Bracket) : ¬ IsPlain b.opener := by
  intro h
  have := h.1
  simp at this

theorem not_isPlain_closer (b : Bracket) : ¬ IsPlain b.closer := by
  intro h
  have := h.2.1
  simp at this

/-- A character is plain, a quote, an opening or a closing bracket. -/
theorem isPlain_cases (c : Char) :
    IsPlain c ∨ c = '"' ∨ (∃ b : Bracket, c = b.opener) ∨ ∃ b : Bracket, c = b.closer := by
  by_cases hquote : c = '"'
  · exact Or.inr (Or.inl hquote)
  · cases hopen : Bracket.ofOpener? c with
    | some b => exact Or.inr (Or.inr (Or.inl ⟨b, Bracket.ofOpener?_eq_some_iff.mp hopen⟩))
    | none =>
      cases hclose : Bracket.ofCloser? c with
      | some b => exact Or.inr (Or.inr (Or.inr ⟨b, Bracket.ofCloser?_eq_some_iff.mp hclose⟩))
      | none => exact Or.inl ⟨hopen, hclose, hquote⟩

theorem isPlain_comma : IsPlain ',' :=
  ⟨rfl, rfl, by decide⟩

theorem isPlain_of_isBlank {c : Char} (h : Text.isBlank c = true) : IsPlain c := by
  rcases isPlain_cases c with hc | rfl | ⟨b, rfl⟩ | ⟨b, rfl⟩
  · exact hc
  · exact absurd h (by decide)
  · exact absurd h (by cases b <;> decide)
  · exact absurd h (by cases b <;> decide)

theorem isPlain_of_isWord {c : Char} (h : Text.isWord c = true) : IsPlain c := by
  rcases isPlain_cases c with hc | rfl | ⟨b, rfl⟩ | ⟨b, rfl⟩
  · exact hc
  · exact absurd h (by decide)
  · exact absurd h (by cases b <;> decide)
  · exact absurd h (by cases b <;> decide)

theorem isPlain_of_isGap {s : List Char} (hs : Text.IsGap s) : ∀ c ∈ s, IsPlain c :=
  fun c hc => isPlain_of_isBlank (hs c hc)

theorem isPlain_of_isName {s : List Char} (hs : Text.isName s = true) : ∀ c ∈ s, IsPlain c :=
  fun _ hc => isPlain_of_isWord (Text.isWord_of_mem_isName hs hc)

/-! ## Putting together and taking apart -/

namespace Balanced

variable {commas : Bool} {s t : List Char}

theorem mono (h : Balanced commas s) : Balanced true s := by
  induction h with
  | nil => exact .nil
  | plain hc _ _ ih => exact .plain hc (fun _ => rfl) ih
  | literal hbody _ ih => exact .literal hbody ih
  | group hin _ _ ih => exact .group hin ih

theorem append (hs : Balanced commas s) (ht : Balanced commas t) : Balanced commas (s ++ t) := by
  induction hs with
  | nil => exact ht
  | plain hc hcomma _ ih => exact .plain hc hcomma (ih ht)
  | literal hbody _ ih =>
    rw [List.cons_append, List.append_assoc, List.cons_append]
    exact .literal hbody (ih ht)
  | group hin _ _ ih =>
    rw [List.cons_append, List.append_assoc, List.cons_append]
    exact .group hin (ih ht)

theorem of_plain (hplain : ∀ c ∈ s, IsPlain c) (hcomma : ',' ∈ s → commas = true) :
    Balanced commas s := by
  induction s with
  | nil => exact .nil
  | cons c s ih =>
    obtain ⟨hc, hs⟩ := List.forall_mem_cons.mp hplain
    refine .plain hc ?_ (ih hs fun h => hcomma (List.mem_cons_of_mem _ h))
    rintro rfl
    exact hcomma (List.mem_cons_self ..)

/-- Plain characters can be taken off the front. -/
theorem of_cons {c : Char} (hc : IsPlain c) (h : Balanced commas (c :: s)) : Balanced commas s := by
  generalize hcs : c :: s = text at h
  cases h with
  | nil => simp at hcs
  | plain _ _ hs =>
    obtain ⟨-, rfl⟩ := List.cons.inj hcs
    exact hs
  | literal _ _ =>
    obtain ⟨rfl, -⟩ := List.cons.inj hcs
    exact absurd hc not_isPlain_quote
  | @group _ b _ _ _ _ =>
    obtain ⟨rfl, -⟩ := List.cons.inj hcs
    exact absurd hc (not_isPlain_opener b)

theorem of_plain_append (hs : ∀ c ∈ s, IsPlain c) (h : Balanced commas (s ++ t)) :
    Balanced commas t := by
  induction s with
  | nil => exact h
  | cons c s ih =>
    obtain ⟨hc, hs⟩ := List.forall_mem_cons.mp hs
    exact ih hs (of_cons hc h)

/-- The last character of a text stands behind a given one, or is that one. -/
theorem last_of_append_cons {p r : List Char} {c d : Char} (h : s ++ [c] = p ++ d :: r) :
    c = d ∧ r = [] ∨ ∃ r', r = r' ++ [c] ∧ s = p ++ d :: r' := by
  rcases List.eq_nil_or_concat r with rfl | ⟨r', e, rfl⟩
  · obtain ⟨-, hlast⟩ := List.append_inj' h rfl
    exact Or.inl ⟨(List.cons.inj hlast).1, rfl⟩
  · rw [List.concat_eq_append, ← List.cons_append, ← List.append_assoc] at h
    obtain ⟨hs, hlast⟩ := List.append_inj' h rfl
    rw [(List.cons.inj hlast).1]
    exact Or.inr ⟨r', List.concat_eq_append, hs⟩

/-- Plain characters can be taken off the end, because every group and every literal ends in a
character that is not plain. -/
theorem of_concat {c : Char} (hc : IsPlain c) (h : Balanced commas (s ++ [c])) :
    Balanced commas s := by
  generalize htext : s ++ [c] = text at h
  induction h generalizing s with
  | nil => simp at htext
  | @plain _ d r hd hcomma hr ih =>
    rcases s with _ | ⟨e, s⟩
    · exact .nil
    · obtain ⟨rfl, hs⟩ := List.cons.inj htext
      exact .plain hd hcomma (ih hs)
  | @literal _ body r hbody hr ih =>
    rcases last_of_append_cons (p := '"' :: body) htext with ⟨rfl, -⟩ | ⟨r', hr', rfl⟩
    · exact absurd hc not_isPlain_quote
    · exact .literal hbody (ih hr'.symm)
  | @group _ b inside r hin hr _ ih =>
    rcases last_of_append_cons (p := b.opener :: inside) htext with ⟨rfl, -⟩ | ⟨r', hr', rfl⟩
    · exact absurd hc (not_isPlain_closer b)
    · exact .group hin (ih hr'.symm)

theorem of_append_plain (ht : ∀ c ∈ t, IsPlain c) (h : Balanced commas (s ++ t)) :
    Balanced commas s := by
  induction t using List.reverseRecOn with
  | nil => rwa [List.append_nil] at h
  | append_singleton t c ih =>
    rw [← List.append_assoc] at h
    have hc : IsPlain c := ht c (by simp)
    exact ih (fun d hd => ht d (List.mem_append_left _ hd)) (of_concat hc h)

/-- A balanced text stays so without the blanks at its ends. -/
theorem strip (h : Balanced commas s) : Balanced commas (Text.strip s) := by
  obtain ⟨a, b, ha, hb, hs⟩ := Text.exists_gaps_of_strip s
  rw [hs] at h
  have htail := of_plain_append (fun c hc => isPlain_of_isBlank (ha c hc)) h
  exact of_append_plain (fun c hc => isPlain_of_isBlank (hb c hc)) htail

/-- A balanced text leaves the scan outside of literals. -/
theorem after_outside (h : Balanced commas s) : LiteralState.outside.after s = .outside := by
  induction h with
  | nil => rfl
  | plain hc _ _ ih => rw [LiteralState.after_cons, LiteralState.next, if_neg hc.2.2, ih]
  | @literal _ body r hbody _ ih =>
    have htext : '"' :: (body ++ '"' :: r) = '"' :: (body ++ ['"']) ++ r := by simp
    rw [htext, LiteralState.after_append, LiteralState.after_outside_literal hbody, ih]
  | @group _ b inside r _ _ ihin ih =>
    rw [LiteralState.after_cons, LiteralState.next, if_neg (opener_ne_quote b),
      LiteralState.after_append, ihin, LiteralState.after_cons, LiteralState.next,
      if_neg (closer_ne_quote b), ih]

end Balanced
end SchemaDiagram
