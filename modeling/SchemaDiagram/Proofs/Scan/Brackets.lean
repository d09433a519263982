import SchemaDiagram.Proofs.Scan.Attribute

/-!
# The brackets of a text

`brackets` keeps of a text the brackets that stand outside of its literals, in order. A list of
brackets is properly nested if it is balanced as a text, since in a text without quotes and plain
characters only the groups are left of the grammar. A balanced text has properly nested brackets
(`Balanced.brackets`); the converse fails, because a literal may be left open.

The first bracket of a text tells two kinds of line apart: in a run of attributes it is round
(`head?_brackets_of_parseRun`).
-/

namespace SchemaDiagram

/-- Whether the character is a bracket. -/
def isBracket (c : Char) : Bool :=
  (Bracket.ofOpener? c).isSome || (Bracket.ofCloser? c).isSome

/-- The brackets of the text that stand outside of literals, for a scan that enters it in the given
state. -/
def brackets : LiteralState → List Char → List Char
  | _, [] => []
  | st, c :: s =>
    if st = .outside ∧ isBracket c = true then c :: brackets (st.next c) s
    else brackets (st.next c) s

@[simp] theorem brackets_nil (st : LiteralState) : brackets st [] = [] := rfl

theorem isBracket_opener (b : Bracket) : isBracket b.opener = true := by
  simp [isBracket]

theorem isBracket_closer (b : Bracket) : isBracket b.closer = true := by
  simp [isBracket]

theorem isBracket_eq_false_of_isPlain {c : Char} (hc : IsPlain c) : isBracket c = false := by
  simp [isBracket, hc.1, hc.2.1]

theorem brackets_append (st : LiteralState) (s t : List Char) :
    brackets st (s ++ t) = brackets st s ++ brackets (st.after s) t := by
  induction s generalizing st with
  | nil => rfl
  | cons c s ih =>
    rw [List.cons_append, brackets, brackets, ih, LiteralState.after_cons]
    split <;> rfl

/-- Inside of a literal there are no brackets that count. -/
theorem brackets_cons_inside {st : LiteralState} (hst : st ≠ .outside) (c : Char) (s : List Char) :
    brackets st (c :: s) = brackets (st.next c) s := by
  rw [brackets, if_neg (fun h => hst h.1)]

theorem brackets_literalBody {s : List Char} (hs : LiteralBody s) : brackets .inside s = [] := by
  induction hs with
  | nil => rfl
  | plain hquote hslash _ ih =>
    rw [brackets_cons_inside (by decide), LiteralState.next, if_neg hquote, if_neg hslash, ih]
  | escape _ ih =>
    rw [brackets_cons_inside (by decide), LiteralState.next, if_neg (by decide), if_pos rfl,
      brackets_cons_inside (by decide), LiteralState.next_escaped, ih]

theorem brackets_quote (s : List Char) : brackets .outside ('"' :: s) = brackets .inside s := by
  rw [brackets, if_neg (by decide)]
  rfl

theorem brackets_plain {c : Char} (hc : IsPlain c) (s : List Char) :
    brackets .outside (c :: s) = brackets .outside s := by
  rw [brackets, if_neg, LiteralState.next, if_neg hc.2.2]
  rw [isBracket_eq_false_of_isPlain hc]
  simp

theorem brackets_plain_append {s : List Char} (hs : ∀ c ∈ s, IsPlain c) (t : List Char) :
    brackets .outside (s ++ t) = brackets .outside t := by
  induction s with
  | nil => rfl
  | cons c s ih =>
    obtain ⟨hc, hs⟩ := List.forall_mem_cons.mp hs
    rw [List.cons_append, brackets_plain hc, ih hs]

theorem brackets_opener (b : Bracket) (s : List Char) :
    brackets .outside (b.opener :: s) = b.opener :: brackets .outside s := by
  rw [brackets, if_pos ⟨rfl, isBracket_opener b⟩, LiteralState.next, if_neg (opener_ne_quote b)]

theorem brackets_closer (b : Bracket) (s : List Char) :
    brackets .outside (b.closer :: s) = b.closer :: brackets .outside s := by
  rw [brackets, if_pos ⟨rfl, isBracket_closer b⟩, LiteralState.next, if_neg (closer_ne_quote b)]

/-- **The brackets of a balanced text** are properly nested. -/
theorem Balanced.brackets {commas : Bool} {s : List Char} (h : Balanced commas s) :
    Balanced true (SchemaDiagram.brackets .outside s) := by
  induction h with
  | nil => exact .nil
  | plain hc _ _ ih => rwa [brackets_plain hc]
  | @literal _ body s hbody _ ih =>
    have hquote : LiteralState.inside.next '"' = .outside := rfl
    rwa [brackets_quote, brackets_append, brackets_literalBody hbody,
      LiteralState.after_inside_of_literalBody hbody, List.nil_append,
      brackets_cons_inside (by decide), hquote]
  | @group _ b inside s hin _ ihin ih =>
    rw [brackets_opener, brackets_append, hin.after_outside, brackets_closer]
    exact .group ihin ih

/-! ## The first bracket of a run of attributes -/

namespace Attribute

/-- An attribute that is read is plain up to the list of its arguments, if it has one. -/
theorem exists_plain_of_read {text rest : List Char} {a : Attribute}
    (h : read text = .ok (a, rest)) :
    ∃ front, (∀ c ∈ front, IsPlain c) ∧
      (text = front ++ rest ∨ ∃ after, text = front ++ '(' :: after) := by
  unfold read at h
  split at h
  · next afterAt =>
    have hat : IsPlain '@' := ⟨rfl, rfl, by decide⟩
    split at h
    · next name inner hread =>
      obtain ⟨rfl, hname, -⟩ := isAttributeName_of_readName hread
      exact ⟨'@' :: name, List.forall_mem_cons.mpr ⟨hat, isPlain_of_mem hname⟩,
        Or.inr ⟨inner, rfl⟩⟩
    · next name rest' hnot hread =>
      obtain ⟨rfl, hname, -⟩ := isAttributeName_of_readName hread
      obtain ⟨-, rfl⟩ := Prod.mk.inj (Except.ok.inj h)
      exact ⟨'@' :: name, List.forall_mem_cons.mpr ⟨hat, isPlain_of_mem hname⟩, Or.inl rfl⟩
    · simp at h
  · simp at h

/-- **The first bracket of a run of attributes** is round. -/
theorem head?_brackets_of_parseRun {text : List Char} {as : List Attribute}
    (h : parseRun text = .ok as) : ∀ c ∈ (brackets .outside text).head?, c = '(' := by
  have hgap : ∀ gap text, Text.IsGap gap →
      brackets .outside (gap ++ text) = brackets .outside text := fun gap text hgap =>
    brackets_plain_append (isPlain_of_isGap hgap) text
  refine parseRun_induction (P := fun text _ => ∀ c ∈ (brackets .outside text).head?, c = '(')
    ?_ ?_ h
  · intro gap hblank c hc
    rw [← List.append_nil gap, hgap gap [] hblank] at hc
    simp at hc
  · intro gap text a rest as hblank hread hrest c hc
    rw [hgap gap text hblank] at hc
    obtain ⟨front, hfront, rfl | ⟨after, rfl⟩⟩ := exists_plain_of_read hread
    · rw [brackets_plain_append hfront] at hc
      exact hrest c hc
    · have hround : brackets .outside ('(' :: after) = '(' :: brackets .outside after :=
        brackets_opener .round after
      rw [brackets_plain_append hfront, hround, List.head?_cons, Option.mem_some_iff] at hc
      exact hc.symm

end Attribute
end SchemaDiagram
