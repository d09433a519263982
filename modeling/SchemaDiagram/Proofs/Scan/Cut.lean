import SchemaDiagram.Proofs.Scan.Comment

/-!
# Where a line is cut

A line is cut at the first two slashes that stand outside of its literals. Which slashes these are
is said here by the literals alone. A text closes all of its literals (`LiteralsClosed`) or it ends
in one of them (`EndsInLiteral`), and never both, so by what stands in front of them two slashes are
either outside of the literals or in one. A line has one cut at most (`SourceLine.IsCut.unique`). If
it has one, it is taken apart there, and if it has none, it is all code; and the code of a line has
none (`SourceLine.cut_of_ofText`).
-/

namespace SchemaDiagram

variable {s : List Char}

/-! ## Closed and open literals -/

/-- Every literal that starts in the text ends in it. -/
inductive LiteralsClosed : List Char → Prop where
  | nil : LiteralsClosed []
  | plain {c : Char} {s : List Char} : c ≠ '"' → LiteralsClosed s → LiteralsClosed (c :: s)
  | literal {body s : List Char} : LiteralBody body → LiteralsClosed s →
      LiteralsClosed ('"' :: (body ++ '"' :: s))

/-- The text ends in a literal: a quote behind closed literals starts it, and all that stands behind
the quote can go on as the text of a literal. -/
def EndsInLiteral (s : List Char) : Prop :=
  ∃ front body rest, s = front ++ '"' :: body ∧ LiteralsClosed front ∧ LiteralBody (body ++ rest)

/-- What stands behind the quote that starts a literal has the end of it, or is all text of it. -/
theorem exists_end_or_literalBody (s : List Char) :
    (∃ body rest, s = body ++ '"' :: rest ∧ LiteralBody body) ∨
      ∃ rest, LiteralBody (s ++ rest) := by
  induction s using TypeExpr.readRaw.induct with
  | case1 => exact .inr ⟨[], .nil⟩
  | case2 s => exact .inl ⟨[], s, rfl, .nil⟩
  | case3 => exact .inr ⟨['"'], .escape .nil⟩
  | case4 c s ih =>
    rcases ih with ⟨body, rest, rfl, hbody⟩ | ⟨rest, hbody⟩
    · exact .inl ⟨'\\' :: c :: body, rest, rfl, .escape hbody⟩
    · exact .inr ⟨rest, .escape hbody⟩
  | case5 c s hquote hend hescape ih =>
    have hslash : c ≠ '\\' := by
      rintro rfl
      cases s with
      | nil => exact hend rfl rfl
      | cons d s => exact hescape d s rfl rfl
    rcases ih with ⟨body, rest, rfl, hbody⟩ | ⟨rest, hbody⟩
    · exact .inl ⟨c :: body, rest, rfl, .plain hquote hslash hbody⟩
    · exact .inr ⟨rest, .plain hquote hslash hbody⟩

/-- A text closes its literals or ends in one. -/
theorem literalsClosed_or_endsInLiteral (s : List Char) : LiteralsClosed s ∨ EndsInLiteral s := by
  induction hn : s.length using Nat.strong_induction_on generalizing s with
  | _ n ih =>
    rcases s with _ | ⟨c, s⟩
    · exact .inl .nil
    by_cases hquote : c = '"'
    · subst hquote
      rcases exists_end_or_literalBody s with ⟨body, tail, rfl, hbody⟩ | ⟨rest, hbody⟩
      · have hlt : tail.length < n := by
          rw [← hn]
          simp
          omega
        rcases ih tail.length hlt tail rfl with htail | ⟨front, open', rest, rfl, hfront, hopen⟩
        · exact .inl (.literal hbody htail)
        · exact .inr ⟨'"' :: (body ++ '"' :: front), open', rest, by simp, .literal hbody hfront,
            hopen⟩
      · exact .inr ⟨[], s, rest, rfl, .nil, hbody⟩
    · have hlt : s.length < n := by
        rw [← hn]
        exact Nat.lt_succ_self _
      rcases ih s.length hlt s rfl with hs | ⟨front, body, rest, rfl, hfront, hbody⟩
      · exact .inl (.plain hquote hs)
      · exact .inr ⟨c :: front, body, rest, rfl, .plain hquote hfront, hbody⟩

theorem LiteralsClosed.after_outside (h : LiteralsClosed s) :
    LiteralState.outside.after s = .outside := by
  induction h with
  | nil => rfl
  | plain hquote _ ih => rw [LiteralState.after_cons, LiteralState.next, if_neg hquote, ih]
  | @literal body s hbody _ ih =>
    have htext : '"' :: (body ++ '"' :: s) = '"' :: (body ++ ['"']) ++ s := by simp
    rw [htext, LiteralState.after_append, LiteralState.after_outside_literal hbody, ih]

/-- A literal is open as long as its text goes on. -/
theorem LiteralState.after_inside_ne_outside {body rest : List Char}
    (h : LiteralBody (body ++ rest)) : LiteralState.inside.after body ≠ .outside := by
  generalize htext : body ++ rest = text at h
  induction h generalizing body with
  | nil =>
    obtain ⟨rfl, -⟩ := List.append_eq_nil_iff.mp htext
    decide
  | @plain c s hquote hslash _ ih =>
    rcases body with _ | ⟨d, body⟩
    · decide
    · obtain ⟨rfl, htail⟩ := List.cons.inj htext
      rw [after_cons, next, if_neg hquote, if_neg hslash]
      exact ih htail
  | @escape c s _ ih =>
    rcases body with _ | ⟨d, _ | ⟨e, body⟩⟩
    · decide
    · obtain ⟨rfl, -⟩ := List.cons.inj htext
      decide
    · obtain ⟨rfl, htail⟩ := List.cons.inj htext
      have hopen := ih (List.cons.inj htail).2
      exact hopen

/-- **A text ends in a literal** exactly if a scan of it does not end outside of literals. -/
theorem endsInLiteral_iff : EndsInLiteral s ↔ LiteralState.outside.after s ≠ .outside := by
  constructor
  · rintro ⟨front, body, rest, rfl, hfront, hbody⟩
    rw [LiteralState.after_append, hfront.after_outside]
    exact LiteralState.after_inside_ne_outside hbody
  · intro h
    exact (literalsClosed_or_endsInLiteral s).resolve_left fun hclosed => h hclosed.after_outside

theorem literalsClosed_iff : LiteralsClosed s ↔ LiteralState.outside.after s = .outside := by
  refine ⟨LiteralsClosed.after_outside, fun h => ?_⟩
  exact (literalsClosed_or_endsInLiteral s).resolve_right fun hopen => endsInLiteral_iff.mp hopen h

theorem LiteralsClosed.not_endsInLiteral (h : LiteralsClosed s) : ¬ EndsInLiteral s :=
  fun hopen => endsInLiteral_iff.mp hopen h.after_outside

namespace SourceLine

variable {line front comment code : List Char}

/-! ## The cut -/

/-- Whether the line is cut into what stands in front of two slashes and what stands behind them.
The literals in front are closed, and two slashes that come earlier stand in one. -/
structure IsCut (line front comment : List Char) : Prop where
  spelled : line = front ++ '/' :: '/' :: comment
  closed : LiteralsClosed front
  first : ∀ p r, line = p ++ '/' :: '/' :: r → p.length < front.length → EndsInLiteral p

/-- A line is cut in one way at most. -/
theorem IsCut.unique {front' comment' : List Char} (h : IsCut line front comment)
    (h' : IsCut line front' comment') : front = front' ∧ comment = comment' := by
  have hlength : front.length = front'.length := by
    rcases Nat.lt_trichotomy front.length front'.length with hlt | heq | hlt
    · exact absurd (h'.first front comment h.spelled hlt) h.closed.not_endsInLiteral
    · exact heq
    · exact absurd (h.first front' comment' h'.spelled hlt) h'.closed.not_endsInLiteral
  obtain ⟨hfront, hrest⟩ := List.append_inj (h.spelled.symm.trans h'.spelled) hlength
  exact ⟨hfront, (List.cons.inj (List.cons.inj hrest).2).2⟩

/-- A line is comment-free exactly if all slashes of it that come in twos stand in literals. -/
theorem commentFree_outside_iff :
    CommentFree .outside line ↔ ∀ p r, line = p ++ '/' :: '/' :: r → EndsInLiteral p := by
  simp only [CommentFree, endsInLiteral_iff]

/-- The scan stands outside of literals where it cuts. -/
theorem after_fst_cut {st : LiteralState} (h : (cut st s).2 = some comment) :
    st.after (cut st s).1 = .outside := by
  fun_induction cut st s with
  | case1 rest => rfl
  | case2 => simp at h
  | case3 st c rest _ tail ih => exact ih h

/-- Two slashes in front of the cut, the second of which may be the first of the cut, do not stand
outside of literals. -/
theorem after_ne_outside_of_lt (st : LiteralState) (s r : List Char) :
    ∀ p, s = p ++ '/' :: '/' :: r → p.length < (cut st s).1.length → st.after p ≠ .outside := by
  fun_induction cut st s with
  | case1 rest => simp
  | case2 => simp
  | case3 st c rest hslashes tail ih =>
    intro p h hlt
    cases p with
    | nil =>
      obtain ⟨rfl, hrest⟩ := List.cons.inj h
      exact fun hst => hslashes r hst rfl hrest
    | cons d p =>
      obtain ⟨rfl, hrest⟩ := List.cons.inj h
      exact ih p hrest (Nat.lt_of_succ_lt_succ hlt)

/-- **The scan cuts at the cut.** -/
theorem snd_cut_eq_some_iff :
    (cut .outside line).2 = some comment ↔ IsCut line (cut .outside line).1 comment := by
  have hline := append_written_cut .outside line
  constructor
  · intro h
    rw [h] at hline
    exact ⟨hline.symm, literalsClosed_iff.mpr (after_fst_cut h),
      fun p r hp hlt => endsInLiteral_iff.mpr (after_ne_outside_of_lt _ _ r p hp hlt)⟩
  · intro h
    cases hcomment : (cut .outside line).2 with
    | none =>
      have hspelled := h.spelled
      rw [hcomment, written, List.append_nil] at hline
      rw [hline] at hspelled
      simpa using congrArg List.length hspelled
    | some comment' =>
      rw [hcomment] at hline
      have := hline.trans h.spelled
      rw [List.append_cancel_left_eq] at this
      rw [(List.cons.inj (List.cons.inj this).2).2]

/-- A line is cut by the scan if it is cut at all. -/
theorem IsCut.eq_cut (h : IsCut line front comment) :
    cut .outside line = (front, some comment) := by
  cases hcomment : (cut .outside line).2 with
  | none =>
    have hfree := commentFree_cut .outside line
    have hline := append_written_cut .outside line
    rw [hcomment, written, List.append_nil] at hline
    rw [hline] at hfree
    exact absurd h.closed.after_outside (hfree front comment h.spelled)
  | some comment' =>
    obtain ⟨hfront, rfl⟩ := (snd_cut_eq_some_iff.mp hcomment).unique h
    exact Prod.ext hfront hcomment

/-- **A line with a comment** is taken apart at its cut. -/
theorem ofText_eq_some_iff :
    ofText line = { code, comment := some comment } ↔
      ∃ front, IsCut line front comment ∧ Text.strip front = code := by
  rw [ofText, SourceLine.mk.injEq]
  constructor
  · rintro ⟨hcode, hcomment⟩
    exact ⟨_, snd_cut_eq_some_iff.mp hcomment, hcode⟩
  · rintro ⟨front, hcut, rfl⟩
    rw [hcut.eq_cut]
    exact ⟨rfl, rfl⟩

/-- **A line without a comment** is all code. -/
theorem ofText_eq_none_iff :
    ofText line = { code, comment := none } ↔ code = Text.strip line ∧
      ∀ p r, line = p ++ '/' :: '/' :: r → EndsInLiteral p := by
  rw [ofText, SourceLine.mk.injEq, ← commentFree_outside_iff]
  constructor
  · rintro ⟨rfl, hcomment⟩
    have hfree := commentFree_cut .outside line
    have hline := append_written_cut .outside line
    rw [hcomment, written, List.append_nil] at hline
    rw [hline] at hfree ⊢
    exact ⟨rfl, hfree⟩
  · rintro ⟨rfl, hfree⟩
    rw [cut_eq_of_commentFree hfree]
    exact ⟨rfl, rfl⟩

/-- **The cut of a line.** A line has a comment exactly if two slashes of it stand outside of the
literals; then the first two that do are the cut, and the code is what stands in front of them,
without the blanks at its ends. There is one such cut at most. A line all of whose slashes that come
in twos stand in literals, closed or not, is all code. The code of a line is such a line. -/
theorem cut_of_ofText (line : List Char) :
    (∀ code comment, ofText line = { code, comment := some comment } ↔
      ∃ front, IsCut line front comment ∧ Text.strip front = code) ∧
    (∀ code, ofText line = { code, comment := none } ↔ code = Text.strip line ∧
      ∀ p r, line = p ++ '/' :: '/' :: r → EndsInLiteral p) ∧
    (∀ front comment front' comment', IsCut line front comment → IsCut line front' comment' →
      front = front' ∧ comment = comment') ∧
    ofText (ofText line).code = { code := (ofText line).code, comment := none } := by
  refine ⟨fun code comment => ofText_eq_some_iff, fun code => ofText_eq_none_iff,
    fun front comment front' comment' h h' => h.unique h', ?_⟩
  exact ofText_eq_of_commentFree (commentFree_code line) (isStripped_code line)

/-- A line with two slashes in a literal, behind an escaped quote, and with a comment behind a slash
of the code. -/
theorem cut_of_ofText_escaped :
    IsCut " \"\\\"//\" / //\n/ \"".toList " \"\\\"//\" / ".toList "\n/ \"".toList ∧
      (∀ front comment, IsCut " \"\\\"//\" / //\n/ \"".toList front comment →
        front = " \"\\\"//\" / ".toList) ∧
      ofText "\"\\\"//\" /".toList = { code := "\"\\\"//\" /".toList, comment := none } := by
  obtain ⟨hsome, -, hunique, hcode⟩ := cut_of_ofText " \"\\\"//\" / //\n/ \"".toList
  have htext : ofText " \"\\\"//\" / //\n/ \"".toList =
      { code := "\"\\\"//\" /".toList, comment := some "\n/ \"".toList } := by decide
  obtain ⟨front, hcut, -⟩ := (hsome _ _).mp htext
  have hspelled : " \"\\\"//\" / ".toList ++ "//\n/ \"".toList = front ++ "//\n/ \"".toList :=
    hcut.spelled
  obtain rfl := List.append_cancel_right hspelled
  refine ⟨hcut, fun front comment h => (hunique _ _ _ _ h hcut).1, ?_⟩
  rw [htext] at hcode
  exact hcode

end SourceLine
end SchemaDiagram
