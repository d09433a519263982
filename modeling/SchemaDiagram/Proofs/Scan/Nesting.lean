import SchemaDiagram.Proofs.Outcome
import SchemaDiagram.Proofs.Scan.Balanced
import SchemaDiagram.Schema.Nesting

/-!
# The scans of groups

The scans of `Schema.Nesting` are a machine with a stack, and the balanced texts are a grammar. What
the machine can do in one step is listed once, by `Nesting.Move`. Machine and grammar are joined by
`Completes`: the text that closes all that is open at a nesting. `completes_cons_iff` says that one
step of the machine is one character of such a text, so that each scan is characterised by one
induction over the text:

* `takeGroup_eq_ok_iff`: a group that is taken is a balanced text and its closing bracket;
* `splitAtCommas_eq_ok_iff`: the pieces are balanced, have no comma outside of groups and literals,
  and make up the text when commas are put between them.
-/

namespace SchemaDiagram

/-! ## What closes a nesting -/

/-- The text closes the open groups, innermost first, and is balanced after that. -/
def ClosesGroups (commas : Bool) : List Bracket → List Char → Prop
  | [], s => Balanced commas s
  | b :: bs, s => ∃ inside rest,
      s = inside ++ b.closer :: rest ∧ Balanced true inside ∧ ClosesGroups commas bs rest

/-- The text goes on with the text of a literal, its end, and something of the given kind. -/
def ClosesLiteral (P : List Char → Prop) (s : List Char) : Prop :=
  ∃ body rest, s = body ++ '"' :: rest ∧ LiteralBody body ∧ P rest

/-- The text closes the literal and the groups that are open at the nesting, and is balanced after
that. -/
def Completes (commas : Bool) (n : Nesting) (s : List Char) : Prop :=
  match n.literal with
  | .outside => ClosesGroups commas n.brackets s
  | .inside => ClosesLiteral (ClosesGroups commas n.brackets) s
  | .escaped => ∃ c rest, s = c :: rest ∧ ClosesLiteral (ClosesGroups commas n.brackets) rest

theorem closesLiteral_cons_iff {P : List Char → Prop} {c : Char} {s : List Char} :
    ClosesLiteral P (c :: s) ↔
      (c = '"' ∧ P s) ∨ (c ≠ '"' ∧ c ≠ '\\' ∧ ClosesLiteral P s) ∨
        (c = '\\' ∧ ∃ d rest, s = d :: rest ∧ ClosesLiteral P rest) := by
  constructor
  · rintro ⟨body, rest, hs, hbody, hP⟩
    cases hbody with
    | nil =>
      obtain ⟨rfl, rfl⟩ := List.cons.inj hs
      exact Or.inl ⟨rfl, hP⟩
    | plain hquote hslash hbody =>
      obtain ⟨rfl, rfl⟩ := List.cons.inj hs
      exact Or.inr (Or.inl ⟨hquote, hslash, _, rest, rfl, hbody, hP⟩)
    | escape hbody =>
      obtain ⟨rfl, rfl⟩ := List.cons.inj hs
      exact Or.inr (Or.inr ⟨rfl, _, _, rfl, _, rest, rfl, hbody, hP⟩)
  · rintro (⟨rfl, hP⟩ | ⟨hquote, hslash, body, rest, rfl, hbody, hP⟩ |
      ⟨rfl, d, _, rfl, body, rest, rfl, hbody, hP⟩)
    · exact ⟨[], s, rfl, .nil, hP⟩
    · exact ⟨c :: body, rest, rfl, .plain hquote hslash hbody, hP⟩
    · exact ⟨'\\' :: d :: body, rest, rfl, .escape hbody, hP⟩

theorem closesLiteral_nil_iff {P : List Char → Prop} : ¬ ClosesLiteral P [] := by
  rintro ⟨body, rest, h, -, -⟩
  simp at h

/-! ## One step -/

namespace Nesting

variable {bs : List Bracket}

theorem step_plain {c : Char} (hc : IsPlain c) :
    step { brackets := bs } c = .ok { brackets := bs } := by
  simp [step, hc.1, hc.2.1, LiteralState.next, hc.2.2]

theorem step_quote : step { brackets := bs } '"' = .ok { brackets := bs, literal := .inside } :=
  rfl

theorem step_opener (b : Bracket) :
    step { brackets := bs } b.opener = .ok { brackets := b :: bs } := by
  simp [step]

theorem step_closer (b : Bracket) : step { brackets := bs } b.closer = close b bs := by
  simp [step]

theorem step_inside {st : LiteralState} (hst : st ≠ .outside) (c : Char) :
    step { brackets := bs, literal := st } c = .ok { brackets := bs, literal := st.next c } := by
  cases st with
  | outside => exact absurd rfl hst
  | inside => rfl
  | escaped => rfl

/-- The ways in which a character is stepped over. -/
inductive Move : Nesting → Char → Nesting → Prop where
  | plain {bs : List Bracket} {c : Char} : IsPlain c → Move ⟨bs, .outside⟩ c ⟨bs, .outside⟩
  | quote {bs : List Bracket} : Move ⟨bs, .outside⟩ '"' ⟨bs, .inside⟩
  | opener {bs : List Bracket} (b : Bracket) : Move ⟨bs, .outside⟩ b.opener ⟨b :: bs, .outside⟩
  | closer {bs : List Bracket} (b : Bracket) : Move ⟨b :: bs, .outside⟩ b.closer ⟨bs, .outside⟩
  | inside {bs : List Bracket} {st : LiteralState} {c : Char} :
      st ≠ .outside → Move ⟨bs, st⟩ c ⟨bs, st.next c⟩

/-- **One step of the machine** succeeds exactly if it is one of the moves. -/
theorem step_eq_ok_iff {n m : Nesting} {c : Char} : n.step c = .ok m ↔ Move n c m := by
  constructor
  · intro h
    rcases n with ⟨bs, st⟩
    by_cases hst : st = .outside
    · subst hst
      rcases isPlain_cases c with hc | rfl | ⟨b, rfl⟩ | ⟨b, rfl⟩
      · rw [step_plain hc] at h
        cases h
        exact .plain hc
      · cases h
        exact .quote
      · rw [step_opener] at h
        cases h
        exact .opener b
      · rw [step_closer] at h
        cases bs with
        | nil => simp [close] at h
        | cons d bs =>
          rw [close] at h
          split at h
          · next hd =>
            cases h
            rw [hd]
            exact .closer b
          · simp at h
    · rw [step_inside hst] at h
      cases h
      exact .inside hst
  · intro h
    cases h with
    | plain hc => exact step_plain hc
    | quote => rfl
    | opener b => exact step_opener b
    | closer b => rw [step_closer, close, if_pos rfl]
    | inside hst => exact step_inside hst _

theorem isTop_iff {n : Nesting} : n.isTop = true ↔ n = .top := by
  rcases n with ⟨_ | ⟨b, bs⟩, st⟩ <;> cases st <;> simp [isTop, top]

end Nesting

theorem completes_nil_iff {commas : Bool} {n : Nesting} :
    Completes commas n [] ↔ n = .top := by
  rcases n with ⟨bs, _ | _ | _⟩
  · cases bs with
    | nil => exact iff_of_true .nil rfl
    | cons b bs =>
      refine iff_of_false ?_ (by simp [Nesting.top])
      rintro ⟨inside, rest, h, -, -⟩
      simp at h
  · exact iff_of_false closesLiteral_nil_iff (by simp [Nesting.top])
  · refine iff_of_false ?_ (by simp [Nesting.top])
    rintro ⟨c, rest, h, -⟩
    simp at h

/-- The first character of a text that closes groups is stepped over. -/
theorem closesGroups_cons_iff {commas : Bool} {bs : List Bracket} {c : Char} {s : List Char} :
    ClosesGroups commas bs (c :: s) ↔
      (bs = [] → c = ',' → commas = true) ∧
        ∃ m, Nesting.Move ⟨bs, .outside⟩ c m ∧ Completes commas m s := by
  cases bs with
  | nil =>
    constructor
    · intro h
      cases h with
      | plain hc hcomma hs => exact ⟨fun _ => hcomma, _, .plain hc, hs⟩
      | literal hbody hs =>
        exact ⟨fun _ h => absurd h (by decide), _, .quote, _, _, rfl, hbody, hs⟩
      | @group _ b inside rest hin hs =>
        exact ⟨fun _ h => absurd h (opener_ne_comma b), _, .opener b, _, _, rfl, hin, hs⟩
    · rintro ⟨hcomma, m, hm, hs⟩
      cases hm with
      | plain hc => exact .plain hc (hcomma rfl) hs
      | quote =>
        obtain ⟨body, rest, rfl, hbody, hs⟩ := hs
        exact .literal hbody hs
      | opener b =>
        obtain ⟨inside, rest, rfl, hin, hs⟩ := hs
        exact .group hin hs
      | inside hst => exact absurd rfl hst
  | cons b bs =>
    constructor
    · rintro ⟨inside, rest, hs, hin, hrest⟩
      refine ⟨fun h => by simp at h, ?_⟩
      cases hin with
      | nil =>
        obtain ⟨rfl, rfl⟩ := List.cons.inj hs
        exact ⟨_, .closer b, hrest⟩
      | plain hc _ hin =>
        obtain ⟨rfl, rfl⟩ := List.cons.inj hs
        exact ⟨_, .plain hc, _, rest, rfl, hin, hrest⟩
      | @literal _ body tail hbody hin =>
        rw [List.cons_append, List.append_assoc] at hs
        obtain ⟨rfl, rfl⟩ := List.cons.inj hs
        exact ⟨_, .quote, body, tail ++ b.closer :: rest, rfl, hbody, tail, rest, rfl, hin, hrest⟩
      | @group _ d inner tail hinner hin =>
        rw [List.cons_append, List.append_assoc] at hs
        obtain ⟨rfl, rfl⟩ := List.cons.inj hs
        exact ⟨_, .opener d, inner, tail ++ b.closer :: rest, rfl, hinner, tail, rest, rfl, hin,
          hrest⟩
    · rintro ⟨-, m, hm, hs⟩
      cases hm with
      | plain hc =>
        obtain ⟨inside, rest, rfl, hin, hrest⟩ := hs
        exact ⟨c :: inside, rest, rfl, .plain hc (fun _ => rfl) hin, hrest⟩
      | quote =>
        obtain ⟨body, _, rfl, hbody, inside, rest, rfl, hin, hrest⟩ := hs
        exact ⟨'"' :: (body ++ '"' :: inside), rest, by simp, .literal hbody hin, hrest⟩
      | opener d =>
        obtain ⟨inner, _, rfl, hinner, inside, rest, rfl, hin, hrest⟩ := hs
        exact ⟨d.opener :: (inner ++ d.closer :: inside), rest, by simp, .group hinner hin, hrest⟩
      | closer => exact ⟨[], s, rfl, .nil, hs⟩
      | inside hst => exact absurd rfl hst

/-- **One step of the machine is one character of the text.** A text completes a nesting exactly
when its first character can be stepped over and the rest completes what the step leads to; only a
comma at the top is refused if commas are not allowed there. -/
theorem completes_cons_iff {commas : Bool} {n : Nesting} {c : Char} {s : List Char} :
    Completes commas n (c :: s) ↔
      (n.isTop = true → c = ',' → commas = true) ∧
        ∃ m, n.step c = .ok m ∧ Completes commas m s := by
  rcases n with ⟨bs, _ | _ | _⟩
  · have htop : Nesting.isTop ⟨bs, .outside⟩ = true ↔ bs = [] := by
      cases bs <;> simp [Nesting.isTop]
    simp only [htop, Nesting.step_eq_ok_iff]
    exact closesGroups_cons_iff
  · -- inside of a literal every character can be stepped over
    rw [Nesting.step_inside (by simp)]
    refine closesLiteral_cons_iff.trans ?_
    constructor
    · rintro (⟨rfl, hs⟩ | ⟨hquote, hslash, hs⟩ | ⟨rfl, d, rest, rfl, hs⟩)
      · exact ⟨fun h => by simp [Nesting.isTop] at h, _, rfl, hs⟩
      · refine ⟨fun h => by simp [Nesting.isTop] at h, _, rfl, ?_⟩
        rw [LiteralState.next, if_neg hquote, if_neg hslash]
        exact hs
      · exact ⟨fun h => by simp [Nesting.isTop] at h, _, rfl, d, rest, rfl, hs⟩
    · rintro ⟨-, m, hm, hs⟩
      cases hm
      rw [LiteralState.next] at hs
      split at hs
      · next hquote => exact Or.inl ⟨hquote, hs⟩
      · next hquote =>
        split at hs
        · next hslash => exact Or.inr (Or.inr ⟨hslash, hs⟩)
        · next hslash => exact Or.inr (Or.inl ⟨hquote, hslash, hs⟩)
  · rw [Nesting.step_inside (by simp)]
    constructor
    · rintro ⟨d, rest, h, hs⟩
      obtain ⟨rfl, rfl⟩ := List.cons.inj h
      exact ⟨fun h => by simp [Nesting.isTop] at h, _, rfl, hs⟩
    · rintro ⟨-, m, hm, hs⟩
      cases hm
      exact ⟨c, s, rfl, hs⟩

/-- A text does not start with what cannot be stepped over. -/
theorem not_completes_cons_of_step {n : Nesting} {c : Char} {e : Cause} (h : n.step c = .error e)
    {commas : Bool} {s : List Char} : ¬ Completes commas n (c :: s) := by
  intro hs
  obtain ⟨-, m, hm, -⟩ := completes_cons_iff.mp hs
  rw [h] at hm
  simp at hm

/-! ## Taking a group -/

/-- The nesting inside of one more group, which is around all that are open. -/
def Nesting.within (n : Nesting) (b : Bracket) : Nesting :=
  { n with brackets := n.brackets ++ [b] }

/-- An error of a step at the top level is an unexpected closing bracket, and anywhere else it is a
mismatched one. -/
theorem Nesting.step_eq_error {n : Nesting} {c : Char} {e : Cause} (h : n.step c = .error e) :
    ∃ b : Bracket, c = b.closer ∧ n.literal = .outside ∧
      (n.brackets = [] ∧ e = .unexpectedCloser b ∨
        ∃ d bs, n.brackets = d :: bs ∧ d ≠ b ∧ e = .mismatchedCloser b) := by
  rcases n with ⟨bs, st⟩
  by_cases hst : st = .outside
  · subst hst
    rcases isPlain_cases c with hc | rfl | ⟨b, rfl⟩ | ⟨b, rfl⟩
    · rw [Nesting.step_plain hc] at h
      simp at h
    · rw [Nesting.step_quote] at h
      simp at h
    · rw [Nesting.step_opener] at h
      simp at h
    · rw [Nesting.step_closer] at h
      refine ⟨b, rfl, rfl, ?_⟩
      cases bs with
      | nil =>
        rw [Nesting.close] at h
        cases h
        exact Or.inl ⟨rfl, rfl⟩
      | cons d bs =>
        rw [Nesting.close] at h
        split at h
        · simp at h
        · next hd =>
          cases h
          exact Or.inr ⟨d, bs, rfl, hd, rfl⟩
  · rw [Nesting.step_inside hst] at h
    simp at h

/-- What can be stepped over at a nesting can be stepped over inside of a group around it. -/
theorem Nesting.step_within_of_ok {n m : Nesting} {c : Char} (h : n.step c = .ok m)
    (b : Bracket) : (n.within b).step c = .ok (m.within b) := by
  rw [step_eq_ok_iff] at h ⊢
  cases h with
  | plain hc => exact .plain hc
  | quote => exact .quote
  | opener d => exact .opener d
  | closer d => exact .closer d
  | inside hst => exact .inside hst

/-- What cannot be stepped over at a nesting either closes the group around it or cannot be stepped
over there, for a bracket that matches nothing. -/
theorem Nesting.step_within_of_error {n : Nesting} {c : Char} {e : Cause}
    (h : n.step c = .error e) (b : Bracket) :
    n = .top ∧ c = b.closer ∧ (n.within b).step c = .ok .top ∨
      (c = b.closer → n ≠ .top) ∧ ∃ d, (n.within b).step c = .error (.mismatchedCloser d) := by
  obtain ⟨d, rfl, hst, hbs | ⟨f, bs, hbs, hfd, -⟩⟩ := Nesting.step_eq_error h
  · have hn : n = .top := by
      rcases n with ⟨bs, st⟩
      rw [Nesting.top, ← hst, ← hbs.1]
    subst hn
    rw [within, top, List.nil_append, Nesting.step_closer, Nesting.close]
    by_cases hbd : b = d
    · subst hbd
      exact Or.inl ⟨rfl, rfl, if_pos rfl⟩
    · refine Or.inr ⟨fun hc => absurd (closer_injective hc).symm hbd, d, if_neg hbd⟩
  · refine Or.inr ⟨fun _ hn => ?_, d, ?_⟩
    · rw [hn] at hbs
      simp [Nesting.top] at hbs
    · rcases n with ⟨_, _⟩
      subst hst hbs
      rw [within, List.cons_append, Nesting.step_closer, Nesting.close, if_neg hfd]

/-- A scan inside of a group takes a text that completes its nesting, up to the bracket that closes
the group. -/
theorem takeGroupFrom_eq_ok_iff {outermost b : Bracket} {n : Nesting}
    {text inside after : List Char} :
    takeGroupFrom outermost (n.within b) text = .ok (inside, after) ↔
      text = inside ++ b.closer :: after ∧ Completes true n inside := by
  induction text generalizing n inside with
  | nil =>
    refine iff_of_false (by simp [takeGroupFrom]) ?_
    rintro ⟨h, -⟩
    simp at h
  | cons c rest ih =>
    rw [takeGroupFrom]
    cases hstep : n.step c with
    | ok m =>
      have hne : (m.within b).brackets.isEmpty = false := by
        simp [Nesting.within]
      simp only [Nesting.step_within_of_ok hstep b, hne, Bool.false_eq_true, if_false,
        map_eq_ok_iff]
      constructor
      · rintro ⟨⟨inside', after'⟩, hr, heq⟩
        obtain ⟨rfl, rfl⟩ := Prod.mk.inj heq
        obtain ⟨rfl, hin⟩ := ih.mp hr
        exact ⟨rfl, completes_cons_iff.mpr ⟨fun _ _ => rfl, m, hstep, hin⟩⟩
      · rintro ⟨htext, hin⟩
        cases inside with
        | nil =>
          -- the closing bracket cannot be stepped over at the top
          obtain ⟨rfl, -⟩ := List.cons.inj htext
          rw [completes_nil_iff.mp hin, Nesting.top, Nesting.step_closer] at hstep
          simp [Nesting.close] at hstep
        | cons d inside =>
          obtain ⟨rfl, rfl⟩ := List.cons.inj htext
          obtain ⟨-, m', hm', hin⟩ := completes_cons_iff.mp hin
          rw [hstep] at hm'
          cases hm'
          exact ⟨(inside, after), ih.mpr ⟨rfl, hin⟩, rfl⟩
    | error e =>
      rcases Nesting.step_within_of_error hstep b with ⟨rfl, rfl, hclose⟩ | ⟨hc, d, hd⟩
      · simp only [hclose]
        rw [if_pos (by rfl), Except.ok.injEq, Prod.mk.injEq]
        constructor
        · rintro ⟨rfl, rfl⟩
          exact ⟨rfl, .nil⟩
        · rintro ⟨htext, hin⟩
          cases inside with
          | nil => exact ⟨rfl, (List.cons.inj htext).2⟩
          | cons d inside =>
            obtain ⟨rfl, -⟩ := List.cons.inj htext
            exact absurd hin (not_completes_cons_of_step hstep)
      · simp only [hd]
        refine iff_of_false (by simp) ?_
        rintro ⟨htext, hin⟩
        cases inside with
        | nil =>
          obtain ⟨rfl, -⟩ := List.cons.inj htext
          exact hc rfl (completes_nil_iff.mp hin)
        | cons d inside =>
          obtain ⟨rfl, -⟩ := List.cons.inj htext
          exact absurd hin (not_completes_cons_of_step hstep)

/-- **Taking a group.** What is taken is a balanced text, and the bracket of the group closes it. -/
theorem takeGroup_eq_ok_iff {b : Bracket} {text inside after : List Char} :
    takeGroup b text = .ok (inside, after) ↔
      text = inside ++ b.closer :: after ∧ Balanced true inside :=
  takeGroupFrom_eq_ok_iff (n := .top)

/-! ## Cutting at commas -/

/-- Every part but the first has a separator in front. -/
theorem intercalate_cons_eq (sep p : List Char) (ps : List (List Char)) :
    sep.intercalate (p :: ps) = p ++ ps.flatMap (sep ++ ·) := by
  induction ps generalizing p with
  | nil => simp
  | cons q ps ih =>
    rw [List.intercalate_cons_cons, ih q, List.flatMap_cons, List.append_assoc, List.append_assoc]

theorem intercalate_nil_cons (q : List Char) (ps : List (List Char)) :
    [','].intercalate ([] :: q :: ps) = ',' :: [','].intercalate (q :: ps) := by
  simp [List.intercalate]

theorem nil_eq_intercalate_iff {p : List Char} {ps : List (List Char)} :
    [] = [','].intercalate (p :: ps) ↔ p = [] ∧ ps = [] := by
  cases ps with
  | nil => simp [eq_comm]
  | cons q qs => simp [List.intercalate_cons_cons]

/-- The first character of joined pieces is a comma behind an empty piece, or it is the first one of
the first piece. -/
theorem cons_eq_intercalate_iff {c : Char} {rest p : List Char} {ps : List (List Char)} :
    c :: rest = [','].intercalate (p :: ps) ↔
      (p = [] ∧ c = ',' ∧ ∃ q qs, ps = q :: qs ∧ rest = [','].intercalate (q :: qs)) ∨
        ∃ p', p = c :: p' ∧ rest = [','].intercalate (p' :: ps) := by
  cases p with
  | nil =>
    cases ps with
    | nil => simp
    | cons q qs => simp
  | cons d p =>
    rw [List.intercalate_cons_cons_left]
    constructor
    · intro h
      obtain ⟨rfl, rfl⟩ := List.cons.inj h
      exact Or.inr ⟨p, rfl, rfl⟩
    · rintro (⟨h, -⟩ | ⟨p', h, rfl⟩)
      · simp at h
      · obtain ⟨rfl, rfl⟩ := List.cons.inj h
        rfl

theorem finish_eq_ok_iff {n : Nesting} : n.finish = .ok () ↔ n = .top := by
  rcases n with ⟨bs, st⟩
  cases h : bs.getLast? with
  | none =>
    rw [List.getLast?_eq_none_iff] at h
    subst h
    cases st <;> simp [Nesting.finish, Nesting.top]
  | some b =>
    have hne : bs ≠ [] := by
      rintro rfl
      simp at h
    simp [Nesting.finish, h, Nesting.top, hne]

/-- A scan at a nesting cuts a text into pieces, the first of which completes the nesting. -/
theorem splitAtCommasFrom_eq_ok_iff {n : Nesting} {text : List Char} {pieces : List (List Char)} :
    splitAtCommasFrom n text = .ok pieces ↔
      ∃ p ps, pieces = p :: ps ∧ text = [','].intercalate (p :: ps) ∧ Completes false n p ∧
        ∀ q ∈ ps, Balanced false q := by
  induction text generalizing n pieces with
  | nil =>
    rw [splitAtCommasFrom, map_eq_ok_iff]
    constructor
    · rintro ⟨_, hn, rfl⟩
      exact ⟨[], [], rfl, rfl, completes_nil_iff.mpr (finish_eq_ok_iff.mp hn), by simp⟩
    · rintro ⟨p, ps, rfl, htext, hp, -⟩
      obtain ⟨rfl, rfl⟩ := nil_eq_intercalate_iff.mp htext
      exact ⟨(), finish_eq_ok_iff.mpr (completes_nil_iff.mp hp), rfl⟩
  | cons c rest ih =>
    rw [splitAtCommasFrom]
    by_cases hcomma : (n.isTop && c == ',') = true
    · -- a comma at the top ends a piece
      rw [if_pos hcomma, map_eq_ok_iff]
      rw [Bool.and_eq_true, beq_iff_eq, Nesting.isTop_iff] at hcomma
      obtain ⟨rfl, rfl⟩ := hcomma
      constructor
      · rintro ⟨pieces', hr, rfl⟩
        obtain ⟨p, ps, rfl, rfl, hp, hps⟩ := ih.mp hr
        exact ⟨[], p :: ps, rfl, (intercalate_nil_cons p ps).symm, .nil,
          List.forall_mem_cons.mpr ⟨hp, hps⟩⟩
      · rintro ⟨p, ps, rfl, htext, hp, hps⟩
        rcases cons_eq_intercalate_iff.mp htext with ⟨rfl, -, q, qs, rfl, hrest⟩ | ⟨p, rfl, -⟩
        · obtain ⟨hq, hqs⟩ := List.forall_mem_cons.mp hps
          exact ⟨q :: qs, ih.mpr ⟨q, qs, rfl, hrest, hq, hqs⟩, rfl⟩
        · exact absurd ((completes_cons_iff.mp hp).1 rfl rfl) Bool.false_ne_true
    · -- every other character belongs to the first piece
      rw [if_neg hcomma]
      have hnot : n.isTop = true → c = ',' → false = true := by
        intro hn hc
        simp [hn, hc] at hcomma
      constructor
      · intro h
        split at h
        · simp at h
        · next m hstep =>
          rw [map_eq_ok_iff] at h
          obtain ⟨pieces', hr, rfl⟩ := h
          obtain ⟨p, ps, rfl, rfl, hp, hps⟩ := ih.mp hr
          exact ⟨c :: p, ps, rfl, List.intercalate_cons_cons_left.symm,
            completes_cons_iff.mpr ⟨hnot, m, hstep, hp⟩, hps⟩
      · rintro ⟨p, ps, rfl, htext, hp, hps⟩
        rcases cons_eq_intercalate_iff.mp htext with ⟨rfl, hc, -⟩ | ⟨p, rfl, hrest⟩
        · have hn := Nesting.isTop_iff.mpr (completes_nil_iff.mp hp)
          exact absurd (hnot hn hc) Bool.false_ne_true
        · obtain ⟨-, m, hstep, hp⟩ := completes_cons_iff.mp hp
          rw [hstep]
          exact map_eq_ok_iff.mpr ⟨p :: ps, ih.mpr ⟨p, ps, rfl, hrest, hp, hps⟩, rfl⟩

/-- **Cutting at commas.** The pieces are balanced and have no comma outside of groups and
literals; with commas between them they make up the text. -/
theorem splitAtCommas_eq_ok_iff {text : List Char} {pieces : List (List Char)} :
    splitAtCommas text = .ok pieces ↔
      pieces ≠ [] ∧ text = [','].intercalate pieces ∧ ∀ p ∈ pieces, Balanced false p := by
  rw [splitAtCommas, splitAtCommasFrom_eq_ok_iff]
  constructor
  · rintro ⟨p, ps, rfl, htext, hp, hps⟩
    exact ⟨by simp, htext, List.forall_mem_cons.mpr ⟨hp, hps⟩⟩
  · rintro ⟨hne, htext, hall⟩
    cases pieces with
    | nil => exact absurd rfl hne
    | cons p ps =>
      obtain ⟨hp, hps⟩ := List.forall_mem_cons.mp hall
      exact ⟨p, ps, rfl, htext, hp, hps⟩

/-- A text that completes a nesting can be cut. -/
theorem exists_splitAtCommasFrom {n : Nesting} {text : List Char} (h : Completes true n text) :
    ∃ pieces, splitAtCommasFrom n text = .ok pieces := by
  induction text generalizing n with
  | nil => exact ⟨[[]], by rw [completes_nil_iff.mp h]; rfl⟩
  | cons c rest ih =>
    obtain ⟨-, m, hstep, hrest⟩ := completes_cons_iff.mp h
    rw [splitAtCommasFrom]
    split
    · next hcomma =>
      rw [Bool.and_eq_true, beq_iff_eq, Nesting.isTop_iff] at hcomma
      obtain ⟨rfl, rfl⟩ := hcomma
      rw [Nesting.top, Nesting.step_plain isPlain_comma] at hstep
      cases hstep
      obtain ⟨pieces, hr⟩ := ih hrest
      exact ⟨[] :: pieces, map_eq_ok_iff.mpr ⟨pieces, hr, rfl⟩⟩
    · obtain ⟨pieces, hr⟩ := ih hrest
      rw [hstep]
      exact ⟨Text.consToFirst c pieces, map_eq_ok_iff.mpr ⟨pieces, hr, rfl⟩⟩

/-- What stands inside of a group can be cut at its commas. -/
theorem exists_splitAtCommas {text : List Char} (h : Balanced true text) :
    ∃ pieces, splitAtCommas text = .ok pieces :=
  exists_splitAtCommasFrom (n := .top) h

end SchemaDiagram
