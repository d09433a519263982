import SchemaDiagram.Proofs.Scan.Attribute

/-!
# Scanning by position

The scanners of attributes consume lists and cannot run out of their text. Here the same scans go by
positions of one text that never changes, and each step that looks something up may fail to find it:
a character past the end, what closes a character that opens nothing, the innermost of no open
brackets. `runFrom_eq` says that for every text both scans come to the same outcome, so none of
these lookups ever fails.
-/

namespace SchemaDiagram

/-- Why a scan by position stops without a result. Only the last of these is an error of the
text. -/
inductive ScanFault where
  /-- There is no character at the position. -/
  | pastEnd
  /-- The character opens no bracket, so nothing closes it. -/
  | notAnOpener
  /-- No bracket is open, so there is no innermost one. -/
  | nothingOpen
  /-- The text has an error. -/
  | schema (cause : Cause)
  deriving DecidableEq, Repr

/-! ## The scans -/

section

variable (text : List Char)

/-- The stretch of the text from one position up to another. -/
def stretch (start stop : Nat) : List Char :=
  (text.drop start).take (stop - start)

theorem lt_length_of_getElem? {i : Nat} {c : Char} (h : text[i]? = some c) : i < text.length :=
  (List.getElem?_eq_some_iff.mp h).1

/-- The position of the bracket that leaves none open, from a position at which the given ones are
open. -/
def closingFrom (outermost : Bracket) (stack : List Bracket) (inLiteral : Bool) (i : Nat) :
    Except ScanFault Nat :=
  match _h : text[i]? with
  | none => .error (.schema (.unclosedGroup outermost))
  | some c =>
    if inLiteral then
      if c = '\\' then closingFrom outermost stack true (i + 2)
      else if c = '"' then closingFrom outermost stack false (i + 1)
      else closingFrom outermost stack true (i + 1)
    else if c = '"' then closingFrom outermost stack true (i + 1)
    else match Bracket.ofOpener? c, Bracket.ofCloser? c with
      | some b, _ => closingFrom outermost (b :: stack) false (i + 1)
      | none, none => closingFrom outermost stack false (i + 1)
      | none, some b => match stack with
        | [] => .error .nothingOpen
        | innermost :: others =>
          if innermost ≠ b then .error (.schema (.mismatchedCloser b))
          else if others.isEmpty then .ok i
          else closingFrom outermost others false (i + 1)
termination_by text.length - i
decreasing_by all_goals have := lt_length_of_getElem? text _h; omega

/-- The position of the bracket that closes the one at the given position. -/
def closingAt (start : Nat) : Except ScanFault Nat :=
  match text[start]? with
  | none => .error .pastEnd
  | some c => match Bracket.ofOpener? c with
    | none => .error .notAnOpener
    | some b => closingFrom text b [b] false (start + 1)

/-- The position of the next quote that is not escaped. -/
def literalEnd (i : Nat) : Option Nat :=
  match h : text[i]? with
  | none => none
  | some c =>
    if c = '"' then some i
    else if c = '\\' then literalEnd (i + 2)
    else literalEnd (i + 1)
termination_by text.length - i
decreasing_by all_goals have := lt_length_of_getElem? text h; omega

theorem le_of_literalEnd {i j : Nat} (h : literalEnd text i = some j) : i ≤ j := by
  fun_induction literalEnd text i with
  | case1 => simp at h
  | case2 => exact (Option.some.inj h).le
  | case3 i _ _ ih =>
    have := ih h
    omega
  | case4 i _ _ _ _ ih =>
    have := ih h
    omega

theorem le_of_closingFrom {outermost : Bracket} {stack : List Bracket} {inLiteral : Bool}
    {i j : Nat} (h : closingFrom text outermost stack inLiteral i = .ok j) : i ≤ j := by
  fun_induction closingFrom text outermost stack inLiteral i <;> grind

theorem lt_of_closingAt {start j : Nat} (h : closingAt text start = .ok j) : start < j := by
  rw [closingAt] at h
  split at h
  · simp at h
  · split at h
    · simp at h
    · exact le_of_closingFrom text h

/-- The pieces of the text between its top-level commas, from a position on. The piece that is being
read starts at `current`. -/
def piecesFrom (pieces : List (List Char)) (current i : Nat) :
    Except ScanFault (List (List Char)) :=
  match _h : text[i]? with
  | none => .ok (pieces ++ [text.drop current])
  | some c =>
    if c = '"' then
      match hl : literalEnd text (i + 1) with
      | none => .error (.schema .unterminatedLiteral)
      | some j => piecesFrom pieces current (j + 1)
    else if (Bracket.ofOpener? c).isSome then
      match hg : closingAt text i with
      | .error e => .error e
      | .ok j => piecesFrom pieces current (j + 1)
    else match Bracket.ofCloser? c with
      | some b => .error (.schema (.unexpectedCloser b))
      | none =>
        if c = ',' then piecesFrom (pieces ++ [stretch text current i]) (i + 1) (i + 1)
        else piecesFrom pieces current (i + 1)
termination_by text.length - i
decreasing_by
  · have := lt_length_of_getElem? text _h
    have := le_of_literalEnd text hl
    omega
  · have := lt_length_of_getElem? text _h
    have := lt_of_closingAt text hg
    omega
  · have := lt_length_of_getElem? text _h
    omega
  · have := lt_length_of_getElem? text _h
    omega

/-- The arguments in the text. -/
def argumentsOf : Except ScanFault (List Argument) :=
  (piecesFrom text [] 0 0).map (List.filterMap Argument.ofPiece)

/-- The name of the attribute at the given position, and the position behind it. -/
def nameAt (pos : Nat) : Option (List Char × Nat) :=
  match text[pos]? with
  | some '@' => (Attribute.readName (text.drop (pos + 1))).map fun r => (r.1, pos + 1 + r.1.length)
  | _ => none

theorem lt_of_nameAt {pos : Nat} {r : List Char × Nat} (h : nameAt text pos = some r) :
    pos < r.2 := by
  rw [nameAt] at h
  split at h
  · obtain ⟨name, -, rfl⟩ := Option.map_eq_some_iff.mp h
    simp only
    omega
  · simp at h

/-- The run of attributes from a position on. -/
def runFrom (pos : Nat) : Except ScanFault (List Attribute) :=
  match _h : text[pos]? with
  | none => .ok []
  | some c =>
    if Text.isBlank c then runFrom (pos + 1)
    else match _hn : nameAt text pos with
      | none => .error (.schema (.unexpectedText (String.ofList (Text.stripEnd (text.drop pos)))))
      | some (name, stop) =>
        if text[stop]? = some '(' then
          match _hg : closingAt text stop with
          | .error e => .error e
          | .ok j => match argumentsOf (stretch text (stop + 1) j) with
            | .error e => .error e
            | .ok args =>
              (runFrom (j + 1)).map ({ name := String.ofList name, arguments := args } :: ·)
        else (runFrom stop).map ({ name := String.ofList name } :: ·)
termination_by text.length - pos
decreasing_by
  · have := lt_length_of_getElem? text _h
    omega
  · have := lt_length_of_getElem? text _h
    have := lt_of_nameAt text _hn
    have := lt_of_closingAt text _hg
    simp only at *
    omega
  · have := lt_length_of_getElem? text _h
    have := lt_of_nameAt text _hn
    simp only at *
    omega

end

/-! ## Positions and what is left of the text -/

theorem drop_eq_cons {text : List Char} {i : Nat} {c : Char} (h : text[i]? = some c) :
    text.drop i = c :: text.drop (i + 1) := by
  obtain ⟨hlt, rfl⟩ := List.getElem?_eq_some_iff.mp h
  exact List.drop_eq_getElem_cons hlt

theorem drop_eq_nil {text : List Char} {i : Nat} (h : text[i]? = none) : text.drop i = [] :=
  List.drop_eq_nil_of_le (List.getElem?_eq_none_iff.mp h)

/-! ## Closing brackets -/

/-- The position at which a group was found to end. -/
def foundAt (i : Nat) : Except Cause (List Char × List Char) → Except ScanFault Nat
  | .error e => .error (.schema e)
  | .ok r => .ok (i + r.1.length)

theorem foundAt_map_cons (i : Nat) (c : Char) (x : Except Cause (List Char × List Char)) :
    foundAt i (x.map fun r => (c :: r.1, r.2)) = foundAt (i + 1) x := by
  cases x with
  | error e => rfl
  | ok r =>
    rw [Except.map, foundAt, foundAt, List.length_cons]
    congr 1
    omega

/-- A character that leaves a bracket open moves the search by one position. -/
theorem foundAt_takeGroupFrom_cons {outermost : Bracket} {n m : Nesting} {c : Char} {i : Nat}
    {rest : List Char} (h : n.step c = .ok m) (hm : m.brackets ≠ []) :
    foundAt i (takeGroupFrom outermost n (c :: rest)) =
      foundAt (i + 1) (takeGroupFrom outermost m rest) := by
  rw [takeGroupFrom, h, ← foundAt_map_cons i c]
  simp only [List.isEmpty_iff, if_neg hm]

/-- The state of a scan that only knows whether it is in a literal. -/
def LiteralState.ofBool (inLiteral : Bool) : LiteralState :=
  if inLiteral then .inside else .outside

/-- Closing the innermost of the open brackets. -/
theorem step_closer_ofBool (b innermost : Bracket) (others : List Bracket) :
    Nesting.step ⟨innermost :: others, .ofBool false⟩ b.closer =
      if innermost = b then .ok ⟨others, .outside⟩ else .error (.mismatchedCloser b) := by
  rw [LiteralState.ofBool, if_neg Bool.false_ne_true, Nesting.step_closer, Nesting.close]

/-- An escaped character moves the search by two positions, past the end of the text or not. -/
theorem foundAt_takeGroupFrom_escape {outermost : Bracket} {stack : List Bracket} {text : List Char}
    {i : Nat} (h : text[i]? = some '\\') (hstack : stack ≠ []) :
    foundAt i (takeGroupFrom outermost ⟨stack, .inside⟩ (text.drop i)) =
      foundAt (i + 2) (takeGroupFrom outermost ⟨stack, .inside⟩ (text.drop (i + 2))) := by
  rw [drop_eq_cons h, foundAt_takeGroupFrom_cons (Nesting.step_inside (by decide) _) hstack]
  cases hnext : text[i + 1]? with
  | none =>
    have hend : text[i + 2]? = none := by
      rw [List.getElem?_eq_none_iff] at hnext ⊢
      omega
    rw [drop_eq_nil hnext, drop_eq_nil hend]
    rfl
  | some c =>
    rw [drop_eq_cons hnext, foundAt_takeGroupFrom_cons (Nesting.step_inside (by decide) _) hstack]
    rfl

/-- **Looking for a closing bracket by position.** As long as a bracket is open, none is taken off
that is not there. -/
theorem closingFrom_eq (text : List Char) {outermost : Bracket} {stack : List Bracket}
    {inLiteral : Bool} {i : Nat} (hstack : stack ≠ []) :
    closingFrom text outermost stack inLiteral i =
      foundAt i (takeGroupFrom outermost ⟨stack, .ofBool inLiteral⟩ (text.drop i)) := by
  fun_induction closingFrom text outermost stack inLiteral i with
  | case1 stack inLiteral i hend =>
    rw [drop_eq_nil hend]
    rfl
  | case2 stack i hchar ih =>
    rw [ih hstack]
    exact (foundAt_takeGroupFrom_escape hchar hstack).symm
  | case3 stack i hchar _ ih =>
    rw [drop_eq_cons hchar, ih hstack,
      foundAt_takeGroupFrom_cons (Nesting.step_inside (by decide) _) hstack]
    rfl
  | case4 stack i c hchar hslash hquote ih =>
    have hnext : (LiteralState.ofBool true).next c = .ofBool true := by
      rw [LiteralState.ofBool, if_pos rfl, LiteralState.next, if_neg hquote, if_neg hslash]
    rw [drop_eq_cons hchar, ih hstack,
      foundAt_takeGroupFrom_cons (Nesting.step_inside (by decide) _) hstack, hnext]
  | case5 stack inLiteral i hout hchar ih =>
    rw [Bool.not_eq_true] at hout
    subst hout
    rw [drop_eq_cons hchar, ih hstack]
    exact (foundAt_takeGroupFrom_cons Nesting.step_quote hstack).symm
  | case6 stack inLiteral i c hchar hout _ b hb ih =>
    rw [Bool.not_eq_true] at hout
    subst hout
    obtain rfl := Bracket.ofOpener?_eq_some_iff.mp hb
    rw [drop_eq_cons hchar, ih (List.cons_ne_nil b stack)]
    exact (foundAt_takeGroupFrom_cons (Nesting.step_opener b) (List.cons_ne_nil b stack)).symm
  | case7 stack inLiteral i c hchar hout hquote hcloser hopener ih =>
    rw [Bool.not_eq_true] at hout
    subst hout
    rw [drop_eq_cons hchar, ih hstack]
    exact (foundAt_takeGroupFrom_cons (Nesting.step_plain ⟨hopener, hcloser, hquote⟩) hstack).symm
  | case8 => exact absurd rfl hstack
  | case9 inLiteral i c hchar hout _ b hcloser _ innermost others hne =>
    rw [Bool.not_eq_true] at hout
    subst hout
    obtain rfl := Bracket.ofCloser?_eq_some_iff.mp hcloser
    rw [drop_eq_cons hchar, takeGroupFrom, step_closer_ofBool, if_neg hne]
    rfl
  | case10 inLiteral i c hchar hout _ b hcloser _ innermost others heq hothers =>
    rw [Bool.not_eq_true] at hout
    subst hout
    obtain rfl := Bracket.ofCloser?_eq_some_iff.mp hcloser
    rw [drop_eq_cons hchar, takeGroupFrom, step_closer_ofBool, if_pos (not_not.mp heq)]
    simp [hothers, foundAt]
  | case11 inLiteral i c hchar hout _ b hcloser _ innermost others heq hothers ih =>
    rw [Bool.not_eq_true] at hout
    subst hout
    obtain rfl := Bracket.ofCloser?_eq_some_iff.mp hcloser
    have hstep : Nesting.step ⟨innermost :: others, .ofBool false⟩ b.closer =
        .ok ⟨others, .outside⟩ := by
      rw [step_closer_ofBool, if_pos (not_not.mp heq)]
    rw [List.isEmpty_iff] at hothers
    rw [drop_eq_cons hchar, ih hothers]
    exact (foundAt_takeGroupFrom_cons hstep hothers).symm

/-- Looking for what closes a bracket finds it, and is never told that there is no bracket. -/
theorem closingAt_eq {text : List Char} {start : Nat} {b : Bracket}
    (h : text[start]? = some b.opener) :
    closingAt text start = foundAt (start + 1) (takeGroup b (text.drop (start + 1))) := by
  rw [closingAt, h]
  simp only [Bracket.ofOpener?_opener]
  exact closingFrom_eq text (List.cons_ne_nil b [])

/-! ## Pieces between commas -/

theorem stretch_self (text : List Char) (i : Nat) : stretch text i i = [] := by
  rw [stretch, Nat.sub_self, List.take_zero]

theorem stretch_append (text : List Char) {i j k : Nat} (hij : i ≤ j) (hjk : j ≤ k) :
    stretch text i j ++ stretch text j k = stretch text i k := by
  have hsum : k - i = (j - i) + (k - j) := by omega
  have hdrop : text.drop j = (text.drop i).drop (j - i) := by
    rw [List.drop_drop]
    congr 1
    omega
  rw [stretch, stretch, stretch, hsum, List.take_add, hdrop]

theorem stretch_succ {text : List Char} {i : Nat} {c : Char} (h : text[i]? = some c) :
    stretch text i (i + 1) = [c] := by
  rw [stretch, drop_eq_cons h, Nat.add_sub_cancel_left]
  rfl

/-- Puts a text in front of the first piece. -/
def joinToFirst (s : List Char) (ps : List (List Char)) : List (List Char) :=
  s.foldr Text.consToFirst ps

theorem joinToFirst_cons (s p : List Char) (ps : List (List Char)) :
    joinToFirst s (p :: ps) = (s ++ p) :: ps := by
  induction s with
  | nil => rfl
  | cons c s ih =>
    rw [joinToFirst] at ih ⊢
    rw [List.foldr_cons, ih]
    rfl

theorem joinToFirst_joinToFirst (s t : List Char) (ps : List (List Char)) :
    joinToFirst s (joinToFirst t ps) = joinToFirst (s ++ t) ps := by
  rw [joinToFirst, joinToFirst, joinToFirst, List.foldr_append]

theorem map_joinToFirst (s t : List Char) (x : Except Cause (List (List Char))) :
    (x.map (joinToFirst t)).map (joinToFirst s) = x.map (joinToFirst (s ++ t)) := by
  cases x with
  | error e => rfl
  | ok ps => exact congrArg Except.ok (joinToFirst_joinToFirst s t ps)

theorem splitAtCommasFrom_cons {n m : Nesting} {c : Char} {rest : List Char}
    (hcomma : n.isTop = true → c ≠ ',') (h : n.step c = .ok m) :
    splitAtCommasFrom n (c :: rest) = (splitAtCommasFrom m rest).map (joinToFirst [c]) := by
  have hcond : (n.isTop && c == ',') = false := by
    rw [Bool.and_eq_false_iff]
    by_cases htop : n.isTop = true
    · exact Or.inr (by simpa using hcomma htop)
    · exact Or.inl (by simpa using htop)
  rw [splitAtCommasFrom, hcond, h]
  rfl

/-- A step inside of a group either ends it or keeps the outermost bracket. -/
theorem Nesting.step_getLast? {n m : Nesting} {c : Char} {o : Bracket} (h : n.step c = .ok m)
    (ho : n.brackets.getLast? = some o) : m = .top ∨ m.brackets.getLast? = some o := by
  cases step_eq_ok_iff.mp h with
  | plain _ => exact Or.inr ho
  | quote => exact Or.inr ho
  | @opener bs b =>
    have hne : bs ≠ [] := by
      rintro rfl
      simp at ho
    exact Or.inr (by rwa [List.getLast?_cons_of_ne_nil hne])
  | @closer bs b =>
    cases bs with
    | nil => exact Or.inl rfl
    | cons d bs => exact Or.inr (by rwa [List.getLast?_cons_cons] at ho)
  | inside _ => exact Or.inr ho

/-- Cutting at commas goes through a group as taking the group does. -/
theorem splitAtCommasFrom_of_group {n : Nesting} {o : Bracket} (ho : n.brackets.getLast? = some o)
    (s : List Char) :
    splitAtCommasFrom n s = match takeGroupFrom o n s with
      | .error e => .error e
      | .ok r => (splitAtCommasFrom .top r.2).map (joinToFirst (s.take (r.1.length + 1))) := by
  induction s generalizing n with
  | nil =>
    rw [splitAtCommasFrom, Nesting.finish, ho]
    rfl
  | cons c rest ih =>
    have hbrackets : n.brackets.isEmpty = false := by
      rw [Bool.eq_false_iff, ne_eq, List.isEmpty_iff]
      intro hnil
      rw [hnil] at ho
      simp at ho
    have htop : n.isTop = false := by rw [Nesting.isTop, hbrackets, Bool.false_and]
    cases hstep : n.step c with
    | error e =>
      rw [splitAtCommasFrom, takeGroupFrom, htop, hstep]
      rfl
    | ok m =>
      rw [splitAtCommasFrom_cons (by rw [htop]; simp) hstep, takeGroupFrom, hstep]
      rcases Nesting.step_getLast? hstep ho with rfl | hm
      · rfl
      · have hmbrackets : m.brackets.isEmpty = false := by
          rw [Bool.eq_false_iff, ne_eq, List.isEmpty_iff]
          intro hnil
          rw [hnil] at hm
          simp at hm
        rw [ih hm]
        simp only [hmbrackets, Bool.false_eq_true, if_false]
        cases takeGroupFrom o m rest with
        | error e => rfl
        | ok r => exact map_joinToFirst [c] (rest.take (r.1.length + 1)) _

/-- The pieces of the rest of the text, where the first one starts at `current`. -/
def piecesAt (text : List Char) (n : Nesting) (current i : Nat) : Except Cause (List (List Char)) :=
  (splitAtCommasFrom n (text.drop i)).map (joinToFirst (stretch text current i))

/-- A character that is no top-level comma joins the piece that is being read. -/
theorem piecesAt_succ {text : List Char} {n m : Nesting} {c : Char} {current i : Nat}
    (hchar : text[i]? = some c) (hle : current ≤ i) (hcomma : n.isTop = true → c ≠ ',')
    (hstep : n.step c = .ok m) : piecesAt text n current i = piecesAt text m current (i + 1) := by
  rw [piecesAt, piecesAt, drop_eq_cons hchar, splitAtCommasFrom_cons hcomma hstep,
    map_joinToFirst, ← stretch_succ hchar, stretch_append text hle (by omega)]

/-- Inside of a literal no comma counts. -/
theorem piecesAt_succ_inside {text : List Char} {st : LiteralState} {c : Char} {current i : Nat}
    (hchar : text[i]? = some c) (hle : current ≤ i) (hst : st ≠ .outside) :
    piecesAt text ⟨[], st⟩ current i = piecesAt text ⟨[], st.next c⟩ current (i + 1) := by
  refine piecesAt_succ hchar hle (fun htop => ?_) (Nesting.step_inside hst c)
  exact absurd (congrArg Nesting.literal (Nesting.isTop_iff.mp htop)) hst

/-- Cutting at commas goes through a literal up to its end. -/
theorem piecesAt_of_literal (text : List Char) {current i : Nat} (hle : current ≤ i) :
    piecesAt text ⟨[], .inside⟩ current i = match literalEnd text i with
      | none => .error .unterminatedLiteral
      | some j => piecesAt text .top current (j + 1) := by
  fun_induction literalEnd text i with
  | case1 i hend =>
    rw [piecesAt, drop_eq_nil hend]
    rfl
  | case2 i hchar => exact piecesAt_succ_inside hchar hle (by decide)
  | case3 i hchar hquote ih =>
    rw [piecesAt_succ_inside hchar hle (by decide), ← ih (by omega)]
    cases hnext : text[i + 1]? with
    | none =>
      have hend : text[i + 2]? = none := by
        rw [List.getElem?_eq_none_iff] at hnext ⊢
        omega
      rw [piecesAt, piecesAt, drop_eq_nil hnext, drop_eq_nil hend]
      rfl
    | some c => exact piecesAt_succ_inside hnext (by omega) (by decide)
  | case4 i c hchar hquote hslash ih =>
    have hnext : LiteralState.inside.next c = .inside := by
      rw [LiteralState.next, if_neg hquote, if_neg hslash]
    rw [piecesAt_succ_inside hchar hle (by decide), hnext, ih (by omega)]

/-- A group that was taken ends where it was found to. -/
theorem drop_of_takeGroup {text : List Char} {b : Bracket} {i : Nat} {r : List Char × List Char}
    (h : takeGroup b (text.drop i) = .ok r) :
    r.1 = stretch text i (i + r.1.length) ∧ r.2 = text.drop (i + r.1.length + 1) := by
  obtain ⟨hdrop, -⟩ := takeGroup_eq_ok_iff.mp h
  constructor
  · rw [stretch, Nat.add_sub_cancel_left, hdrop, List.take_left']
    rfl
  · have hrest : text.drop (i + r.1.length + 1) = (text.drop i).drop (r.1.length + 1) := by
      rw [List.drop_drop]
      congr 1
    rw [hrest, hdrop, List.drop_append]
    simp

/-- Cutting at commas goes through a group up to its end. -/
theorem piecesAt_of_group {text : List Char} {b : Bracket} {current i : Nat} (hle : current ≤ i) :
    piecesAt text ⟨[b], .outside⟩ current i = match takeGroup b (text.drop i) with
      | .error e => .error e
      | .ok r => piecesAt text .top current (i + r.1.length + 1) := by
  have hsplit := splitAtCommasFrom_of_group (n := ⟨[b], .outside⟩) (o := b) rfl (text.drop i)
  rw [piecesAt, hsplit]
  change Except.map _ (match takeGroup b (text.drop i) with | .error e => _ | .ok r => _) = _
  cases htake : takeGroup b (text.drop i) with
  | error e => rfl
  | ok r =>
    have hstretch : (text.drop i).take (r.1.length + 1) = stretch text i (i + r.1.length + 1) := by
      rw [stretch]
      congr 1
      omega
    simp only
    rw [map_joinToFirst, (drop_of_takeGroup htake).2, hstretch, stretch_append text hle (by omega)]
    rfl

theorem piecesAt_of_quote {text : List Char} {current i : Nat} (hchar : text[i]? = some '"')
    (hle : current ≤ i) :
    piecesAt text .top current i = match literalEnd text (i + 1) with
      | none => .error .unterminatedLiteral
      | some j => piecesAt text .top current (j + 1) := by
  have hnext : current ≤ i + 1 := by omega
  have hstep : Nesting.top.step '"' = .ok ⟨[], .inside⟩ := Nesting.step_quote
  rw [← piecesAt_of_literal text hnext]
  exact piecesAt_succ hchar hle (fun _ => by decide) hstep

theorem piecesAt_of_opener {text : List Char} {b : Bracket} {current i : Nat}
    (hchar : text[i]? = some b.opener) (hle : current ≤ i) :
    piecesAt text .top current i = match takeGroup b (text.drop (i + 1)) with
      | .error e => .error e
      | .ok r => piecesAt text .top current (i + 1 + r.1.length + 1) := by
  have hnext : current ≤ i + 1 := by omega
  have hstep : Nesting.top.step b.opener = .ok ⟨[b], .outside⟩ := Nesting.step_opener b
  rw [← piecesAt_of_group hnext]
  exact piecesAt_succ hchar hle (fun _ => opener_ne_comma b) hstep

/-- **Cutting at commas by position.** -/
theorem piecesFrom_eq (text : List Char) (pieces : List (List Char)) {current i : Nat}
    (hle : current ≤ i) :
    piecesFrom text pieces current i =
      ((piecesAt text .top current i).mapError ScanFault.schema).map (pieces ++ ·) := by
  fun_induction piecesFrom text pieces current i with
  | case1 pieces current i hend =>
    have hlast : stretch text current i = text.drop current := by
      rw [stretch, List.take_of_length_le]
      rw [List.length_drop]
      rw [List.getElem?_eq_none_iff] at hend
      omega
    rw [piecesAt, drop_eq_nil hend, hlast]
    simp [splitAtCommasFrom, Nesting.finish, Nesting.top, Except.map, Except.mapError,
      joinToFirst_cons]
  | case2 pieces current i hliteral hchar =>
    rw [piecesAt_of_quote hchar hle, hliteral]
    rfl
  | case3 pieces current i j hliteral hchar ih =>
    have hj := le_of_literalEnd text hliteral
    rw [piecesAt_of_quote hchar hle, hliteral, ih (by omega)]
  | case4 pieces current i c hchar hquote hopener e hgroup =>
    obtain ⟨b, hb⟩ := Option.isSome_iff_exists.mp hopener
    obtain rfl := Bracket.ofOpener?_eq_some_iff.mp hb
    rw [closingAt_eq hchar] at hgroup
    rw [piecesAt_of_opener hchar hle]
    cases htake : takeGroup b (text.drop (i + 1)) with
    | error cause =>
      rw [htake, foundAt, Except.error.injEq] at hgroup
      rw [← hgroup]
      rfl
    | ok r => simp [htake, foundAt] at hgroup
  | case5 pieces current i c hchar hquote hopener j hgroup ih =>
    obtain ⟨b, hb⟩ := Option.isSome_iff_exists.mp hopener
    obtain rfl := Bracket.ofOpener?_eq_some_iff.mp hb
    have hj := lt_of_closingAt text hgroup
    rw [closingAt_eq hchar] at hgroup
    rw [piecesAt_of_opener hchar hle, ih (by omega)]
    cases htake : takeGroup b (text.drop (i + 1)) with
    | error cause => simp [htake, foundAt] at hgroup
    | ok r =>
      rw [htake, foundAt, Except.ok.injEq] at hgroup
      rw [← hgroup]
  | case6 pieces current i c hchar hquote hopener b hcloser =>
    obtain rfl := Bracket.ofCloser?_eq_some_iff.mp hcloser
    have hcomma : (b.closer == ',') = false := by cases b <;> rfl
    have hstep : Nesting.top.step b.closer = .error (.unexpectedCloser b) :=
      Nesting.step_closer b
    rw [piecesAt, drop_eq_cons hchar, splitAtCommasFrom, hcomma, Bool.and_false, hstep]
    rfl
  | case7 pieces current i hchar hquote hopener hcloser ih =>
    rw [ih (le_refl _), piecesAt, piecesAt, stretch_self, drop_eq_cons hchar, splitAtCommasFrom]
    cases splitAtCommasFrom .top (text.drop (i + 1)) with
    | error e => rfl
    | ok ps =>
      have hnil : joinToFirst [] ps = ps := rfl
      simp [Nesting.isTop, Nesting.top, Except.map, Except.mapError, joinToFirst_cons, hnil]
  | case8 pieces current i c hchar hquote hopener hcloser hcomma ih =>
    rw [Bool.not_eq_true, Option.isSome_eq_false_iff, Option.isNone_iff_eq_none] at hopener
    have hstep : Nesting.top.step c = .ok .top :=
      Nesting.step_plain ⟨hopener, hcloser, hquote⟩
    rw [ih (by omega), piecesAt_succ hchar hle (fun _ => hcomma) hstep]

theorem argumentsOf_eq (text : List Char) :
    argumentsOf text = (Argument.parseList text).mapError ScanFault.schema := by
  rw [argumentsOf, piecesFrom_eq text [] (le_refl 0), piecesAt, stretch_self, List.drop_zero,
    Argument.parseList, splitAtCommas]
  cases splitAtCommasFrom .top text <;> rfl

/-! ## Runs of attributes -/

theorem exists_takeGroup_of_closingAt_error {text : List Char} {b : Bracket} {start : Nat}
    {e : ScanFault} (hchar : text[start]? = some b.opener) (h : closingAt text start = .error e) :
    ∃ cause, takeGroup b (text.drop (start + 1)) = .error cause ∧ e = .schema cause := by
  rw [closingAt_eq hchar] at h
  cases htake : takeGroup b (text.drop (start + 1)) with
  | error cause =>
    rw [htake, foundAt, Except.error.injEq] at h
    exact ⟨cause, rfl, h.symm⟩
  | ok r => simp [htake, foundAt] at h

/-- What stands between a bracket and the one that closes it is the inside of the group. -/
theorem exists_takeGroup_of_closingAt_ok {text : List Char} {b : Bracket} {start j : Nat}
    (hchar : text[start]? = some b.opener) (h : closingAt text start = .ok j) :
    ∃ inside, takeGroup b (text.drop (start + 1)) = .ok (inside, text.drop (j + 1)) ∧
      stretch text (start + 1) j = inside := by
  rw [closingAt_eq hchar] at h
  cases htake : takeGroup b (text.drop (start + 1)) with
  | error cause => simp [htake, foundAt] at h
  | ok r =>
    rw [htake, foundAt, Except.ok.injEq] at h
    subst h
    obtain ⟨hinside, hrest⟩ := drop_of_takeGroup htake
    exact ⟨r.1, by rw [← hrest], hinside.symm⟩

theorem nameAt_eq_none {text : List Char} {pos : Nat} {c : Char} (hchar : text[pos]? = some c)
    (h : nameAt text pos = none) :
    Attribute.read (text.drop pos) =
      .error (.unexpectedText (String.ofList (Text.stripEnd (text.drop pos)))) := by
  rw [nameAt, hchar] at h
  rw [drop_eq_cons hchar]
  split at h
  · next heq =>
    obtain rfl := Option.some.inj heq
    rw [Attribute.read, Option.map_eq_none_iff.mp h]
  · next hat =>
    rw [Attribute.read]
    rintro rest heq
    obtain ⟨rfl, -⟩ := List.cons.inj heq
    exact hat rfl

/-- The name that was read, and what is left of the text behind it. -/
theorem nameAt_eq_some {text name : List Char} {pos stop : Nat}
    (h : nameAt text pos = some (name, stop)) :
    text.drop pos = '@' :: text.drop (pos + 1) ∧
      Attribute.readName (text.drop (pos + 1)) = some (name, text.drop stop) := by
  rw [nameAt] at h
  split at h
  · next hchar =>
    obtain ⟨⟨name', rest⟩, hread, heq⟩ := Option.map_eq_some_iff.mp h
    obtain ⟨rfl, rfl⟩ := Prod.mk.inj heq
    refine ⟨drop_eq_cons hchar, ?_⟩
    obtain ⟨hdrop, -, -⟩ := Attribute.isAttributeName_of_readName hread
    have hrest : text.drop (pos + 1 + name'.length) = rest := by
      rw [← List.drop_drop, hdrop, List.drop_left']
      rfl
    rw [hrest]
    exact hread
  · simp at h

/-- An attribute with a list of arguments, which starts at `stop`. -/
theorem read_eq_of_paren {text name : List Char} {pos stop : Nat}
    (hname : nameAt text pos = some (name, stop)) (hparen : text[stop]? = some '(') :
    Attribute.read (text.drop pos) = match takeGroup .round (text.drop (stop + 1)) with
      | .error e => .error e
      | .ok (inside, rest) => (Argument.parseList inside).map fun args =>
          ({ name := String.ofList name, arguments := args }, rest) := by
  obtain ⟨hat, hread⟩ := nameAt_eq_some hname
  rw [hat, Attribute.read, hread, drop_eq_cons hparen]
  rfl

/-- An attribute without arguments. -/
theorem read_eq_of_not_paren {text name : List Char} {pos stop : Nat}
    (hname : nameAt text pos = some (name, stop)) (hparen : text[stop]? ≠ some '(') :
    Attribute.read (text.drop pos) = .ok ({ name := String.ofList name }, text.drop stop) := by
  obtain ⟨hat, hread⟩ := nameAt_eq_some hname
  rw [hat, Attribute.read, hread]
  cases hstop : text[stop]? with
  | none => rw [drop_eq_nil hstop]
  | some c =>
    rw [drop_eq_cons hstop]
    have hc : c ≠ '(' := by
      rintro rfl
      exact hparen hstop
    split
    · next heq =>
      rw [Option.some.injEq, Prod.mk.injEq, List.cons.injEq] at heq
      exact absurd heq.2.1 hc
    · next heq =>
      obtain ⟨rfl, rfl⟩ := Prod.mk.inj (Option.some.inj heq)
      rfl
    · next heq => simp at heq

theorem parseRun_drop_of_blank {text : List Char} {pos : Nat} {c : Char}
    (hchar : text[pos]? = some c) (hblank : Text.isBlank c = true) :
    Attribute.parseRun (text.drop pos) = Attribute.parseRun (text.drop (pos + 1)) := by
  have hstrip : Text.stripStart (text.drop pos) = Text.stripStart (text.drop (pos + 1)) := by
    rw [drop_eq_cons hchar, ← List.singleton_append]
    exact Text.stripStart_gap_append (Text.isGap_cons.mpr ⟨hblank, Text.isGap_nil⟩)
  rw [Attribute.parseRun_eq, Attribute.parseRun_eq, hstrip]

theorem parseRun_drop_of_not_blank {text : List Char} {pos : Nat} {c : Char}
    (hchar : text[pos]? = some c) (hblank : ¬ Text.isBlank c = true) :
    Attribute.parseRun (text.drop pos) = match Attribute.read (text.drop pos) with
      | .error e => .error e
      | .ok (a, rest) => (Attribute.parseRun rest).map (a :: ·) := by
  rw [Bool.not_eq_true] at hblank
  have hstrip : Text.stripStart (text.drop pos) = c :: text.drop (pos + 1) := by
    rw [drop_eq_cons hchar]
    exact Text.stripStart_eq_self fun d hd => by
      rw [List.head?_cons, Option.mem_some_iff] at hd
      rwa [← hd]
  have hread : Attribute.read (text.drop pos) = Attribute.read (c :: text.drop (pos + 1)) := by
    rw [drop_eq_cons hchar]
  have hrun := Attribute.parseRun_eq (text.drop pos)
  rw [hstrip] at hrun
  rw [hread]
  exact hrun

/-- **Reading attributes by position.** Both scans come to the same outcome on every text, so the
one by position never looks anything up that is not there. -/
theorem runFrom_eq (text : List Char) (pos : Nat) :
    runFrom text pos = (Attribute.parseRun (text.drop pos)).mapError ScanFault.schema := by
  fun_induction runFrom text pos with
  | case1 pos hend =>
    rw [drop_eq_nil hend, Attribute.parseRun_nil]
    rfl
  | case2 pos c hchar hblank ih => rw [ih, parseRun_drop_of_blank hchar hblank]
  | case3 pos c hchar hblank hname =>
    rw [parseRun_drop_of_not_blank hchar hblank, nameAt_eq_none hchar hname]
    rfl
  | case4 pos c hchar hblank name stop hname hparen e hgroup =>
    obtain ⟨cause, htake, rfl⟩ := exists_takeGroup_of_closingAt_error (b := .round) hparen hgroup
    rw [parseRun_drop_of_not_blank hchar hblank, read_eq_of_paren hname hparen, htake]
    rfl
  | case5 pos c hchar hblank name stop hname hparen j hgroup e hargs =>
    obtain ⟨inside, htake, hinside⟩ := exists_takeGroup_of_closingAt_ok (b := .round) hparen hgroup
    rw [hinside, argumentsOf_eq] at hargs
    rw [parseRun_drop_of_not_blank hchar hblank, read_eq_of_paren hname hparen, htake]
    cases hlist : Argument.parseList inside with
    | error cause =>
      rw [hlist, Except.mapError, Except.error.injEq] at hargs
      rw [← hargs]
      simp [hlist, Except.map, Except.mapError]
    | ok args => simp [hlist, Except.mapError] at hargs
  | case6 pos c hchar hblank name stop hname hparen j hgroup args hargs ih =>
    obtain ⟨inside, htake, hinside⟩ := exists_takeGroup_of_closingAt_ok (b := .round) hparen hgroup
    rw [hinside, argumentsOf_eq] at hargs
    rw [parseRun_drop_of_not_blank hchar hblank, read_eq_of_paren hname hparen, htake, ih]
    cases hlist : Argument.parseList inside with
    | error cause => simp [hlist, Except.mapError] at hargs
    | ok args' =>
      rw [hlist, Except.mapError, Except.ok.injEq] at hargs
      rw [← hargs]
      simp only [hlist, Except.map]
      cases Attribute.parseRun (text.drop (j + 1)) <;> rfl
  | case7 pos c hchar hblank name stop hname hparen ih =>
    rw [parseRun_drop_of_not_blank hchar hblank, read_eq_of_not_paren hname hparen, ih]
    simp only
    cases Attribute.parseRun (text.drop stop) <;> rfl

end SchemaDiagram
