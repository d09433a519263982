import SchemaDiagram.Proofs.Scan.Position

/-!
# Where a group ends

A text is a single group if it is an opening bracket, a balanced text and the bracket that closes
it. Several groups can start with one text, but an opening bracket that stands in a text starts at
most one there, and `closingPosition` is where that one ends (`closingPosition_eq_ok_iff`). If it
starts none, the error is one of the text: a bracket that does not match or a group that does not
end, and nothing else (`takeGroup_eq_error`).

What is found depends on the group alone. The text above the bracket only moves the position
(`closingPosition_eq_map_drop`), and the text behind the group may be any other
(`IsGroupAt.take_append`).
-/

namespace SchemaDiagram

/-- Whether the text is a single group. -/
def IsGroup (s : List Char) : Prop :=
  ∃ b : Bracket, ∃ inside, s = b.opener :: (inside ++ [b.closer]) ∧ Balanced true inside

/-- Whether the characters from one position of the text to another, both included, are a single
group. -/
structure IsGroupAt (text : List Char) (start stop : Nat) : Prop where
  lt : start < stop
  lt_length : stop < text.length
  isGroup : IsGroup (stretch text start (stop + 1))

theorem Bracket.opener_injective {b d : Bracket} (h : b.opener = d.opener) : b = d := by
  have := congrArg Bracket.ofOpener? h
  simpa using this

/-- The first character of a group says which bracket it is in. -/
theorem isGroup_cons_opener_iff {b : Bracket} {s : List Char} :
    IsGroup (b.opener :: s) ↔ ∃ inside, s = inside ++ [b.closer] ∧ Balanced true inside := by
  constructor
  · rintro ⟨d, inside, hs, hin⟩
    obtain ⟨hopener, rfl⟩ := List.cons.inj hs
    rw [Bracket.opener_injective hopener]
    exact ⟨inside, rfl, hin⟩
  · rintro ⟨inside, rfl, hin⟩
    exact ⟨b, inside, rfl, hin⟩

variable {text : List Char} {start stop : Nat} {b : Bracket}

/-- **The group at a position** is what stands behind its opening bracket up to the first bracket
that closes it. -/
theorem isGroupAt_iff (h : text[start]? = some b.opener) :
    IsGroupAt text start stop ↔ ∃ inside after,
      text.drop (start + 1) = inside ++ b.closer :: after ∧ Balanced true inside ∧
        stop = start + 1 + inside.length := by
  have hstretch : ∀ n, stretch text start (start + 1 + n + 1) =
      b.opener :: (text.drop (start + 1)).take (n + 1) := by
    intro n
    have hlength : start + 1 + n + 1 - start = (n + 1) + 1 := by omega
    rw [stretch, drop_eq_cons h, hlength, List.take_succ_cons]
  constructor
  · rintro ⟨hlt, hlength, hgroup⟩
    obtain ⟨n, rfl⟩ : ∃ n, stop = start + 1 + n := ⟨stop - (start + 1), by omega⟩
    rw [hstretch, isGroup_cons_opener_iff] at hgroup
    obtain ⟨inside, htake, hin⟩ := hgroup
    have hn : inside.length = n := by
      have := congrArg List.length htake
      rw [List.length_take, List.length_drop, List.length_append, List.length_singleton] at this
      omega
    refine ⟨inside, (text.drop (start + 1)).drop (n + 1), ?_, hin, by rw [hn]⟩
    have hsplit := (List.take_append_drop (n + 1) (text.drop (start + 1))).symm
    rwa [htake, List.append_assoc, List.singleton_append] at hsplit
  · rintro ⟨inside, after, hdrop, hin, rfl⟩
    have hlength := congrArg List.length hdrop
    rw [List.length_drop, List.length_append, List.length_cons] at hlength
    refine ⟨by omega, by omega, ?_⟩
    rw [hstretch, isGroup_cons_opener_iff, hdrop]
    refine ⟨inside, ?_, hin⟩
    rw [List.take_append, List.take_of_length_le (Nat.le_succ _), Nat.add_sub_cancel_left]
    rfl

/-! ## The position that is found -/

theorem closingPosition_of_opener (h : text[start]? = some b.opener) :
    closingPosition text start = match takeGroup b (text.drop (start + 1)) with
      | .error e => .error (.noGroup e)
      | .ok r => .ok (start + 1 + r.1.length) := by
  rw [closingPosition, drop_eq_cons h]
  simp only [Bracket.ofOpener?_opener]
  cases takeGroup b (text.drop (start + 1)) <;> rfl

/-- **What is found is the end of the group.** -/
theorem closingPosition_eq_ok_iff (h : text[start]? = some b.opener) :
    closingPosition text start = .ok stop ↔ IsGroupAt text start stop := by
  rw [closingPosition_of_opener h, isGroupAt_iff h]
  constructor
  · intro hfound
    split at hfound
    · simp at hfound
    · next r htake =>
      obtain ⟨hdrop, hin⟩ := takeGroup_eq_ok_iff.mp htake
      exact ⟨r.1, r.2, hdrop, hin, (Except.ok.inj hfound).symm⟩
  · rintro ⟨inside, after, hdrop, hin, rfl⟩
    rw [takeGroup_eq_ok_iff.mpr ⟨hdrop, hin⟩]

/-- The text above the bracket only moves the position. -/
theorem closingPosition_eq_map_drop (text : List Char) (start : Nat) :
    closingPosition text start = (closingPosition (text.drop start) 0).map (start + ·) := by
  rw [closingPosition, closingPosition, List.drop_zero]
  cases text.drop start with
  | nil => rfl
  | cons c rest =>
    cases hopener : Bracket.ofOpener? c with
    | none => simp only [hopener]; rfl
    | some b =>
      simp only [hopener]
      cases takeGroup b rest with
      | error e => rfl
      | ok r =>
        simp only [Except.map, Nat.zero_add, Nat.add_assoc]

/-- The group ends where it did if other text follows it. -/
theorem IsGroupAt.take_append (h : IsGroupAt text start stop) (after : List Char) :
    IsGroupAt (text.take (stop + 1) ++ after) start stop := by
  have hlt := h.lt
  have hlength : (text.take (stop + 1)).length = stop + 1 :=
    List.length_take_of_le h.lt_length
  refine ⟨hlt, by rw [List.length_append]; omega, ?_⟩
  have hstretch : stretch (text.take (stop + 1) ++ after) start (stop + 1) =
      stretch text start (stop + 1) := by
    rw [stretch, stretch, List.drop_append_of_le_length (by omega),
      List.take_left' (by rw [List.length_drop, hlength]), List.drop_take]
  rw [hstretch]
  exact h.isGroup

/-! ## The error -/

/-- A group that cannot be taken has a bracket in it that does not match, or it does not end. -/
theorem takeGroupFrom_eq_error {outermost : Bracket} {n : Nesting} {s : List Char} {e : Cause}
    (hn : n.brackets ≠ []) (h : takeGroupFrom outermost n s = .error e) :
    e = .unclosedGroup outermost ∨ ∃ d, e = .mismatchedCloser d := by
  induction s generalizing n with
  | nil => exact Or.inl (Except.error.inj h).symm
  | cons c s ih =>
    rw [takeGroupFrom] at h
    cases hstep : n.step c with
    | error cause =>
      rw [hstep] at h
      obtain rfl := Except.error.inj h
      obtain ⟨d, -, -, hnil | ⟨f, bs, -, -, rfl⟩⟩ := Nesting.step_eq_error hstep
      · exact absurd hnil.1 hn
      · exact Or.inr ⟨d, rfl⟩
    | ok m =>
      simp only [hstep] at h
      split at h
      · simp at h
      · next hm =>
        exact ih (fun hnil => hm (List.isEmpty_iff.mpr hnil)) (map_eq_error_iff.mp h)

theorem takeGroup_eq_error {s : List Char} {e : Cause} (h : takeGroup b s = .error e) :
    e = .unclosedGroup b ∨ ∃ d, e = .mismatchedCloser d :=
  takeGroupFrom_eq_error (List.cons_ne_nil b []) h

/-- The fault as the scan by position has it. -/
def ClosingFault.scanFault : ClosingFault → ScanFault
  | .pastEnd => .pastEnd
  | .notAnOpener => .notAnOpener
  | .noGroup cause => .schema cause

/-- **Both scans find the same.** The one by position keeps the open brackets on a stack, which is
never empty when a bracket is taken off it. -/
theorem closingAt_eq_closingPosition (text : List Char) (start : Nat) :
    closingAt text start = (closingPosition text start).mapError ClosingFault.scanFault := by
  cases hchar : text[start]? with
  | none =>
    rw [closingAt, hchar, closingPosition, drop_eq_nil hchar]
    rfl
  | some c =>
    cases hopener : Bracket.ofOpener? c with
    | none =>
      rw [closingAt, hchar, closingPosition, drop_eq_cons hchar]
      simp only [hopener]
      rfl
    | some b =>
      obtain rfl := Bracket.ofOpener?_eq_some_iff.mp hopener
      rw [closingAt_eq hchar, closingPosition_of_opener hchar]
      cases takeGroup b (text.drop (start + 1)) <;> rfl

/-- Where no group starts at an opening bracket, the text has an error, and not the position. -/
theorem exists_cause_of_not_isGroupAt (h : text[start]? = some b.opener)
    (hnone : ∀ stop, ¬ IsGroupAt text start stop) :
    ∃ cause, closingPosition text start = .error (.noGroup cause) ∧
      (cause = .unclosedGroup b ∨ ∃ d, cause = .mismatchedCloser d) := by
  cases htake : takeGroup b (text.drop (start + 1)) with
  | error cause =>
    refine ⟨cause, ?_, takeGroup_eq_error htake⟩
    rw [closingPosition_of_opener h, htake]
  | ok r =>
    have hfound : closingPosition text start = .ok (start + 1 + r.1.length) := by
      rw [closingPosition_of_opener h, htake]
    exact absurd ((closingPosition_eq_ok_iff h).mp hfound) (hnone _)

/-! ## The bracket that matches -/

/-- **The matching bracket.** The position that is found for an opening bracket is the end of the
group that starts there, and there is one such group at most. If there is none, the text has an
error on the line that is being read, and no look-up of the scan by position misses. The position
depends neither on the text above the bracket, which only moves it, nor on the text behind the
group. -/
theorem matching_of_closingPosition {text : List Char} {start : Nat} {b : Bracket}
    (h : text[start]? = some b.opener) :
    (∀ stop, closingPosition text start = .ok stop ↔ IsGroupAt text start stop) ∧
    (∀ stop stop', IsGroupAt text start stop → IsGroupAt text start stop' → stop = stop') ∧
    ((∀ stop, ¬ IsGroupAt text start stop) → ∀ line, ∃ fault e,
      closingPosition text start = .error fault ∧ fault.error? line = some e ∧ e.line = line ∧
        closingAt text start = .error (.schema e.cause)) ∧
    closingPosition text start = (closingPosition (text.drop start) 0).map (start + ·) ∧
    ∀ stop, closingPosition text start = .ok stop →
      ∀ after, closingPosition (text.take (stop + 1) ++ after) start = .ok stop := by
  have hiff : ∀ stop, closingPosition text start = .ok stop ↔ IsGroupAt text start stop :=
    fun stop => closingPosition_eq_ok_iff h
  refine ⟨hiff, fun stop stop' hstop hstop' => ?_, fun hnone line => ?_,
    closingPosition_eq_map_drop text start, fun stop hfound after => ?_⟩
  · exact Except.ok.inj (((hiff stop).mpr hstop).symm.trans ((hiff stop').mpr hstop'))
  · obtain ⟨cause, hfault, -⟩ := exists_cause_of_not_isGroupAt h hnone
    refine ⟨.noGroup cause, ⟨cause, line⟩, hfault, rfl, rfl, ?_⟩
    rw [closingAt_eq_closingPosition, hfault]
    rfl
  · have hgroup := (hiff stop).mp hfound
    have hlt := hgroup.lt
    have hopener : (text.take (stop + 1) ++ after)[start]? = some b.opener := by
      have hlength : (text.take (stop + 1)).length = stop + 1 :=
        List.length_take_of_le hgroup.lt_length
      rw [List.getElem?_append_left (by omega), List.getElem?_take_of_lt (by omega), h]
    exact (closingPosition_eq_ok_iff hopener).mpr (hgroup.take_append after)

/-- A group in which brackets stand in literals and behind backslashes, and an opening bracket that
starts no group because another one is closed in its place. -/
theorem matching_of_closingPosition_literal :
    ((∀ stop, closingPosition "a(\")\\\"]\", [\\b])]".toList 1 = .ok stop ↔
        IsGroupAt "a(\")\\\"]\", [\\b])]".toList 1 stop) ∧
      closingPosition "a(\")\\\"]\", [\\b])]".toList 1 = .ok 14) ∧
    ∃ fault e, closingPosition "([)]".toList 0 = .error fault ∧
      fault.error? (some 7) = some e ∧ e.line = some 7 ∧
        closingAt "([)]".toList 0 = .error (.schema e.cause) := by
  have hopener : "([)]".toList[0]? = some Bracket.round.opener := by decide
  have hfault : closingPosition "([)]".toList 0 = .error (.noGroup (.mismatchedCloser .round)) := by
    decide
  refine ⟨⟨(matching_of_closingPosition (b := .round) (by decide)).1, by decide⟩, ?_⟩
  refine (matching_of_closingPosition hopener).2.2.1 (fun stop hstop => ?_) (some 7)
  rw [← (matching_of_closingPosition hopener).1 stop, hfault] at hstop
  simp at hstop

end SchemaDiagram
