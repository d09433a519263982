import SchemaDiagram.Proofs.Text.Name
import SchemaDiagram.Text.Line

/-!
# Lines of a text

A text that was written line by line is read back line by line, provided that no line holds a line
end of its own (`lines_endLines`), and the lines of a text never do (`isOneLine_of_mem_lines`). The
same goes for the pieces of a documentation text, which is joined and taken apart at line feeds. A
blank line between two texts keeps their lines apart, whatever the first of them ends in
(`exists_lines_append`).
-/

namespace SchemaDiagram
namespace Text

/-- A text without any line end. -/
def IsOneLine (s : List Char) : Prop :=
  ∀ c ∈ s, isTerminator c = false

theorem isOneLine_nil : IsOneLine [] := by
  intro c hc
  simp at hc

theorem isOneLine_cons {c : Char} {s : List Char} :
    IsOneLine (c :: s) ↔ isTerminator c = false ∧ IsOneLine s := by
  simp [IsOneLine]

theorem isOneLine_append {s t : List Char} : IsOneLine (s ++ t) ↔ IsOneLine s ∧ IsOneLine t := by
  simp [IsOneLine, or_imp, forall_and]

/-! ## Line ends are blank -/

theorem isBlank_of_isTerminator {c : Char} (h : isTerminator c = true) : isBlank c = true := by
  obtain ⟨r, hr, h1, h2⟩ := inRanges_eq_true_iff.mp h
  refine inRanges_eq_true_iff.mpr ?_
  simp only [terminatorRanges, List.mem_cons, List.not_mem_nil, or_false] at hr
  rcases hr with rfl | rfl | rfl | rfl
  · exact ⟨(0x09, 0x0D), by simp [blankRanges], by simp at h1 h2 ⊢; omega⟩
  · exact ⟨(0x1C, 0x20), by simp [blankRanges], by simp at h1 h2 ⊢; omega⟩
  · exact ⟨(0x85, 0x85), by simp [blankRanges], by simp at h1 h2 ⊢; omega⟩
  · exact ⟨(0x2028, 0x2029), by simp [blankRanges], by simp at h1 h2 ⊢; omega⟩

theorem isTerminator_eq_false_of_isWord {c : Char} (h : isWord c = true) :
    isTerminator c = false := by
  by_contra hc
  rw [Bool.not_eq_false] at hc
  have hb := isBlank_of_isTerminator hc
  rw [isBlank_eq_false_of_isWord h] at hb
  exact Bool.false_ne_true hb

/-- A name is on one line. -/
theorem isOneLine_of_isName {s : List Char} (hs : isName s = true) : IsOneLine s :=
  fun _ hc => isTerminator_eq_false_of_isWord (isWord_of_mem_isName hs hc)

/-! ## Reading lines -/

/-- A character that ends no line stands in the first line of what it is put in front of. -/
theorem lines_cons {c : Char} {s : List Char} (hc : isTerminator c = false) :
    lines (c :: s) = consToFirst c (lines s) := by
  have hcr : c ≠ '\r' := by
    rintro rfl
    exact absurd hc (by decide)
  rw [lines.eq_def]
  split
  · next heq => simp at heq
  · next heq =>
    obtain ⟨rfl, -⟩ := List.cons.inj heq
    exact absurd rfl hcr
  · next heq =>
    obtain ⟨rfl, rfl⟩ := List.cons.inj heq
    simp [hc]

theorem lines_feed (s : List Char) : lines ('\n' :: s) = [] :: lines s := by
  rw [lines.eq_def]
  simp [isTerminator, terminatorRanges]

/-- A line that is ended by a line feed is the first line of the text. -/
theorem lines_append_feed {l s : List Char} (hl : IsOneLine l) :
    lines (l ++ '\n' :: s) = l :: lines s := by
  induction l with
  | nil => exact lines_feed s
  | cons c l ih =>
    obtain ⟨hc, hl⟩ := isOneLine_cons.mp hl
    rw [List.cons_append, lines_cons hc, ih hl]
    rfl

/-- **Lines that are written are read back.** -/
theorem lines_endLines {ls : List String} (h : ∀ l ∈ ls, IsOneLine l.toList) :
    lines (endLines ls).toList = ls.map String.toList := by
  induction ls with
  | nil => rfl
  | cons l ls ih =>
    have hl : IsOneLine l.toList := h l (List.mem_cons_self ..)
    have htext : (endLines (l :: ls)).toList = l.toList ++ '\n' :: (endLines ls).toList := by
      simp [endLines_cons, String.toList_append]
    rw [htext, lines_append_feed hl, ih fun m hm => h m (List.mem_cons_of_mem _ hm)]
    rfl

/-- No line of a text holds a line end. -/
theorem isOneLine_of_mem_lines (s : List Char) : ∀ l ∈ lines s, IsOneLine l := by
  fun_induction lines s with
  | case1 => simp
  | case2 r ih =>
    intro l hl
    rcases List.mem_cons.mp hl with rfl | hl
    · exact isOneLine_nil
    · exact ih l hl
  | case3 c r _ hc ih =>
    intro l hl
    rcases List.mem_cons.mp hl with rfl | hl
    · exact isOneLine_nil
    · exact ih l hl
  | case4 c r _ hc ih =>
    have hc' : isTerminator c = false := by simpa using hc
    intro l hl
    cases hr : lines r with
    | nil =>
      rw [hr, consToFirst, List.mem_singleton] at hl
      rw [hl]
      exact isOneLine_cons.mpr ⟨hc', isOneLine_nil⟩
    | cons m ms =>
      rw [hr] at ih
      rw [hr, consToFirst] at hl
      rcases List.mem_cons.mp hl with rfl | hl
      · exact isOneLine_cons.mpr ⟨hc', ih m (List.mem_cons_self ..)⟩
      · exact ih l (List.mem_cons_of_mem _ hl)

/-! ## Joining two texts -/

/-- A line end that is not the first half of a longer one ends an empty line. -/
theorem lines_terminator {c : Char} {s : List Char} (hc : isTerminator c = true)
    (hs : ¬ (c = '\r' ∧ s.head? = some '\n')) : lines (c :: s) = [] :: lines s := by
  rw [lines.eq_def]
  split
  · next heq => simp at heq
  · next heq =>
    obtain ⟨rfl, rfl⟩ := List.cons.inj heq
    exact absurd ⟨rfl, rfl⟩ hs
  · next heq =>
    obtain ⟨rfl, rfl⟩ := List.cons.inj heq
    rw [if_pos hc]

theorem lines_ne_nil {s : List Char} (hs : s ≠ []) : lines s ≠ [] := by
  fun_cases lines s with
  | case1 => exact absurd rfl hs
  | case2 r => simp
  | case3 c r _ _ => simp
  | case4 c r _ _ => cases lines r <;> simp [consToFirst]

theorem consToFirst_append (c : Char) {ls : List (List Char)} (h : ls ≠ [])
    (ms : List (List Char)) : consToFirst c (ls ++ ms) = consToFirst c ls ++ ms := by
  cases ls with
  | nil => exact absurd rfl h
  | cons l ls => rfl

/-- **Two texts with a blank line between them** have the lines of the one, one or two empty lines,
and the lines of the other. There are two empty lines if the first text is empty or ends in a line
end, unless that is a carriage return, which is one line end together with the line feed behind
it. -/
theorem exists_lines_append (s : List Char) :
    ∃ n, ∀ t, lines (s ++ '\n' :: '\n' :: t) = lines s ++ List.replicate (n + 1) [] ++ lines t := by
  fun_induction lines s with
  | case1 => exact ⟨1, fun t => by rw [List.nil_append, lines_feed, lines_feed]; rfl⟩
  | case2 r ih =>
    obtain ⟨n, hn⟩ := ih
    refine ⟨n, fun t => ?_⟩
    rw [List.cons_append, List.cons_append, lines_crlf, hn]
    rfl
  | case3 c r hr hc ih =>
    by_cases hsplit : c = '\r' ∧ r = []
    · obtain ⟨rfl, rfl⟩ := hsplit
      exact ⟨0, fun t => by rw [List.singleton_append, lines_crlf, lines_feed]; rfl⟩
    · obtain ⟨n, hn⟩ := ih
      refine ⟨n, fun t => ?_⟩
      rw [List.cons_append, lines_terminator hc, hn]
      · rfl
      · rintro ⟨rfl, hhead⟩
        cases r with
        | nil => exact hsplit ⟨rfl, rfl⟩
        | cons d r =>
          rw [List.cons_append, List.head?_cons, Option.some.injEq] at hhead
          exact hr r rfl (by rw [hhead])
  | case4 c r hr hc ih =>
    rw [Bool.not_eq_true] at hc
    cases r with
    | nil =>
      refine ⟨0, fun t => ?_⟩
      rw [List.singleton_append, lines_cons hc, lines_feed, lines_feed]
      rfl
    | cons d r =>
      obtain ⟨n, hn⟩ := ih
      refine ⟨n, fun t => ?_⟩
      rw [List.cons_append, lines_cons hc, hn, List.append_assoc,
        consToFirst_append c (lines_ne_nil (List.cons_ne_nil d r)), ← List.append_assoc]

/-! ## Pieces between line feeds -/

theorem splitAtFeeds_eq_singleton {s : List Char} (h : '\n' ∉ s) : splitAtFeeds s = [s] := by
  induction s with
  | nil => rfl
  | cons c s ih =>
    rw [List.mem_cons, not_or] at h
    rw [splitAtFeeds, if_neg (Ne.symm h.1), ih h.2]
    rfl

/-- A piece without line feeds that is followed by one is the first piece. -/
theorem splitAtFeeds_append_feed {s t : List Char} (h : '\n' ∉ s) :
    splitAtFeeds (s ++ '\n' :: t) = s :: splitAtFeeds t := by
  induction s with
  | nil => rw [List.nil_append, splitAtFeeds, if_pos rfl]
  | cons c s ih =>
    rw [List.mem_cons, not_or] at h
    rw [List.cons_append, splitAtFeeds, if_neg (Ne.symm h.1), ih h.2]
    rfl

theorem splitAtFeeds_ne_nil (s : List Char) : splitAtFeeds s ≠ [] := by
  induction s with
  | nil => simp [splitAtFeeds]
  | cons c s ih =>
    rw [splitAtFeeds]
    split
    · simp
    · cases hs : splitAtFeeds s with
      | nil => exact absurd hs ih
      | cons l ls => simp [consToFirst]

theorem feed_not_mem_of_isOneLine {s : List Char} (h : IsOneLine s) : '\n' ∉ s := by
  intro hc
  exact absurd (h _ hc) (by decide)

/-- Pieces that are joined are taken apart again. -/
theorem splitAtFeeds_joinLines {l : String} {ls : List String}
    (h : ∀ m ∈ l :: ls, '\n' ∉ m.toList) :
    splitAtFeeds (joinLines (l :: ls)).toList = (l :: ls).map String.toList := by
  induction ls generalizing l with
  | nil => exact splitAtFeeds_eq_singleton (h l (List.mem_cons_self ..))
  | cons m ls ih =>
    have htext : (joinLines (l :: m :: ls)).toList =
        l.toList ++ '\n' :: (joinLines (m :: ls)).toList := by
      simp [joinLines, String.toList_append]
    rw [htext, splitAtFeeds_append_feed (h l (List.mem_cons_self ..)),
      ih fun k hk => h k (List.mem_cons_of_mem _ hk)]
    rfl

/-- Lines that are each followed by a line feed are taken apart again, with an empty piece behind
the last of them. -/
theorem splitAtFeeds_endLines {ls : List String} (h : ∀ l ∈ ls, '\n' ∉ l.toList) :
    splitAtFeeds (endLines ls).toList = (ls ++ [""]).map String.toList := by
  induction ls with
  | nil => rfl
  | cons l ls ih =>
    have htext : (endLines (l :: ls)).toList = l.toList ++ '\n' :: (endLines ls).toList := by
      simp [endLines_cons, String.toList_append]
    rw [htext, splitAtFeeds_append_feed (h l (List.mem_cons_self ..)),
      ih fun m hm => h m (List.mem_cons_of_mem _ hm)]
    rfl

theorem length_consToFirst_of_ne_nil (c : Char) {ls : List (List Char)} (h : ls ≠ []) :
    (consToFirst c ls).length = ls.length := by
  cases ls with
  | nil => exact absurd rfl h
  | cons l ls => rfl

/-- There is one piece more than there are line feeds. -/
theorem length_splitAtFeeds (s : List Char) : (splitAtFeeds s).length = s.count '\n' + 1 := by
  induction s with
  | nil => rfl
  | cons c s ih =>
    rw [splitAtFeeds]
    split
    · next hc => rw [hc, List.count_cons_self, List.length_cons, ih]
    · next hc =>
      rw [List.count_cons_of_ne hc, length_consToFirst_of_ne_nil c (splitAtFeeds_ne_nil s), ih]

theorem joinLines_consToFirst (c : Char) {ls : List (List Char)} (h : ls ≠ []) :
    joinLines ((consToFirst c ls).map String.ofList) =
      String.ofList [c] ++ joinLines (ls.map String.ofList) := by
  rcases ls with _ | ⟨l, _ | ⟨m, ls⟩⟩
  · exact absurd rfl h
  · simp [consToFirst, joinLines]
  · have hl : String.ofList (c :: l) = String.ofList [c] ++ String.ofList l := by
      rw [← String.ofList_append]
      rfl
    simp [consToFirst, joinLines, hl, String.append_assoc]

/-- Pieces that were taken apart are joined again. -/
theorem joinLines_splitAtFeeds (s : List Char) :
    joinLines ((splitAtFeeds s).map String.ofList) = String.ofList s := by
  induction s with
  | nil => rfl
  | cons c s ih =>
    rw [splitAtFeeds]
    split
    · next hc =>
      subst hc
      rcases hs : splitAtFeeds s with _ | ⟨m, ms⟩
      · exact absurd hs (splitAtFeeds_ne_nil s)
      · rw [hs] at ih
        rw [List.map_cons, List.map_cons, joinLines, ← List.map_cons, ih]
        rw [← String.toList_inj]
        simp [String.toList_append]
    · rw [joinLines_consToFirst c (splitAtFeeds_ne_nil s), ih, ← String.ofList_append]
      rfl

end Text
end SchemaDiagram
