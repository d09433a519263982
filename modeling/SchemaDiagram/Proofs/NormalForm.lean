import SchemaDiagram.Proofs.Block.Place
import SchemaDiagram.Proofs.Block.Shift
import SchemaDiagram.Proofs.Concatenation
import SchemaDiagram.Proofs.Scan.Comment

/-!
# The normal form of a text

A line with code counts for its code alone, so the comment at its end and the blanks around it can
be left out, and a text counts for its lines alone, so each of them may end in a line feed. A text
that is cut down to this, which is its normal form, is read like the text itself
(`Schema.parse_normalForm`).

Of the lines without code none may be changed, for these are what documentation is made of. And
the normal form must not start with a byte order mark. This happens if a text starts with two of
them, of which only the first one is dropped.
-/

namespace SchemaDiagram

/-- The line, cut down to its code if it has any. -/
def SourceLine.normal (line : List Char) : List Char :=
  if (ofText line).code = [] then line else (ofText line).code

/-- The text whose lines are cut down, with line feeds between them and no mark in front. -/
def Schema.normalForm (text : String) : String :=
  Text.joinLines (((linesOf text).map SourceLine.normal).map String.ofList)

/-! ## One line -/

namespace SourceLine

theorem isOneLine_normal {line : List Char} (h : Text.IsOneLine line) :
    Text.IsOneLine (normal line) := by
  unfold normal
  split
  · exact h
  · exact isOneLine_code h

/-- What is left of a line with code is nothing but code. -/
theorem ofText_normal {line : List Char} (h : (ofText line).code ≠ []) :
    ofText (normal line) = { code := (ofText line).code, comment := none } := by
  rw [normal, if_neg h]
  exact ofText_eq_of_commentFree (commentFree_code line) (isStripped_code line)

end SourceLine

namespace BlockReader

/-- **A line that is cut down** is read like the line itself. -/
theorem step_normal (r : BlockReader) (n : Nat) (line : List Char) :
    r.step n (SourceLine.normal line) = r.step n line := by
  by_cases h : (SourceLine.ofText line).code = []
  · rw [SourceLine.normal, if_pos h]
  · simp only [step, SourceLine.ofText_normal h, List.isEmpty_iff, if_neg h]

theorem run_map_normal (r : BlockReader) (n : Nat) (texts : List (List Char)) :
    r.run n (texts.map SourceLine.normal) = r.run n texts := by
  induction texts generalizing r n with
  | nil => rfl
  | cons text texts ih =>
    rw [List.map_cons, run, run, step_normal]
    cases r.step n text with
    | error cause => rfl
    | ok r' => exact ih r' (n + 1)

end BlockReader

/-! ## The lines of the normal form -/

namespace Text

theorem lines_eq_singleton {s : List Char} (h : IsOneLine s) (hs : s ≠ []) : lines s = [s] := by
  induction s with
  | nil => exact absurd rfl hs
  | cons c s ih =>
    obtain ⟨hc, hrest⟩ := isOneLine_cons.mp h
    rw [lines_cons hc]
    cases s with
    | nil => rfl
    | cons d s =>
      rw [ih hrest (List.cons_ne_nil d s)]
      rfl

/-- Lines that are joined are read back, except for an empty one at the end. -/
theorem exists_map_eq_lines_joinLines {ls : List String} (h : ∀ l ∈ ls, IsOneLine l.toList) :
    ∃ k, ls.map String.toList = lines (joinLines ls).toList ++ List.replicate k [] := by
  induction ls with
  | nil => exact ⟨0, rfl⟩
  | cons l ls ih =>
    have hl : IsOneLine l.toList := h l (List.mem_cons_self ..)
    cases ls with
    | nil =>
      by_cases hempty : l.toList = []
      · exact ⟨1, by simp [joinLines, hempty]⟩
      · exact ⟨0, by simp [joinLines, lines_eq_singleton hl hempty]⟩
    | cons m ls =>
      obtain ⟨k, hk⟩ := ih fun n hn => h n (List.mem_cons_of_mem _ hn)
      have htext : (joinLines (l :: m :: ls)).toList =
          l.toList ++ '\n' :: (joinLines (m :: ls)).toList := by
        simp [joinLines, String.toList_append]
      exact ⟨k, by rw [htext, lines_append_feed hl, List.map_cons, hk]; rfl⟩

end Text

/-- Empty lines at the end of a text say nothing. -/
theorem Block.ofLines_append_replicate (texts : List (List Char)) (k : Nat) :
    ofLines (texts ++ List.replicate k []) = ofLines texts := by
  cases k with
  | zero => rw [List.replicate_zero, List.append_nil]
  | succ k =>
    rw [ofLines, ofLines, BlockReader.run_append]
    cases BlockReader.run {} 1 texts with
    | error e => rfl
    | ok r =>
      simp only [BlockReader.run_empty_lines]
      rfl

namespace Schema

/-- **The normal form** of a text is read like the text itself: the outcome is the same schema, or
the same error on the same line. -/
theorem parse_normalForm {text : String}
    (hmark : (normalForm text).toList.head? ≠ some Text.byteOrderMark) :
    parse (normalForm text) = parse text := by
  have hone : ∀ l ∈ ((linesOf text).map SourceLine.normal).map String.ofList,
      Text.IsOneLine l.toList := by
    rw [List.map_map, List.forall_mem_map]
    intro line hline
    rw [Function.comp_apply, String.toList_ofList]
    exact SourceLine.isOneLine_normal (Text.isOneLine_of_mem_lines _ line hline)
  obtain ⟨k, hk⟩ := Text.exists_map_eq_lines_joinLines hone
  have hchars : (String.toList ∘ String.ofList : List Char → List Char) = id :=
    funext fun _ => String.toList_ofList
  rw [List.map_map, hchars, List.map_id] at hk
  have hlines : Block.ofLines (linesOf (normalForm text)) = Block.ofLines (linesOf text) :=
    calc Block.ofLines (linesOf (normalForm text))
        = Block.ofLines (Text.lines (normalForm text).toList) := by
          rw [linesOf, Text.dropMark_eq_self hmark]
      _ = Block.ofLines ((linesOf text).map SourceLine.normal) := by
          rw [hk, Block.ofLines_append_replicate, normalForm]
      _ = Block.ofLines (linesOf text) := by
          rw [Block.ofLines, Block.ofLines, BlockReader.run_map_normal]
  rw [parse, parse, parseChars, parseChars, ← linesOf, ← linesOf, hlines]

/-- A mark, four kinds of line end, blanks, comments behind code and slashes inside of a literal. -/
theorem parse_normalForm_model :
    ∃ s, normalForm
        "\uFEFF/// a\r\n\tmodel A \x7b // b\u2028  a Int @x(\"//\") // c\r  \x7d\n\n" =
        "/// a\nmodel A \x7b\na Int @x(\"//\")\n\x7d\n" ∧
      parse "\uFEFF/// a\r\n\tmodel A \x7b // b\u2028  a Int @x(\"//\") // c\r  \x7d\n\n" = .ok s ∧
      parse "/// a\nmodel A \x7b\na Int @x(\"//\")\n\x7d\n" = .ok s := by
  have hnormal : normalForm
      "\uFEFF/// a\r\n\tmodel A \x7b // b\u2028  a Int @x(\"//\") // c\r  \x7d\n\n" =
      "/// a\nmodel A \x7b\na Int @x(\"//\")\n\x7d\n" := by
    with_unfolding_all rfl
  have h : parse "\uFEFF/// a\r\n\tmodel A \x7b // b\u2028  a Int @x(\"//\") // c\r  \x7d\n\n" =
      .ok
        { models := [{
            name := "A", documentation := some "a"
            fields := [{
              name := "a", type := { name := "Int", kind := .scalar }
              attributes := [{ name := "x", arguments := [{ value := "\"//\"" }] }] }] }] } := by
    with_unfolding_all rfl
  have hmark : (normalForm
      "\uFEFF/// a\r\n\tmodel A \x7b // b\u2028  a Int @x(\"//\") // c\r  \x7d\n\n").toList.head? ≠
        some Text.byteOrderMark := by
    rw [hnormal]
    decide
  have hsame := parse_normalForm hmark
  rw [hnormal] at hsame
  exact ⟨_, hnormal, h, hsame.trans h⟩

end Schema
end SchemaDiagram
