import SchemaDiagram.Proofs.Earliest
import SchemaDiagram.Proofs.Resemblance

/-!
# Inserted lines

A line without code that is put between two lines of a text changes nothing but documentation and
the numbers of the lines below it. Blocks and fields further down stand one line further down, and
so do the errors that are met there, but what they are does not change. A line that only adds
attributes to a block leaves no trace in the diagram either, wherever in the block it stands.

Both are cases of one argument. The line is read, and the reader behind it goes along with the
reader of the text without the line (`Schema.related_parse_insertLine`).
-/

namespace SchemaDiagram

variable {a : Aspect} {r : BlockReader} {line : List Char}

/-! ## The reader behind the line -/

namespace BlockReader

/-- A line without code changes at most the documentation that waits. -/
theorem Follows.stepLayout_right {φ : Nat → Nat} {as as' : List Block} {r' : BlockReader}
    (h : Follows { documentation := false } φ as as' r r') (comment : Option (List Char)) :
    Follows { documentation := false } φ as as' r (r'.stepLayout comment) :=
  ⟨by simpa using h.blocks, by simpa using h.current, fun ha => absurd ha Bool.false_ne_true⟩

theorem stepLayout_of_plain {comment : List Char} (h : comment.head? ≠ some '/') :
    r.stepLayout (some comment) = r := by
  cases comment with
  | nil => rfl
  | cons c comment =>
    unfold stepLayout
    split
    · next heq => simp at heq
    · next heq =>
      obtain ⟨rfl, -⟩ := List.cons.inj (Option.some.inj heq)
      exact absurd rfl h
    · rfl

/-- A line of block attributes changes at most these attributes, and the documentation that
waits. -/
theorem Follows.attributes_right {φ : Nat → Nat} {as as' : List Block} {r' : BlockReader}
    {b : Block} (h : Follows { documentation := false, blockAttributes := false } φ as as' r r')
    (hcurrent : r'.current = some b) (attributes : List Attribute) :
    Follows { documentation := false, blockAttributes := false } φ as as' r
      { blocks := r'.blocks, current := some { b with attributes } } := by
  refine ⟨h.blocks, ?_, fun ha => absurd ha Bool.false_ne_true⟩
  have hrel := h.current
  rw [hcurrent] at hrel
  generalize r.current = o at hrel ⊢
  cases hrel with
  | some hb => exact .some { hb with attributes := fun ha => absurd ha Bool.false_ne_true }

end BlockReader

namespace Schema

variable {text text' : String} {before after : List (List Char)}

theorem parse_eq_error_of_run {rest : List (List Char)} {e : SchemaError}
    (hlines : linesOf text = before ++ rest) (h : BlockReader.run {} 1 before = .error e) :
    parse text = .error e := by
  rw [parse, parseChars, ← linesOf, hlines, Block.ofLines, BlockReader.run_append, h]

/-- **A line that the reader goes along with.** If the line can be read wherever the lines above it
can, and the reader behind it goes along with the one in front of it, then the text with the line is
read like the text without it. -/
theorem related_parse_insertLine (hlines : linesOf text = before ++ after)
    (hlines' : linesOf text' = before ++ line :: after)
    (hline : ∀ r, BlockReader.run {} 1 before = .ok r →
      BlockReader.Follows a (numberAfter before.length 0 1) [] [] r r →
        ∃ r', r.Move (1 + before.length) line r' ∧
          BlockReader.Follows a (numberAfter before.length 0 1) [] [] r r') :
    Related (SchemaError.Moves (numberAfter before.length 0 1)) (fun s s' => s'.seen a = s.seen a)
      (parse text) (parse text') := by
  cases hrun : BlockReader.run {} 1 before with
  | error e =>
    obtain ⟨n, cause, rfl, -, hlt⟩ := BlockReader.exists_line_of_run hrun
    rw [parse_eq_error_of_run hlines hrun, parse_eq_error_of_run hlines' hrun]
    exact .error ⟨n, cause, rfl, by rw [numberAfter_of_le (by omega)]⟩
  | ok r =>
    have hplaces := ((BlockReader.ascends_start 1).run hrun).numberAfter_of_mem_places 0 1
    obtain ⟨r', hmove, hfollows⟩ := hline r hrun (.refl hplaces)
    have hrun' := BlockReader.run_append_of_ok hrun (BlockReader.run_singleton_eq_ok_iff.mpr hmove)
    have hstretch : linesOf text = before ++ ([] ++ after) := hlines
    have hstretch' : linesOf text' = before ++ ([line] ++ after) := hlines'
    exact related_parse hstretch hstretch' (by rw [List.append_nil, hrun]) hrun' hfollows

theorem related_parse_insertLayout (hlines : linesOf text = before ++ after)
    (hlines' : linesOf text' = before ++ line :: after)
    (hcode : (SourceLine.ofText line).code = []) :
    Related (SchemaError.Moves (numberAfter before.length 0 1))
      (fun s s' => s'.undocumented = s.undocumented) (parse text) (parse text') :=
  related_parse_insertLine hlines hlines' fun _ _ hself =>
    ⟨_, .layout hcode, hself.stepLayout_right _⟩

theorem related_parse_insertComment {comment : List Char} (hlines : linesOf text = before ++ after)
    (hlines' : linesOf text' = before ++ line :: after)
    (hcode : (SourceLine.ofText line).code = [])
    (hcomment : (SourceLine.ofText line).comment = some comment)
    (hplain : comment.head? ≠ some '/') :
    Related (SchemaError.Moves (numberAfter before.length 0 1)) (fun s s' => s' = s) (parse text)
      (parse text') := by
  have hrelated := related_parse_insertLine (a := {}) hlines hlines' fun r _ hself => by
    have hmove : BlockReader.Move r (1 + before.length) line _ := .layout hcode
    rw [hcomment, BlockReader.stepLayout_of_plain hplain] at hmove
    exact ⟨r, hmove, hself⟩
  simpa only [seen_all] using hrelated

theorem related_parse_insertAttributes {run : List Char} {as : List Attribute} {b : Block}
    (hlines : linesOf text = before ++ after) (hlines' : linesOf text' = before ++ line :: after)
    (hcode : (SourceLine.ofText line).code = '@' :: '@' :: run)
    (hrun : Attribute.parseRun ('@' :: run) = .ok as) (hopen : StaysOpen before b)
    (hsettings : b.keyword.isSettings = false) :
    Related (SchemaError.Moves (numberAfter before.length 0 1))
      (fun s s' => s'.seen { documentation := false, blockAttributes := false } =
        s.seen { documentation := false, blockAttributes := false })
      (parse text) (parse text') := by
  obtain ⟨m, hm, hcurrent⟩ := hopen
  refine related_parse_insertLine hlines hlines' fun r hr hself => ?_
  obtain rfl := Except.ok.inj (hm.symm.trans hr)
  exact ⟨_, .enters hcurrent (by simp [hcode]) (by simp [hcode])
    (.attributes hsettings hcode hrun) trivial, hself.attributes_right hcurrent _⟩

/-- **Inserted lines.** A text that is accepted is accepted with one more line without code too. The
schema is the same up to documentation, and even that stays if the line is a plain comment; the
drawing is the same. A text that is rejected is rejected with the line too, for the same cause and
on the same line, which has moved down if it stood below. And with one more line of block
attributes, inside of a block that is no block of settings, an accepted text is accepted still and
its drawing is the same. -/
theorem parse_insertLine (hlines : linesOf text = before ++ after)
    (hlines' : linesOf text' = before ++ line :: after) :
    ((SourceLine.ofText line).code = [] →
      (∀ s, parse text = .ok s → ∃ s' out, parse text' = .ok s' ∧
        s'.undocumented = s.undocumented ∧
        ((∃ c, (SourceLine.ofText line).comment = some c ∧ c.head? ≠ some '/') → s' = s) ∧
        draw text = .ok out ∧ draw text' = .ok out) ∧
      ∀ e, parse text = .error e → ∃ n cause, e = .atLine n cause ∧
        parse text' = .error (.atLine (if before.length < n then n + 1 else n) cause)) ∧
    ∀ run as b s, (SourceLine.ofText line).code = '@' :: '@' :: run →
      Attribute.parseRun ('@' :: run) = .ok as → StaysOpen before b →
      b.keyword.isSettings = false → parse text = .ok s →
        ∃ s' out, parse text' = .ok s' ∧ draw text = .ok out ∧ draw text' = .ok out := by
  refine ⟨fun hcode => ⟨fun s h => ?_, fun e h => ?_⟩,
    fun run as b s hcode hrun hopen hsettings h => ?_⟩
  · have hlayout := related_parse_insertLayout hlines hlines' hcode
    rw [h] at hlayout
    obtain ⟨s', h', hsame⟩ := hlayout.exists_ok
    obtain ⟨out, hout, hout'⟩ := exists_draw_of_seen h h' hsame
    refine ⟨s', out, h', hsame, ?_, hout, hout'⟩
    rintro ⟨comment, hcomment, hplain⟩
    have hrelated := related_parse_insertComment hlines hlines' hcode hcomment hplain
    rw [h, h'] at hrelated
    obtain ⟨_, heq, rfl⟩ := hrelated.exists_ok
    exact Except.ok.inj heq
  · have hlayout := related_parse_insertLayout hlines hlines' hcode
    rw [h] at hlayout
    obtain ⟨_, h', n, cause, rfl, rfl⟩ := hlayout.exists_error
    exact ⟨n, cause, rfl, h'⟩
  · have hattributes :=
      related_parse_insertAttributes hlines hlines' hcode hrun hopen hsettings
    rw [h] at hattributes
    obtain ⟨s', h', hsame⟩ := hattributes.exists_ok
    obtain ⟨out, hout, hout'⟩ := exists_draw_of_seen h h' hsame
    exact ⟨s', out, h', hout, hout'⟩

/-- A line of documentation in front of a field and one in front of a field whose type is not
declared, which is then reported one line further down; and attributes inside of the model. -/
theorem parse_insertLine_model :
    (∃ s s' out, parse "model A \x7b\n a Int\n\x7d" = .ok s ∧
      parse "model A \x7b\n/// b\n a Int\n\x7d" = .ok s' ∧ s'.undocumented = s.undocumented ∧
      draw "model A \x7b\n a Int\n\x7d" = .ok out ∧
      draw "model A \x7b\n/// b\n a Int\n\x7d" = .ok out) ∧
    parse "model A \x7b\n/// b\n a B\n\x7d" = .error (.atLine 3 (.undefinedType "B" "a")) ∧
    ∃ s' out, parse "model A \x7b\n @@b\n a Int\n\x7d" = .ok s' ∧
      draw "model A \x7b\n a Int\n\x7d" = .ok out ∧
      draw "model A \x7b\n @@b\n a Int\n\x7d" = .ok out := by
  have h : parse "model A \x7b\n a Int\n\x7d" = .ok
      { models := [{
          name := "A"
          fields := [{ name := "a", type := { name := "Int", kind := .scalar } }] }] } := by
    with_unfolding_all rfl
  have herror : parse "model A \x7b\n a B\n\x7d" =
      .error (.atLine 2 (.undefinedType "B" "a")) := by
    with_unfolding_all rfl
  have hopen : StaysOpen ["model A \x7b".toList]
      { keyword := .model, name := "A", line := 1 } :=
    ⟨{ current := some { keyword := .model, name := "A", line := 1 } },
      by with_unfolding_all rfl, rfl⟩
  have hlines : linesOf "model A \x7b\n a Int\n\x7d" =
      ["model A \x7b".toList] ++ [" a Int".toList, "\x7d".toList] := by
    with_unfolding_all rfl
  have hdoc : linesOf "model A \x7b\n/// b\n a Int\n\x7d" =
      ["model A \x7b".toList] ++ "/// b".toList :: [" a Int".toList, "\x7d".toList] := by
    with_unfolding_all rfl
  have hattributes : linesOf "model A \x7b\n @@b\n a Int\n\x7d" =
      ["model A \x7b".toList] ++ " @@b".toList :: [" a Int".toList, "\x7d".toList] := by
    with_unfolding_all rfl
  have hlines' : linesOf "model A \x7b\n a B\n\x7d" =
      ["model A \x7b".toList] ++ [" a B".toList, "\x7d".toList] := by
    with_unfolding_all rfl
  have hdoc' : linesOf "model A \x7b\n/// b\n a B\n\x7d" =
      ["model A \x7b".toList] ++ "/// b".toList :: [" a B".toList, "\x7d".toList] := by
    with_unfolding_all rfl
  refine ⟨?_, ?_, ?_⟩
  · obtain ⟨s', out, h', hsame, -, hout, hout'⟩ := ((parse_insertLine hlines hdoc).1 rfl).1 _ h
    exact ⟨_, s', out, h, h', hsame, hout, hout'⟩
  · obtain ⟨n, cause, heq, h'⟩ := ((parse_insertLine hlines' hdoc').1 rfl).2 _ herror
    obtain ⟨rfl, hn⟩ := SchemaError.mk.inj heq
    obtain rfl : 2 = n := Int.ofNat.inj (Option.some.inj hn)
    exact h'
  · exact (parse_insertLine hlines hattributes).2 ['b'] [{ name := "b" }] _ _ rfl
      (by with_unfolding_all rfl) hopen rfl h

end Schema
end SchemaDiagram
