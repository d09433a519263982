import SchemaDiagram.Proofs.Text.Line
import SchemaDiagram.Schema.Comment
import SchemaDiagram.Schema.Declaration

/-!
# Literals and comments

A comment starts at the first two slashes outside every literal, and `CommentFree` is the text that
has no such slashes. The code of a line is comment-free (`commentFree_code`), and so is every
stretch of it that starts outside of literals; the other way round a comment-free line is all code
(`ofText_eq_of_commentFree`). Whether a text is comment-free depends on the state it is entered in,
so the notion carries the state along, which is what makes it compose.
-/

namespace SchemaDiagram

/-! ## The text of a literal -/

/-- The text between the quotes of a literal. A quote stands in it only behind a backslash. -/
inductive LiteralBody : List Char → Prop where
  | nil : LiteralBody []
  | plain {c : Char} {s : List Char} :
      c ≠ '"' → c ≠ '\\' → LiteralBody s → LiteralBody (c :: s)
  | escape {c : Char} {s : List Char} : LiteralBody s → LiteralBody ('\\' :: c :: s)

namespace LiteralState

/-- A literal is still open after its text. -/
theorem after_inside_of_literalBody {s : List Char} (hs : LiteralBody s) :
    LiteralState.inside.after s = .inside := by
  induction hs with
  | nil => rfl
  | plain hquote hslash _ ih => rw [after_cons, next, if_neg hquote, if_neg hslash, ih]
  | escape _ ih => exact ih

/-- A text without quotes opens no literal. -/
theorem after_outside_of_not_mem {s : List Char} (hs : '"' ∉ s) :
    LiteralState.outside.after s = .outside := by
  induction s with
  | nil => rfl
  | cons c s ih =>
    rw [List.mem_cons, not_or] at hs
    rw [after_cons, next, if_neg (Ne.symm hs.1), ih hs.2]

/-- A literal from quote to quote leaves the scan outside. -/
theorem after_outside_literal {s : List Char} (hs : LiteralBody s) :
    LiteralState.outside.after ('"' :: (s ++ ['"'])) = .outside := by
  rw [after_cons, next, if_pos rfl, after_append, after_inside_of_literalBody hs]
  rfl

end LiteralState

/-- What is read up to the quote that ends a literal is the text of the literal. -/
theorem TypeExpr.readRaw_eq_some_iff {s raw rest : List Char} :
    TypeExpr.readRaw s = some (raw, rest) ↔ s = raw ++ '"' :: rest ∧ LiteralBody raw := by
  constructor
  · intro h
    induction s using TypeExpr.readRaw.induct generalizing raw with
    | case1 => simp [readRaw] at h
    | case2 r =>
      rw [readRaw] at h
      obtain ⟨rfl, rfl⟩ := Prod.mk.inj (Option.some.inj h)
      exact ⟨rfl, .nil⟩
    | case3 => simp [readRaw] at h
    | case4 c r ih =>
      rw [readRaw, Option.map_eq_some_iff] at h
      obtain ⟨⟨raw', rest'⟩, hr, heq⟩ := h
      obtain ⟨rfl, rfl⟩ := Prod.mk.inj heq
      obtain ⟨rfl, hraw⟩ := ih hr
      exact ⟨rfl, .escape hraw⟩
    | case5 c r hquote hend hesc ih =>
      rw [readRaw] at h
      · rw [Option.map_eq_some_iff] at h
        obtain ⟨⟨raw', rest'⟩, hr, heq⟩ := h
        obtain ⟨rfl, rfl⟩ := Prod.mk.inj heq
        obtain ⟨rfl, hraw⟩ := ih hr
        refine ⟨rfl, .plain hquote ?_ hraw⟩
        rintro rfl
        cases hrest : raw' ++ '"' :: rest' with
        | nil => simp at hrest
        | cons d t => exact hesc d t rfl hrest
      · exact hquote
      · exact hend
      · exact hesc
  · rintro ⟨rfl, hraw⟩
    induction hraw with
    | nil => rfl
    | @plain c s hquote hslash _ ih =>
      rw [List.cons_append, readRaw]
      · rw [ih]
        rfl
      · exact hquote
      · intro h _
        exact hslash h
      · intro d t h _
        exact hslash h
    | @escape c s _ ih =>
      rw [List.cons_append, List.cons_append, readRaw, ih]
      rfl

/-! ## Texts without a comment -/

/-- No two slashes of the text stand outside the literals, for a scan that enters it in the given
state. -/
def CommentFree (st : LiteralState) (s : List Char) : Prop :=
  ∀ p r, s = p ++ '/' :: '/' :: r → st.after p ≠ .outside

namespace CommentFree

variable {st : LiteralState}

theorem nil : CommentFree st [] := by
  intro p r h
  simp at h

/-- The first character adds a comment only as the first of two slashes. -/
theorem cons_iff {c : Char} {s : List Char} :
    CommentFree st (c :: s) ↔
      (st = .outside → c = '/' → s.head? ≠ some '/') ∧ CommentFree (st.next c) s := by
  constructor
  · intro h
    refine ⟨?_, fun p r hs => ?_⟩
    · rintro rfl rfl hhead
      obtain ⟨r, rfl⟩ := List.head?_eq_some_iff.mp hhead
      exact h [] r rfl rfl
    · exact h (c :: p) r (by rw [hs, List.cons_append])
  · rintro ⟨hc, hs⟩ p r h
    cases p with
    | nil =>
      obtain ⟨rfl, rfl⟩ := List.cons.inj h
      intro hst
      exact hc hst rfl rfl
    | cons d p =>
      obtain ⟨rfl, h'⟩ := List.cons.inj h
      exact hs p r h'

theorem cons_of_ne {c : Char} {s : List Char} (hc : c ≠ '/') (hs : CommentFree (st.next c) s) :
    CommentFree st (c :: s) :=
  cons_iff.mpr ⟨fun _ h => absurd h hc, hs⟩

/-- Two comment-free texts stay so when they are put together, unless a slash meets a slash. -/
theorem append {s t : List Char} (hs : CommentFree st s) (ht : CommentFree (st.after s) t)
    (hseam : s.getLast? = some '/' → t.head? ≠ some '/') : CommentFree st (s ++ t) := by
  induction s generalizing st with
  | nil => exact ht
  | cons c s ih =>
    obtain ⟨hc, hs⟩ := cons_iff.mp hs
    cases s with
    | nil =>
      refine cons_iff.mpr ⟨fun _ hslash => ?_, ht⟩
      subst hslash
      exact hseam rfl
    | cons d s =>
      refine cons_iff.mpr ⟨fun hst hslash => hc hst hslash, ih hs ht ?_⟩
      rw [List.getLast?_cons_cons] at hseam
      exact hseam

/-- A stretch of a comment-free text is comment-free. -/
theorem of_append {p s q : List Char} (h : CommentFree st (p ++ (s ++ q))) :
    CommentFree (st.after p) s := by
  intro a r hs
  have := h (p ++ a) (r ++ q) (by rw [hs]; simp)
  rwa [LiteralState.after_append] at this

/-- A text without slashes has no comment. -/
theorem of_not_mem {s : List Char} (hs : '/' ∉ s) : CommentFree st s := by
  intro p r h
  rw [h] at hs
  simp at hs

/-- Inside of a literal there is no comment. -/
theorem of_literalBody {s : List Char} (hs : LiteralBody s) : CommentFree .inside s := by
  induction hs with
  | nil => exact nil
  | plain hquote hslash _ ih =>
    refine cons_iff.mpr ⟨fun h => absurd h (by decide), ?_⟩
    rwa [LiteralState.next, if_neg hquote, if_neg hslash]
  | escape _ ih =>
    refine cons_iff.mpr ⟨fun h => absurd h (by decide), ?_⟩
    exact cons_iff.mpr ⟨fun h => absurd h (by decide), ih⟩

end CommentFree

/-! ## Cutting a line -/

namespace SourceLine

/-- A comment as it stands in the line, with its slashes. -/
def written : Option (List Char) → List Char
  | none => []
  | some text => '/' :: '/' :: text

/-- Cutting a line loses nothing. -/
theorem append_written_cut (st : LiteralState) (s : List Char) :
    (cut st s).1 ++ written (cut st s).2 = s := by
  fun_induction cut st s with
  | case1 rest => rfl
  | case2 => rfl
  | case3 st c rest _ tail ih => rw [List.cons_append, ih]

/-- What stands before the comment is comment-free. -/
theorem commentFree_cut (st : LiteralState) (s : List Char) : CommentFree st (cut st s).1 := by
  fun_induction cut st s with
  | case1 rest => exact .nil
  | case2 => exact .nil
  | case3 st c rest hslashes tail ih =>
    refine CommentFree.cons_iff.mpr ⟨?_, ih⟩
    rintro hst hc hhead
    obtain ⟨t, ht⟩ := List.head?_eq_some_iff.mp hhead
    have hrest : rest = '/' :: (t ++ written tail.2) := by
      rw [← List.cons_append, ← ht]
      exact (append_written_cut _ _).symm
    exact hslashes _ hst hc hrest

/-- Nothing is cut off a comment-free text. -/
theorem cut_eq_of_commentFree {st : LiteralState} {s : List Char} (h : CommentFree st s) :
    cut st s = (s, none) := by
  fun_induction cut st s with
  | case1 rest => exact absurd rfl (h [] rest rfl)
  | case2 => rfl
  | case3 st c rest _ tail ih =>
    have htail : tail = (rest, none) := ih (CommentFree.cons_iff.mp h).2
    rw [htail]

/-- The code of a line is stripped. -/
theorem isStripped_code (line : List Char) : Text.IsStripped (ofText line).code :=
  Text.isStripped_strip _

/-- The code of a line is a stretch of the line behind a gap. -/
theorem exists_append_code (line : List Char) :
    ∃ a b, Text.IsGap a ∧ line = a ++ ((ofText line).code ++ b) := by
  obtain ⟨a, b, ha, -, hs⟩ := Text.exists_gaps_of_strip (cut .outside line).1
  refine ⟨a, b ++ written (cut .outside line).2, ha, ?_⟩
  calc line = (cut .outside line).1 ++ written (cut .outside line).2 :=
        (append_written_cut .outside line).symm
    _ = a ++ ((ofText line).code ++ b) ++ written (cut .outside line).2 := congrArg (· ++ _) hs
    _ = a ++ ((ofText line).code ++ (b ++ written (cut .outside line).2)) := by
        rw [List.append_assoc, List.append_assoc]

theorem quote_not_mem_of_isGap {a : List Char} (ha : Text.IsGap a) : '"' ∉ a := by
  intro h
  exact absurd (ha _ h) (by decide)

/-- The code of a line is comment-free. -/
theorem commentFree_code (line : List Char) : CommentFree .outside (ofText line).code := by
  obtain ⟨a, b, ha, -, hs⟩ := Text.exists_gaps_of_strip (cut .outside line).1
  have hfree := commentFree_cut .outside line
  rw [hs] at hfree
  have := hfree.of_append
  rwa [LiteralState.after_outside_of_not_mem (quote_not_mem_of_isGap ha)] at this

/-- The code of one line is on one line. -/
theorem isOneLine_code {line : List Char} (h : Text.IsOneLine line) :
    Text.IsOneLine (ofText line).code := by
  obtain ⟨a, b, -, hs⟩ := exists_append_code line
  rw [hs, Text.isOneLine_append, Text.isOneLine_append] at h
  exact h.2.1

/-- A line without a comment that is stripped is all code. -/
theorem ofText_eq_of_commentFree {line : List Char} (hfree : CommentFree .outside line)
    (hs : Text.IsStripped line) : ofText line = { code := line, comment := none } := by
  rw [ofText, cut_eq_of_commentFree hfree]
  exact congrArg (SourceLine.mk · none) (Text.strip_eq_self hs)

/-- A line of documentation has no code. -/
theorem ofText_documentation (text : List Char) :
    ofText ('/' :: '/' :: '/' :: text) = { code := [], comment := some ('/' :: text) } := rfl

end SourceLine
end SchemaDiagram
