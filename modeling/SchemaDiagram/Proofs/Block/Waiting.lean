import Mathlib.Data.List.DropRight
import SchemaDiagram.Proofs.Block.Extent

/-!
# The documentation above a line

While the reader goes down the text it collects documentation lines, and a line of code takes them
or drops them. What waits above a line can be told without the reader: from that line one goes up
to the closest one that has code or is blank, and the documentation lines on the way are those that
wait (`BlockReader.documentation_of_run`). So what a declaration is documented by is decided by the
lines directly above it. Whatever else the lines further up hold cannot reach it
(`documentationAbove_append_cons`), and a comment that is no documentation does not separate it from
the lines above that comment (`documentationAbove_append_comment`).
-/

namespace SchemaDiagram

/-- Whether the line separates the lines above it from those below: it has code, or it is blank. -/
def isSeparator (line : List Char) : Bool :=
  !(SourceLine.ofText line).code.isEmpty || (SourceLine.ofText line).comment.isNone

/-- The line of documentation that the text is, which is a comment with a third slash. -/
def docLine? (line : List Char) : Option (List Char) :=
  match (SourceLine.ofText line).comment with
  | some ('/' :: doc) => some (Text.strip doc)
  | _ => none

/-- The lines of documentation directly below the given lines, back to the last separator. -/
def docLinesAbove (above : List (List Char)) : List (List Char) :=
  (above.rtakeWhile fun line => !isSeparator line).filterMap docLine?

/-- The documentation of what stands directly below the given lines. Documentation that is empty
counts as none. -/
def documentationAbove (above : List (List Char)) : Option String :=
  let text := Text.joinLines ((docLinesAbove above).map String.ofList)
  if text.isEmpty then none else some text

theorem isSeparator_of_code_ne_nil {line : List Char} (h : (SourceLine.ofText line).code ≠ []) :
    isSeparator line = true := by
  simp [isSeparator, h]

/-! ## Lines that are added -/

theorem docLinesAbove_concat (above : List (List Char)) (line : List Char) :
    docLinesAbove (above ++ [line]) =
      if isSeparator line then [] else docLinesAbove above ++ (docLine? line).toList := by
  rw [docLinesAbove, List.rtakeWhile_concat]
  cases isSeparator line with
  | true => rfl
  | false =>
    rw [Bool.not_false, if_pos rfl, List.filterMap_append, ← docLinesAbove, List.filterMap_cons,
      List.filterMap_nil]
    cases docLine? line <;> rfl

/-- What stands above a separator does not count below it. -/
theorem docLinesAbove_append_cons {line : List Char} (h : isSeparator line = true)
    (above below : List (List Char)) :
    docLinesAbove (above ++ line :: below) = docLinesAbove below := by
  induction below using List.reverseRecOn with
  | nil =>
    rw [docLinesAbove_concat, if_pos h]
    rfl
  | append_singleton below last ih =>
    have hassoc : above ++ line :: (below ++ [last]) = above ++ line :: below ++ [last] := by simp
    rw [hassoc, docLinesAbove_concat, docLinesAbove_concat, ih]

/-- A comment that is no documentation leaves what stands above it where it is. -/
theorem docLinesAbove_append_comment {line : List Char} (h : isSeparator line = false)
    (hdoc : docLine? line = none) (above below : List (List Char)) :
    docLinesAbove (above ++ line :: below) = docLinesAbove (above ++ below) := by
  induction below using List.reverseRecOn with
  | nil =>
    rw [docLinesAbove_concat, h, hdoc, Option.toList_none, List.append_nil, List.append_nil]
    rfl
  | append_singleton below last ih =>
    have hassoc : above ++ line :: (below ++ [last]) = above ++ line :: below ++ [last] := by simp
    rw [hassoc, docLinesAbove_concat, ih, ← List.append_assoc, docLinesAbove_concat]

/-- **A line of code separates.** Its comment, and all that stands above it, has no part in the
documentation of what stands below. -/
theorem documentationAbove_append_cons {line : List Char}
    (h : (SourceLine.ofText line).code ≠ []) (above below : List (List Char)) :
    documentationAbove (above ++ line :: below) = documentationAbove below := by
  rw [documentationAbove, docLinesAbove_append_cons (isSeparator_of_code_ne_nil h),
    documentationAbove]

/-- **A comment does not separate**, and if it has no third slash it adds nothing either. -/
theorem documentationAbove_append_comment {line comment : List Char}
    (hcode : (SourceLine.ofText line).code = [])
    (hcomment : (SourceLine.ofText line).comment = some comment) (hslash : comment.head? ≠ some '/')
    (above below : List (List Char)) :
    documentationAbove (above ++ line :: below) = documentationAbove (above ++ below) := by
  have hdoc : docLine? line = none := by
    rw [docLine?, hcomment]
    cases comment with
    | nil => rfl
    | cons c comment =>
      have hc : c ≠ '/' := fun hc => hslash (by rw [hc, List.head?_cons])
      simp [hc]
  have hsep : isSeparator line = false := by simp [isSeparator, hcode, hcomment]
  rw [documentationAbove, docLinesAbove_append_comment hsep hdoc, documentationAbove]

/-! ## What waits -/

namespace BlockReader

variable {r m : BlockReader} {n : Nat} {text : List Char} {texts : List (List Char)}

/-- **One line and what waits.** -/
theorem Move.pending_eq (h : Move r n text m) :
    m.pending = if isSeparator text then [] else r.pending ++ (docLine? text).toList := by
  cases h with
  | layout hcode =>
    have hsep : isSeparator text = (SourceLine.ofText text).comment.isNone := by
      simp [isSeparator, hcode]
    rw [hsep, docLine?]
    rcases (SourceLine.ofText text).comment with _ | _ | ⟨c, doc⟩
    · rfl
    · simp [stepLayout]
    · by_cases hslash : c = '/'
      · subst hslash
        rfl
      · simp [stepLayout, hslash]
  | opens _ hspells => rw [isSeparator_of_code_ne_nil hspells.ne_nil, if_pos rfl]
  | empty _ hspells => rw [isSeparator_of_code_ne_nil hspells.ne_nil, if_pos rfl]
  | closes _ hclose => rw [isSeparator_of_code_ne_nil (by simp [hclose]), if_pos rfl]
  | enters _ hne _ _ _ => rw [isSeparator_of_code_ne_nil hne, if_pos rfl]

theorem pending_of_run (h : BlockReader.run {} 1 texts = .ok r) :
    r.pending = docLinesAbove texts :=
  run_induction (P := fun texts r => r.pending = docLinesAbove texts) rfl
    (fun texts text r m _ hr hmove => by rw [hmove.pending_eq, hr, docLinesAbove_concat]) h

/-- **What waits is the documentation above.** -/
theorem documentation_of_run (h : BlockReader.run {} 1 texts = .ok r) :
    r.documentation = documentationAbove texts := by
  rw [documentation, pending_of_run h, documentationAbove]

end BlockReader
end SchemaDiagram
