import SchemaDiagram.Text.Blank

/-!
# The front of a text

Scanners consume a text from its front and hand on the rest. These are the two steps that several of
them share: a fixed piece of text, and a stretch of blanks that must not be empty.
-/

namespace SchemaDiagram
namespace Text

/-- The rest of the text after the given piece, if the text starts with that. -/
def dropFront? : List Char → List Char → Option (List Char)
  | [], text => some text
  | _ :: _, [] => none
  | p :: ps, c :: text => if p = c then dropFront? ps text else none

/-- The rest of the text after its blanks, if it starts with a blank. -/
def dropBlanks? : List Char → Option (List Char)
  | [] => none
  | c :: text => if isBlank c then some (stripStart text) else none

/-- A text starts with a piece exactly when it is that piece and the rest. -/
theorem dropFront?_eq_some_iff {piece text rest : List Char} :
    dropFront? piece text = some rest ↔ text = piece ++ rest := by
  induction piece generalizing text with
  | nil => simp [dropFront?, eq_comm]
  | cons p ps ih =>
    cases text with
    | nil => simp [dropFront?]
    | cons c text =>
      by_cases h : p = c
      · simp [dropFront?, h, ih]
      · simp [dropFront?, h, Ne.symm h]

end Text
end SchemaDiagram
