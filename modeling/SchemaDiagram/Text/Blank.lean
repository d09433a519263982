import SchemaDiagram.Text.CharRange

/-!
# Blank characters

A schema is read with one notion of blank throughout: the characters that may separate two parts
of a line, and that are cut off both ends of a line's code, of an argument and of a documentation
line. Besides the ASCII blanks these are the four information separators, the next-line character
and the Unicode spaces. The zero-width characters are not blank, nor is a byte order mark.
-/

namespace SchemaDiagram
namespace Text

/-- The inclusive ranges of code points that are blank. -/
def blankRanges : List (Nat × Nat) :=
  [(0x09, 0x0D), (0x1C, 0x20), (0x85, 0x85), (0xA0, 0xA0), (0x1680, 0x1680), (0x2000, 0x200A),
   (0x2028, 0x2029), (0x202F, 0x202F), (0x205F, 0x205F), (0x3000, 0x3000)]

/-- Whether the character is blank. -/
def isBlank (c : Char) : Bool :=
  inRanges blankRanges c

/-- The text without the blanks it starts with. -/
def stripStart (s : List Char) : List Char :=
  s.dropWhile isBlank

/-- The text without the blanks it ends with. -/
def stripEnd (s : List Char) : List Char :=
  (s.reverse.dropWhile isBlank).reverse

/-- The text without the blanks at either end. -/
def strip (s : List Char) : List Char :=
  stripEnd (stripStart s)

@[simp] theorem stripStart_nil : stripStart [] = [] := rfl

@[simp] theorem stripEnd_nil : stripEnd [] = [] := rfl

@[simp] theorem strip_nil : strip [] = [] := rfl

theorem stripStart_cons (c : Char) (s : List Char) :
    stripStart (c :: s) = if isBlank c then stripStart s else c :: s := by
  simp only [stripStart, List.dropWhile_cons]

/-- Stripping the start drops a prefix, so the text never grows. -/
theorem length_stripStart_le (s : List Char) : (stripStart s).length ≤ s.length :=
  (List.dropWhile_suffix isBlank).length_le

/-- What is left after stripping the start begins with no blank. -/
theorem isBlank_eq_false_of_stripStart {s r : List Char} {c : Char}
    (h : stripStart s = c :: r) : isBlank c = false := by
  induction s with
  | nil => simp at h
  | cons d s ih =>
    rw [stripStart_cons] at h
    by_cases hd : isBlank d
    · rw [if_pos hd] at h
      exact ih h
    · rw [if_neg hd] at h
      obtain ⟨rfl, -⟩ := List.cons.inj h
      simpa using hd

end Text
end SchemaDiagram
