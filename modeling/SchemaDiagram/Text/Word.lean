import SchemaDiagram.Text.CharRange
import SchemaDiagram.Text.WordTable

/-!
# Names

A name starts with an ASCII letter or an underscore and goes on with word characters: letters and
digits of any script, characters with a numeric value, and the underscore. The names of blocks,
fields, enum values, attributes and arguments all have this form, and `readName` is the one place
that reads it. It takes the longest run of word characters, so a name is never cut short.
-/

namespace SchemaDiagram
namespace Text

/-- Whether the character may stand inside a name. The table is only asked about what lies beyond
ASCII. -/
def isWord (c : Char) : Bool :=
  c.isAlphanum || c == '_' || (decide (0x80 ≤ c.toNat) && inRanges wordRanges c)

/-- Whether the character may start a name. -/
def isNameStart (c : Char) : Bool :=
  c.isAlpha || c == '_'

/-- Whether the text is a name from its first character to its last. -/
def isName : List Char → Bool
  | [] => false
  | c :: r => isNameStart c && r.all isWord

/-- The name at the front of the text and the text after it, if the text starts with a name. -/
def readName : List Char → Option (List Char × List Char)
  | [] => none
  | c :: r => if isNameStart c then some (c :: r.takeWhile isWord, r.dropWhile isWord) else none

@[simp] theorem readName_nil : readName [] = none := rfl

theorem readName_cons (c : Char) (r : List Char) :
    readName (c :: r) =
      if isNameStart c then some (c :: r.takeWhile isWord, r.dropWhile isWord) else none :=
  rfl

/-- Reading a name loses nothing: the name and the rest make up the text. -/
theorem append_of_readName {s name rest : List Char} (h : readName s = some (name, rest)) :
    name ++ rest = s := by
  cases s with
  | nil => simp at h
  | cons c r =>
    rw [readName_cons] at h
    split at h
    · obtain ⟨rfl, rfl⟩ := Prod.mk.inj (Option.some.inj h)
      simp
    · simp at h

/-- A name that was read is a name. -/
theorem isName_of_readName {s name rest : List Char} (h : readName s = some (name, rest)) :
    isName name = true := by
  cases s with
  | nil => simp at h
  | cons c r =>
    rw [readName_cons] at h
    split at h
    · next hc =>
      obtain ⟨rfl, rfl⟩ := Prod.mk.inj (Option.some.inj h)
      simp [isName, hc]
    · simp at h

/-- Reading a name consumes at least one character. -/
theorem length_lt_of_readName {s name rest : List Char} (h : readName s = some (name, rest)) :
    rest.length < s.length := by
  have hname := isName_of_readName h
  rw [← append_of_readName h, List.length_append]
  cases name with
  | nil => simp [isName] at hname
  | cons c r => simp only [List.length_cons]; omega

end Text
end SchemaDiagram
