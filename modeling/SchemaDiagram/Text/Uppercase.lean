import SchemaDiagram.Text.UppercaseTable

/-!
# Upper case

The name of a log level may be given in any case. It is brought to upper case by the full mapping of
Unicode, under which a character may become several, before it is looked up.
-/

namespace SchemaDiagram
namespace Text

/-- The upper-case form of a code point in the run, if it belongs to the run. -/
def UppercaseRun.form? (run : UppercaseRun) (n : Nat) : Option Nat :=
  if run.first ≤ n ∧ n ≤ run.last ∧ (n - run.first) % run.step = 0 then
    some (n + run.distance).toNat
  else
    none

/-- The upper-case form of a character. -/
def upperChar (c : Char) : List Char :=
  if c.toNat < 0x80 then [c.toUpper]
  else match longUppercase.lookup c.toNat with
    | some form => form.map Char.ofNat
    | none => match uppercaseRuns.findSome? (·.form? c.toNat) with
      | some n => [Char.ofNat n]
      | none => [c]

/-- The text in upper case. -/
def upper (s : List Char) : List Char :=
  s.flatMap upperChar

end Text
end SchemaDiagram
