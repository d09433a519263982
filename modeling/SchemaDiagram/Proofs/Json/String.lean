import Mathlib.Data.Bool.AllAny
import Mathlib.Tactic.SplitIfs
import SchemaDiagram.Json.Parser
import SchemaDiagram.Json.Printer

/-!
# Strings in JSON

A string is written with ASCII characters only, whatever it holds, and the reader gets back every
character of it. What stands between the two are code units: a character up to U+FFFF is one unit,
and a character beyond is two, the halves of its surrogate pair (`unitsOf`). The text of a character
is read as its units (`readUnits_encodeChar`), and units are put together without regard to how they
were written (`ofUnits?_unitsOf`). No half of a pair is ever left over, because no character is a
surrogate itself.
-/

namespace SchemaDiagram
namespace Json

/-! ## Code units -/

/-- The code units of a character: the character itself, or the halves of its surrogate pair. -/
def unitsOf (c : Char) : List Nat :=
  if c.toNat < 0x10000 then [c.toNat]
  else [0xD800 + (c.toNat - 0x10000) / 0x400, 0xDC00 + (c.toNat - 0x10000) % 0x400]

/-- No character is a surrogate. -/
theorem toNat_lt_or_lt (c : Char) : c.toNat < 0xD800 ∨ 0xDFFF < c.toNat ∧ c.toNat < 0x110000 :=
  c.valid

/-- A unit that is no surrogate is a character. -/
theorem ofUnits?_cons {n : Nat} (h : n < 0xD800 ∨ 0xDFFF < n) (units : List Nat) :
    ofUnits? (n :: units) = (ofUnits? units).map (Char.ofNat n :: ·) := by
  have hsurrogate : ¬ (0xD800 ≤ n ∧ n < 0xE000) := by omega
  cases units with
  | nil => simp [ofUnits?, hsurrogate]
  | cons low rest => rw [ofUnits?, if_neg (by omega), if_neg hsurrogate]

/-- The units of a character are put together to the character. -/
theorem ofUnits?_unitsOf (c : Char) (units : List Nat) :
    ofUnits? (unitsOf c ++ units) = (ofUnits? units).map (c :: ·) := by
  have hvalid := toNat_lt_or_lt c
  rw [unitsOf]
  split
  · rw [List.singleton_append, ofUnits?_cons (by omega), Char.ofNat_toNat]
  · next hlarge =>
    have hpair : 0x10000 + (0xD800 + (c.toNat - 0x10000) / 0x400 - 0xD800) * 0x400 +
        (0xDC00 + (c.toNat - 0x10000) % 0x400 - 0xDC00) = c.toNat := by
      omega
    rw [List.cons_append, List.singleton_append, ofUnits?, if_pos (by omega), hpair,
      Char.ofNat_toNat]

theorem ofUnits?_flatMap_unitsOf (s : List Char) : ofUnits? (s.flatMap unitsOf) = some s := by
  induction s with
  | nil => rfl
  | cons c s ih => rw [List.flatMap_cons, ofUnits?_unitsOf, ih, Option.map_some]

/-! ## Reading one character -/

theorem hexValue?_hexDigit {n : Nat} (h : n < 16) : hexValue? (Text.hexDigit n) = some n := by
  have hall : ∀ n < 16, hexValue? (Text.hexDigit n) = some n := by decide
  exact hall n h

/-- The four digits of a unit are read as the unit. -/
theorem readUnits_unitEscape {n : Nat} (h : n < 0x10000) (text : List Char) :
    readUnits (unitEscape n ++ text) = (readUnits text).map fun r => (n :: r.1, r.2) := by
  have hvalue : unitValue? (Text.hexDigit (n / 16 / 16 / 16 % 16))
      (Text.hexDigit (n / 16 / 16 % 16)) (Text.hexDigit (n / 16 % 16)) (Text.hexDigit (n % 16)) =
        some n := by
    simp only [unitValue?, hexValue?_hexDigit (Nat.mod_lt _ (by decide : 0 < 16)),
      Option.bind_eq_bind, Option.bind_some, Option.some.injEq]
    omega
  simp only [unitEscape, Text.hexDigits, List.nil_append, List.cons_append, readUnits, hvalue,
    Option.bind_eq_bind, Option.bind_some]

/-- A character that stands for itself is read as itself. -/
theorem readUnits_cons {c : Char} (hquote : c ≠ '"') (hslash : c ≠ '\\') (hc : 0x20 ≤ c.toNat)
    (text : List Char) :
    readUnits (c :: text) = (readUnits text).map fun r => (c.toNat :: r.1, r.2) := by
  rw [readUnits.eq_def]
  split
  · next heq => simp at heq
  · next heq => exact absurd (List.cons.inj heq).1 hquote
  · next heq => exact absurd (List.cons.inj heq).1 hslash
  · next heq => exact absurd (List.cons.inj heq).1 hslash
  · next heq =>
    obtain ⟨rfl, rfl⟩ := List.cons.inj heq
    rw [if_neg (by simp only [hslash, or_false]; omega)]

/-- The text of a character is read as its code units. -/
theorem readUnits_encodeChar (c : Char) (text : List Char) :
    readUnits (encodeChar c ++ text) = (readUnits text).map fun r => (unitsOf c ++ r.1, r.2) := by
  have hvalid := toNat_lt_or_lt c
  by_cases hquote : c = '"'
  · subst hquote
    rfl
  by_cases hslash : c = '\\'
  · subst hslash
    rfl
  by_cases hfeed : c = '\n'
  · subst hfeed
    rfl
  by_cases hreturn : c = '\r'
  · subst hreturn
    rfl
  by_cases htab : c = '\t'
  · subst htab
    rfl
  by_cases hback : c = '\x08'
  · subst hback
    rfl
  by_cases hform : c = '\x0C'
  · subst hform
    rfl
  rw [encodeChar, if_neg hquote, if_neg hslash, if_neg hfeed, if_neg hreturn, if_neg htab,
    if_neg hback, if_neg hform]
  split
  · next hvisible =>
    rw [List.singleton_append, readUnits_cons hquote hslash hvisible.1, unitsOf,
      if_pos (by omega)]
    rfl
  · split
    · next hsmall =>
      rw [readUnits_unitEscape hsmall, unitsOf, if_pos hsmall]
      rfl
    · next hlarge =>
      rw [List.append_assoc, readUnits_unitEscape (by omega), readUnits_unitEscape (by omega),
        unitsOf, if_neg hlarge, Option.map_map]
      rfl

/-! ## Reading a string -/

theorem readUnits_encoded (s rest : List Char) :
    readUnits (s.flatMap encodeChar ++ '"' :: rest) = some (s.flatMap unitsOf, rest) := by
  induction s with
  | nil => rfl
  | cons c s ih =>
    rw [List.flatMap_cons, List.append_assoc, readUnits_encodeChar, ih, Option.map_some,
      List.flatMap_cons]

/-- **A string that was written is read back,** whatever characters it holds. -/
theorem readString_encoded (s rest : List Char) :
    readString (s.flatMap encodeChar ++ '"' :: rest) = some (s, rest) := by
  rw [readString, readUnits_encoded]
  simp only [Option.bind_eq_bind, Option.bind_some, ofUnits?_flatMap_unitsOf]

/-! ## The characters that are written -/

/-- A character of the visible range of ASCII, from the blank to the tilde. -/
def IsVisible (c : Char) : Prop :=
  0x20 ≤ c.toNat ∧ c.toNat ≤ 0x7E

instance (c : Char) : Decidable (IsVisible c) :=
  inferInstanceAs (Decidable (0x20 ≤ c.toNat ∧ c.toNat ≤ 0x7E))

theorem isVisible_hexDigit {n : Nat} (h : n < 16) : IsVisible (Text.hexDigit n) := by
  have hall : ∀ n < 16, IsVisible (Text.hexDigit n) := by decide
  exact hall n h

theorem isVisible_hexDigits {width n : Nat} : ∀ c ∈ Text.hexDigits width n, IsVisible c := by
  induction width generalizing n with
  | zero => simp [Text.hexDigits]
  | succ width ih =>
    rw [Text.hexDigits, List.forall_mem_append, List.forall_mem_singleton]
    exact ⟨ih, isVisible_hexDigit (Nat.mod_lt _ (by decide))⟩

theorem isVisible_unitEscape {n : Nat} : ∀ c ∈ unitEscape n, IsVisible c := by
  rw [unitEscape, List.forall_mem_cons, List.forall_mem_cons]
  exact ⟨by decide, by decide, isVisible_hexDigits⟩

theorem isVisible_encodeChar (c : Char) : ∀ d ∈ encodeChar c, IsVisible d := by
  unfold encodeChar
  split_ifs with _ _ _ _ _ _ _ hvisible
  iterate 7 exact List.all_iff_forall_prop.mp (by decide)
  · exact List.forall_mem_singleton.mpr hvisible
  · exact isVisible_unitEscape
  · exact List.forall_mem_append.mpr ⟨isVisible_unitEscape, isVisible_unitEscape⟩

/-- **A written string is visible,** from its first quote to its last. -/
theorem isVisible_encodeString (s : List Char) : ∀ c ∈ encodeString s, IsVisible c := by
  rw [encodeString, List.forall_mem_cons, List.forall_mem_append, List.forall_mem_singleton]
  refine ⟨by decide, fun d hd => ?_, by decide⟩
  obtain ⟨c, -, hc⟩ := List.mem_flatMap.mp hd
  exact isVisible_encodeChar c d hc

end Json
end SchemaDiagram
