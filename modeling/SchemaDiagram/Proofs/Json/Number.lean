import SchemaDiagram.Json.Parser

/-!
# Whole numbers in JSON

A whole number is written in decimal and read back as itself (`readNumber_toString`), as long as the
text behind it does not go on with what could belong to a number. There is nothing to be said about
decimals here: they are read by their digits and their exponent, and of these there are several for
one number.
-/

namespace SchemaDiagram
namespace Json

/-- The text does not go on with a digit, a point or the letter of an exponent. -/
def EndsNumber (text : List Char) : Prop :=
  ∀ c ∈ text.head?, c.isDigit = false ∧ c ≠ '.' ∧ c ≠ 'e' ∧ c ≠ 'E'

theorem endsNumber_nil : EndsNumber [] := by
  intro c hc
  simp at hc

theorem endsNumber_cons {c : Char} {text : List Char} :
    EndsNumber (c :: text) ↔ c.isDigit = false ∧ c ≠ '.' ∧ c ≠ 'e' ∧ c ≠ 'E' := by
  simp [EndsNumber]

/-! ## Digits -/

theorem digitsValue_toDigits (n : Nat) : digitsValue (Nat.toDigits 10 n) = n := by
  have hfold := Nat.ofDigitChars_ten_toDigits (n := n)
  rwa [Nat.ofDigitChars_eq_foldl] at hfold

theorem isDigit_of_mem_toDigits (n : Nat) : ∀ c ∈ Nat.toDigits 10 n, c.isDigit = true :=
  fun _ hc => Nat.isDigit_of_mem_toDigits (by decide) (by decide) hc

/-- A number that is not zero is not written with a zero in front. -/
theorem head?_toDigits_ne {n : Nat} (hn : n ≠ 0) : (Nat.toDigits 10 n).head? ≠ some '0' := by
  induction n using Nat.strongRecOn with
  | ind n ih =>
    rw [Nat.toDigits_eq_if (by decide)]
    split
    · next hsmall =>
      have hall : ∀ m < 10, m ≠ 0 → [m.digitChar].head? ≠ some '0' := by decide
      exact hall n hsmall hn
    · next hlarge =>
      have hfront := ih (n / 10) (by omega) (by omega)
      cases hdigits : Nat.toDigits 10 (n / 10) with
      | nil => exact absurd hdigits Nat.toDigits_ne_nil
      | cons d ds => rwa [hdigits] at hfront

/-- The digits of a number either are one, or do not start with a zero. -/
theorem toDigits_hasNoZero (n : Nat) :
    ¬ ((Nat.toDigits 10 n).length > 1 ∧ (Nat.toDigits 10 n).head? = some '0') := by
  rintro ⟨hlength, hhead⟩
  by_cases hn : n = 0
  · subst hn
    simp at hlength
  · exact head?_toDigits_ne hn hhead

/-! ## Reading a number -/

theorem takeWhile_append_of_endsNumber {digits rest : List Char}
    (hdigits : ∀ c ∈ digits, c.isDigit = true) (hrest : EndsNumber rest) :
    (digits ++ rest).takeWhile Char.isDigit = digits ∧
      (digits ++ rest).dropWhile Char.isDigit = rest := by
  rw [List.takeWhile_append_of_pos hdigits, List.dropWhile_append_of_pos hdigits]
  cases rest with
  | nil => simp
  | cons c rest =>
    have hc := (endsNumber_cons.mp hrest).1
    simp [hc]

theorem readDigits_append {digits rest : List Char} (hne : digits ≠ [])
    (hdigits : ∀ c ∈ digits, c.isDigit = true) (hrest : EndsNumber rest) :
    readDigits (digits ++ rest) = some (digits, rest) := by
  obtain ⟨htake, hdrop⟩ := takeWhile_append_of_endsNumber hdigits hrest
  simp [readDigits, htake, hdrop, hne]

theorem readFraction_of_endsNumber {text : List Char} (h : EndsNumber text) :
    readFraction text = some (none, text) := by
  unfold readFraction
  split
  · exact absurd rfl (endsNumber_cons.mp h).2.1
  · rfl

theorem readExponent_of_endsNumber {text : List Char} (h : EndsNumber text) :
    readExponent text = some (none, text) := by
  cases text with
  | nil => rfl
  | cons c text =>
    obtain ⟨-, -, hlower, hupper⟩ := endsNumber_cons.mp h
    exact if_neg (not_or.mpr ⟨hlower, hupper⟩)

theorem readUnsigned_toDigits (negative : Bool) (n : Nat) {rest : List Char}
    (hrest : EndsNumber rest) :
    readUnsigned negative (Nat.toDigits 10 n ++ rest) =
      some (.integer (if negative then -(n : Int) else n), rest) := by
  rw [readUnsigned, readDigits_append Nat.toDigits_ne_nil (isDigit_of_mem_toDigits n) hrest]
  simp only [Option.bind_eq_bind, Option.bind_some, if_neg (toDigits_hasNoZero n),
    readFraction_of_endsNumber hrest, readExponent_of_endsNumber hrest, digitsValue_toDigits]

theorem toList_toString_ofNat (n : Nat) :
    (toString (Int.ofNat n)).toList = Nat.toDigits 10 n := by
  have htext : toString (Int.ofNat n) = n.repr := rfl
  rw [htext, Nat.repr_eq_ofList_toDigits, String.toList_ofList]

theorem toList_toString_negSucc (n : Nat) :
    (toString (Int.negSucc n)).toList = '-' :: Nat.toDigits 10 (n + 1) := by
  have htext : toString (Int.negSucc n) = "-" ++ (n + 1).repr := rfl
  simp [htext, Nat.repr_eq_ofList_toDigits, String.toList_append]

/-- A text that starts with a digit has no sign. -/
theorem readNumber_cons {c : Char} (hc : c.isDigit = true) (text : List Char) :
    readNumber (c :: text) = readUnsigned false (c :: text) := by
  unfold readNumber
  split
  · next heq =>
    rw [(List.cons.inj heq).1] at hc
    exact absurd hc (by decide)
  · rfl

/-- **A whole number is read back.** -/
theorem readNumber_toString (n : Int) {rest : List Char} (hrest : EndsNumber rest) :
    readNumber ((toString n).toList ++ rest) = some (.integer n, rest) := by
  cases n with
  | ofNat n =>
    rw [toList_toString_ofNat]
    cases hdigits : Nat.toDigits 10 n with
    | nil => exact absurd hdigits Nat.toDigits_ne_nil
    | cons d ds =>
      have hd := isDigit_of_mem_toDigits n d (by rw [hdigits]; exact List.mem_cons_self ..)
      rw [List.cons_append, readNumber_cons hd, ← List.cons_append, ← hdigits,
        readUnsigned_toDigits false n hrest]
      rfl
  | negSucc n =>
    rw [toList_toString_negSucc, List.cons_append, readNumber,
      readUnsigned_toDigits true (n + 1) hrest]
    rfl

end Json
end SchemaDiagram
