import SchemaDiagram.Proofs.Json.Number
import SchemaDiagram.Proofs.Json.String

/-!
# JSON that is written and read back

A value without decimals is read back from what was written of it, on one line or indented
(`IsDecimalFree.parseChars?_print`), and what was written is visible ASCII but for the line feeds of
the layout (`IsDecimalFree.isPlain_print`). Every value this library writes is of that kind.

Both are shown for a value from the same of its parts. The reader has a bound on the depth of its
calls, and what it needs of it is measured by the text: a call that reads a value of length `n` gets
by with `2 * n`, because every call but those from a list to its first part leaves a bracket or a
comma behind.
-/

namespace SchemaDiagram
namespace Json

/-- A value that holds no decimal. -/
inductive IsDecimalFree : Json → Prop where
  | null : IsDecimalFree .null
  | bool (b : Bool) : IsDecimalFree (.bool b)
  | integer (n : Int) : IsDecimalFree (.integer n)
  | string (s : String) : IsDecimalFree (.string s)
  | array {vs : List Json} : (∀ v ∈ vs, IsDecimalFree v) → IsDecimalFree (.array vs)
  | object {ms : List (String × Json)} :
      (∀ m ∈ ms, IsDecimalFree m.2) → IsDecimalFree (.object ms)

/-! ## Space between the parts -/

/-- A text of spaces. -/
def IsSpacing (text : List Char) : Prop :=
  ∀ c ∈ text, isSpace c = true

namespace Layout

theorem isSpacing_lineStart (l : Layout) : IsSpacing l.lineStart := by
  cases l with
  | oneLine => simp [IsSpacing, lineStart]
  | indented depth =>
    rw [lineStart, IsSpacing, List.forall_mem_cons]
    refine ⟨by decide, fun c hc => ?_⟩
    rw [List.eq_of_mem_replicate hc]
    rfl

/-- A separator is a comma with space behind it. -/
theorem exists_separator (l : Layout) : ∃ ws, IsSpacing ws ∧ l.separator = ',' :: ws := by
  cases l with
  | oneLine => exact ⟨[' '], by simp [IsSpacing, isSpace], rfl⟩
  | indented depth => exact ⟨_, isSpacing_lineStart (.indented depth), rfl⟩

end Layout

theorem skipSpace_append {ws : List Char} (h : IsSpacing ws) (text : List Char) :
    skipSpace (ws ++ text) = skipSpace text :=
  List.dropWhile_append_of_pos h

theorem skipSpace_cons {c : Char} (h : isSpace c = false) (text : List Char) :
    skipSpace (c :: text) = c :: text := by
  simp [skipSpace, h]

theorem readValue_spacing {ws : List Char} (h : IsSpacing ws) (bound : Nat) (text : List Char) :
    readValue bound (ws ++ text) = readValue bound text := by
  cases bound with
  | zero => rfl
  | succ bound => rw [readValue, readValue, skipSpace_append h]

theorem readItems_spacing {ws : List Char} (h : IsSpacing ws) (bound : Nat) (text : List Char) :
    readItems bound (ws ++ text) = readItems bound text := by
  cases bound with
  | zero => rfl
  | succ bound => rw [readItems, readItems, readValue_spacing h]

theorem readMembers_spacing {ws : List Char} (h : IsSpacing ws) (bound : Nat)
    (text : List Char) : readMembers bound (ws ++ text) = readMembers bound text := by
  cases bound with
  | zero => rfl
  | succ bound => rw [readMembers, readMembers, skipSpace_append h]

/-- A number ends where space or a bracket follows. -/
theorem endsNumber_spacing {ws : List Char} (h : IsSpacing ws) {text : List Char}
    (htext : EndsNumber text) : EndsNumber (ws ++ text) := by
  cases ws with
  | nil => exact htext
  | cons c ws =>
    have hc : isSpace c = true := h c (List.mem_cons_self ..)
    rw [List.cons_append, endsNumber_cons]
    simp only [isSpace, Bool.or_eq_true, beq_iff_eq] at hc
    rcases hc with ((rfl | rfl) | rfl) | rfl <;> decide

/-! ## The first character of a value -/

/-- A text whose first character is no space and closes no bracket. -/
def StartsValue (text : List Char) : Prop :=
  ∃ c rest, text = c :: rest ∧ isSpace c = false ∧ c ≠ ']'

theorem StartsValue.append {text : List Char} (h : StartsValue text) (rest : List Char) :
    StartsValue (text ++ rest) := by
  obtain ⟨c, text, rfl, hc⟩ := h
  exact ⟨c, text ++ rest, rfl, hc⟩

theorem exists_toString_cons (n : Int) :
    ∃ c text, (toString n).toList = c :: text ∧ (c.isDigit = true ∨ c = '-') := by
  cases n with
  | ofNat n =>
    rw [toList_toString_ofNat]
    cases hdigits : Nat.toDigits 10 n with
    | nil => exact absurd hdigits Nat.toDigits_ne_nil
    | cons d ds =>
      exact ⟨d, ds, rfl, .inl (isDigit_of_mem_toDigits n d (by simp [hdigits]))⟩
  | negSucc n => exact ⟨'-', _, toList_toString_negSucc n, .inr rfl⟩

/-- A number starts with a character that starts nothing else. -/
theorem ne_of_startsNumber {c : Char} (h : c.isDigit = true ∨ c = '-') :
    isSpace c = false ∧ c ∉ ['"', '[', '{', ']', 'n', 't', 'f'] := by
  rcases h with h | rfl
  · constructor
    · rw [Bool.eq_false_iff]
      intro hspace
      simp only [isSpace, Bool.or_eq_true, beq_iff_eq] at hspace
      rcases hspace with ((rfl | rfl) | rfl) | rfl <;> exact absurd h (by decide)
    · intro hmem
      simp only [List.mem_cons, List.not_mem_nil, or_false] at hmem
      rcases hmem with rfl | rfl | rfl | rfl | rfl | rfl | rfl <;> exact absurd h (by decide)
  · decide

theorem print_array_cons (l : Layout) (v : Json) (vs : List Json) :
    (Json.array (v :: vs)).print l =
      '[' :: (l.inner.lineStart ++ printItems l.inner (v :: vs) ++ l.lineStart ++ [']']) := by
  rw [print]

theorem print_object_cons (l : Layout) (m : String × Json) (ms : List (String × Json)) :
    (Json.object (m :: ms)).print l =
      '{' :: (l.inner.lineStart ++ printMembers l.inner (m :: ms) ++ l.lineStart ++ ['}']) := by
  rw [print]

theorem startsValue_print (l : Layout) {v : Json} (hv : v.IsDecimalFree) :
    StartsValue (v.print l) := by
  cases hv with
  | null => exact ⟨'n', _, rfl, by decide⟩
  | bool b => cases b <;> exact ⟨_, _, rfl, by decide⟩
  | integer n =>
    obtain ⟨c, text, htext, hc⟩ := exists_toString_cons n
    obtain ⟨hspace, hne⟩ := ne_of_startsNumber hc
    exact ⟨c, text, htext, hspace, fun h => hne (by simp [h])⟩
  | string s => exact ⟨'"', _, rfl, by decide⟩
  | @array vs _ =>
    cases vs with
    | nil => exact ⟨'[', _, rfl, by decide⟩
    | cons v vs => exact ⟨'[', _, print_array_cons .., by decide⟩
  | @object ms _ =>
    cases ms with
    | nil => exact ⟨'{', _, rfl, by decide⟩
    | cons m ms => exact ⟨'{', _, print_object_cons .., by decide⟩

/-! ## Reading back -/

/-- What is written of a value is read as the value, in any layout and by any call with enough of a
bound, up to where it ends. -/
def ReadsBack (v : Json) : Prop :=
  ∀ (l : Layout) (bound : Nat) (rest : List Char), 2 * (v.print l).length ≤ bound →
    EndsNumber rest → readValue bound (v.print l ++ rest) = some (v, rest)

theorem readValue_scalar {c : Char} (hspace : isSpace c = false)
    (hc : c ≠ '"' ∧ c ≠ '[' ∧ c ≠ '{') (bound : Nat) (text : List Char) :
    readValue (bound + 1) (c :: text) = readScalar (c :: text) := by
  rw [readValue, skipSpace_cons hspace]
  split
  · next heq => exact absurd (List.cons.inj heq).1 hc.1
  · next heq => exact absurd (List.cons.inj heq).1 hc.2.1
  · next heq => exact absurd (List.cons.inj heq).1 hc.2.2
  · rfl

theorem readScalar_number {c : Char} (hc : c ≠ 'n' ∧ c ≠ 't' ∧ c ≠ 'f') (text : List Char) :
    readScalar (c :: text) = readNumber (c :: text) := by
  unfold readScalar
  split
  · next heq => exact absurd (List.cons.inj heq).1 hc.1
  · next heq => exact absurd (List.cons.inj heq).1 hc.2.1
  · next heq => exact absurd (List.cons.inj heq).1 hc.2.2
  · rfl

/-- A value without parts is read back if it is read as a constant or a number. -/
theorem readsBack_of_readScalar {v : Json} {c : Char} {text : List Char}
    (hprint : ∀ l, v.print l = c :: text) (hspace : isSpace c = false)
    (hc : c ≠ '"' ∧ c ≠ '[' ∧ c ≠ '{')
    (hread : ∀ rest, EndsNumber rest → readScalar (c :: (text ++ rest)) = some (v, rest)) :
    v.ReadsBack := by
  intro l bound rest hbound hrest
  rw [hprint, List.length_cons] at hbound
  obtain ⟨bound, rfl⟩ : ∃ b, bound = b + 1 := ⟨bound - 1, by omega⟩
  rw [hprint, List.cons_append, readValue_scalar hspace hc, hread rest hrest]

theorem readsBack_null : ReadsBack .null :=
  readsBack_of_readScalar (fun _ => rfl) (by decide) (by decide) fun _ _ => rfl

theorem readsBack_bool (b : Bool) : ReadsBack (.bool b) := by
  cases b with
  | false => exact readsBack_of_readScalar (fun _ => rfl) (by decide) (by decide) fun _ _ => rfl
  | true => exact readsBack_of_readScalar (fun _ => rfl) (by decide) (by decide) fun _ _ => rfl

theorem readsBack_integer (n : Int) : ReadsBack (.integer n) := by
  obtain ⟨c, text, htext, hc⟩ := exists_toString_cons n
  obtain ⟨hspace, hne⟩ := ne_of_startsNumber hc
  simp only [List.mem_cons, List.not_mem_nil, or_false, not_or] at hne
  obtain ⟨hquote, hbracket, hbrace, -, hn, ht, hf⟩ := hne
  refine readsBack_of_readScalar (fun _ => htext) hspace ⟨hquote, hbracket, hbrace⟩
    fun rest hrest => ?_
  rw [readScalar_number ⟨hn, ht, hf⟩, ← List.cons_append, ← htext, readNumber_toString n hrest]

theorem readsBack_string (s : String) : ReadsBack (.string s) := by
  intro l bound rest hbound _
  have hprint : (Json.string s).print l = '"' :: (s.toList.flatMap encodeChar ++ ['"']) := rfl
  rw [hprint, List.length_cons] at hbound
  obtain ⟨bound, rfl⟩ : ∃ b, bound = b + 1 := ⟨bound - 1, by omega⟩
  rw [hprint, List.cons_append, List.append_assoc, List.singleton_append, readValue,
    skipSpace_cons (by decide)]
  simp only [readString_encoded, Option.map_some, String.ofList_toList]

/-- The items of an array are read back if each of them is. -/
theorem readItems_printItems (l : Layout) {vs : List Json} (hne : vs ≠ [])
    (hvs : ∀ v ∈ vs, v.ReadsBack) {bound : Nat}
    (hbound : 2 * (printItems l vs).length < bound) {ws : List Char} (hws : IsSpacing ws)
    (rest : List Char) :
    readItems bound (printItems l vs ++ (ws ++ ']' :: rest)) = some (vs, rest) := by
  induction vs generalizing bound with
  | nil => exact absurd rfl hne
  | cons v vs ih =>
    obtain ⟨bound, rfl⟩ : ∃ b, bound = b + 1 := ⟨bound - 1, by omega⟩
    have hv : v.ReadsBack := hvs v (List.mem_cons_self ..)
    cases vs with
    | nil =>
      have hend : EndsNumber (ws ++ ']' :: rest) :=
        endsNumber_spacing hws (endsNumber_cons.mpr (by decide))
      rw [printItems] at hbound ⊢
      rw [readItems, hv l bound _ (by omega) hend]
      simp only [skipSpace_append hws, skipSpace_cons (c := ']') (by decide)]
    | cons w vs =>
      obtain ⟨gap, hgap, hseparator⟩ := l.exists_separator
      rw [printItems, hseparator] at hbound ⊢
      simp only [List.length_append, List.length_cons] at hbound
      have hbound' : 2 * (printItems l (w :: vs)).length < bound := by omega
      have hitems := ih (List.cons_ne_nil w vs)
        (fun x hx => hvs x (List.mem_cons_of_mem _ hx)) hbound'
      rw [List.append_assoc, List.append_assoc, List.cons_append, readItems,
        hv l bound _ (by omega) (endsNumber_cons.mpr (by decide))]
      simp only [skipSpace_cons (c := ',') (by decide), readItems_spacing hgap, hitems,
        Option.map_some]

/-- An array that is not empty is read by its items. -/
theorem readValue_array {text : List Char} (htext : StartsValue text) {ws : List Char}
    (hws : IsSpacing ws) (bound : Nat) :
    readValue (bound + 1) ('[' :: (ws ++ text)) =
      (readItems bound text).map fun r => (.array r.1, r.2) := by
  obtain ⟨c, text, rfl, hspace, hc⟩ := htext
  rw [readValue, skipSpace_cons (by decide)]
  simp only [skipSpace_append hws, skipSpace_cons hspace]
  split
  · next heq => exact absurd (List.cons.inj heq).1 hc
  · rfl

theorem startsValue_printItems (l : Layout) {v : Json} {vs : List Json}
    (hv : v.IsDecimalFree) : StartsValue (printItems l (v :: vs)) := by
  cases vs with
  | nil => exact startsValue_print l hv
  | cons w vs =>
    rw [printItems, List.append_assoc]
    exact (startsValue_print l hv).append _

theorem readsBack_array {vs : List Json} (hfree : ∀ v ∈ vs, v.IsDecimalFree)
    (hvs : ∀ v ∈ vs, v.ReadsBack) : ReadsBack (.array vs) := by
  intro l bound rest hbound _
  cases vs with
  | nil =>
    obtain ⟨bound, rfl⟩ : ∃ b, bound = b + 1 := ⟨bound - 1, by simp [print] at hbound; omega⟩
    rw [print, List.cons_append, readValue, skipSpace_cons (by decide)]
    rfl
  | cons v vs =>
    rw [print_array_cons] at hbound ⊢
    simp only [List.length_cons, List.length_append, List.length_nil] at hbound
    obtain ⟨bound, rfl⟩ : ∃ b, bound = b + 1 := ⟨bound - 1, by omega⟩
    have hstarts : StartsValue (printItems l.inner (v :: vs) ++ (l.lineStart ++ ']' :: rest)) :=
      (startsValue_printItems l.inner (hfree v (List.mem_cons_self ..))).append _
    have hbound' : 2 * (printItems l.inner (v :: vs)).length < bound := by omega
    have hitems := readItems_printItems l.inner (List.cons_ne_nil v vs) hvs hbound'
      l.isSpacing_lineStart rest
    simp only [List.append_assoc, List.cons_append, List.nil_append]
    rw [readValue_array hstarts l.inner.isSpacing_lineStart, hitems, Option.map_some]

/-! ### Objects -/

/-- A member is read by its name and its value, and the comma or the bracket behind it says whether
it is the last. -/
theorem readMembers_encoded (k : String) {v : Json} {l : Layout} {bound : Nat}
    {rest behind : List Char} (hv : readValue bound (v.print l ++ rest) = some (v, rest)) :
    let text := encodeString k.toList ++ ':' :: ' ' :: (v.print l ++ rest)
    (skipSpace rest = ',' :: behind → readMembers (bound + 1) text =
      (readMembers bound behind).map fun r => ((k, v) :: r.1, r.2)) ∧
    (skipSpace rest = '}' :: behind → readMembers (bound + 1) text = some ([(k, v)], behind)) := by
  have hvalue : readValue bound (' ' :: (v.print l ++ rest)) = some (v, rest) := by
    rw [← List.singleton_append, readValue_spacing (by simp [IsSpacing, isSpace]), hv]
  simp only [encodeString, List.cons_append, List.append_assoc, List.nil_append]
  constructor
  all_goals
    intro hrest
    rw [readMembers, skipSpace_cons (by decide)]
    simp only [readString_encoded, skipSpace_cons (c := ':') (by decide), hvalue, hrest,
      String.ofList_toList]

/-- The members of an object are read back if the value of each of them is. -/
theorem readMembers_printMembers (l : Layout) {ms : List (String × Json)} (hne : ms ≠ [])
    (hms : ∀ m ∈ ms, m.2.ReadsBack) {bound : Nat}
    (hbound : 2 * (printMembers l ms).length < bound) {ws : List Char} (hws : IsSpacing ws)
    (rest : List Char) :
    readMembers bound (printMembers l ms ++ (ws ++ '}' :: rest)) = some (ms, rest) := by
  induction ms generalizing bound with
  | nil => exact absurd rfl hne
  | cons m ms ih =>
    obtain ⟨k, v⟩ := m
    obtain ⟨bound, rfl⟩ : ∃ b, bound = b + 1 := ⟨bound - 1, by omega⟩
    have hv : v.ReadsBack := hms (k, v) (List.mem_cons_self ..)
    cases ms with
    | nil =>
      have hend : EndsNumber (ws ++ '}' :: rest) :=
        endsNumber_spacing hws (endsNumber_cons.mpr (by decide))
      rw [printMembers] at hbound ⊢
      simp only [List.length_append, List.length_cons] at hbound
      have hvalue := hv l bound _ (by omega) hend
      rw [List.append_assoc, List.cons_append, List.cons_append]
      refine (readMembers_encoded k hvalue).2 ?_
      rw [skipSpace_append hws, skipSpace_cons (by decide)]
    | cons n ms =>
      obtain ⟨gap, hgap, hseparator⟩ := l.exists_separator
      rw [printMembers, hseparator] at hbound ⊢
      simp only [List.length_append, List.length_cons] at hbound
      have hbound' : 2 * (printMembers l (n :: ms)).length < bound := by omega
      have hmembers := ih (List.cons_ne_nil n ms)
        (fun x hx => hms x (List.mem_cons_of_mem _ hx)) hbound'
      have hvalue := hv l bound
        (',' :: (gap ++ (printMembers l (n :: ms) ++ (ws ++ '}' :: rest)))) (by omega)
        (endsNumber_cons.mpr (by decide))
      simp only [List.append_assoc, List.cons_append]
      rw [(readMembers_encoded k hvalue).1 (skipSpace_cons (by decide) _),
        readMembers_spacing hgap, hmembers, Option.map_some]

/-- An object that is not empty is read by its members. -/
theorem readValue_object (text : List Char) {ws : List Char} (hws : IsSpacing ws) (bound : Nat) :
    readValue (bound + 1) ('{' :: (ws ++ '"' :: text)) =
      (readMembers bound ('"' :: text)).map fun r => (.object r.1, r.2) := by
  rw [readValue, skipSpace_cons (by decide)]
  simp only [skipSpace_append hws, skipSpace_cons (c := '"') (by decide)]
  rfl

theorem exists_printMembers_cons (l : Layout) (m : String × Json) (ms : List (String × Json)) :
    ∃ text, printMembers l (m :: ms) = '"' :: text := by
  cases ms with
  | nil => exact ⟨_, rfl⟩
  | cons n ms => exact ⟨_, by rw [printMembers]; rfl⟩

theorem readsBack_object {ms : List (String × Json)} (hms : ∀ m ∈ ms, m.2.ReadsBack) :
    ReadsBack (.object ms) := by
  intro l bound rest hbound _
  cases ms with
  | nil =>
    obtain ⟨bound, rfl⟩ : ∃ b, bound = b + 1 := ⟨bound - 1, by simp [print] at hbound; omega⟩
    rw [print, List.cons_append, readValue, skipSpace_cons (by decide)]
    rfl
  | cons m ms =>
    rw [print_object_cons] at hbound ⊢
    simp only [List.length_cons, List.length_append, List.length_nil] at hbound
    obtain ⟨bound, rfl⟩ : ∃ b, bound = b + 1 := ⟨bound - 1, by omega⟩
    obtain ⟨text, htext⟩ := exists_printMembers_cons l.inner m ms
    have hbound' : 2 * (printMembers l.inner (m :: ms)).length < bound := by omega
    have hmembers := readMembers_printMembers l.inner (List.cons_ne_nil m ms) hms hbound'
      l.isSpacing_lineStart rest
    rw [htext] at hmembers ⊢
    simp only [List.append_assoc, List.cons_append, List.nil_append] at hmembers ⊢
    rw [readValue_object _ l.inner.isSpacing_lineStart, hmembers, Option.map_some]

/-- **Every value without decimals is read back.** -/
theorem IsDecimalFree.readsBack {v : Json} (h : v.IsDecimalFree) : v.ReadsBack := by
  induction h with
  | null => exact readsBack_null
  | bool b => exact readsBack_bool b
  | integer n => exact readsBack_integer n
  | string s => exact readsBack_string s
  | array hfree ih => exact readsBack_array hfree ih
  | object _ ih => exact readsBack_object ih

/-- **What is written is read back.** The text that is written of a value is the text of that value
alone. -/
theorem IsDecimalFree.parseChars?_print {v : Json} (h : v.IsDecimalFree) (l : Layout) :
    parseChars? (v.print l) = some v := by
  have hread := h.readsBack l (2 * (v.print l).length + 2) [] (by omega) endsNumber_nil
  rw [List.append_nil] at hread
  rw [parseChars?, hread]
  rfl

/-! ## The characters that are written -/

/-- A character of a JSON text: visible, or the line feed of an indented layout. -/
def IsPlain (c : Char) : Prop :=
  c = '\n' ∨ IsVisible c

instance (c : Char) : Decidable (IsPlain c) :=
  inferInstanceAs (Decidable (c = '\n' ∨ IsVisible c))

theorem IsVisible.isPlain {c : Char} (h : IsVisible c) : IsPlain c :=
  .inr h

theorem isPlain_lineStart (l : Layout) : ∀ c ∈ l.lineStart, IsPlain c := by
  cases l with
  | oneLine => simp [Layout.lineStart]
  | indented depth =>
    rw [Layout.lineStart, List.forall_mem_cons]
    refine ⟨.inl rfl, fun c hc => ?_⟩
    rw [List.eq_of_mem_replicate hc]
    exact .inr (by decide)

theorem isPlain_separator (l : Layout) : ∀ c ∈ l.separator, IsPlain c := by
  cases l with
  | oneLine =>
    simp only [Layout.separator, List.forall_mem_cons]
    exact ⟨.inr (by decide), .inr (by decide), by simp⟩
  | indented depth =>
    rw [Layout.separator, List.forall_mem_cons]
    exact ⟨.inr (by decide), isPlain_lineStart _⟩

theorem isPlain_toString (n : Int) : ∀ c ∈ (toString n).toList, IsPlain c := by
  have hdigits : ∀ m, ∀ c ∈ Nat.toDigits 10 m, IsPlain c := by
    intro m c hc
    have hdigit : 48 ≤ c.toNat ∧ c.toNat ≤ 57 :=
      Char.isDigit_iff_toNat.mp (isDigit_of_mem_toDigits m c hc)
    exact .inr ⟨by omega, by omega⟩
  cases n with
  | ofNat n =>
    rw [toList_toString_ofNat]
    exact hdigits n
  | negSucc n =>
    rw [toList_toString_negSucc, List.forall_mem_cons]
    exact ⟨.inr (by decide), hdigits (n + 1)⟩

theorem isPlain_encodeString (s : List Char) : ∀ c ∈ encodeString s, IsPlain c :=
  fun c hc => (isVisible_encodeString s c hc).isPlain

theorem isPlain_printItems (l : Layout) {vs : List Json}
    (hvs : ∀ v ∈ vs, ∀ l, ∀ c ∈ v.print l, IsPlain c) : ∀ c ∈ printItems l vs, IsPlain c := by
  induction vs with
  | nil => simp [printItems]
  | cons v vs ih =>
    obtain ⟨hv, hrest⟩ := List.forall_mem_cons.mp hvs
    cases vs with
    | nil =>
      rw [printItems]
      exact hv l
    | cons w vs =>
      rw [printItems, List.forall_mem_append, List.forall_mem_append]
      exact ⟨⟨hv l, isPlain_separator l⟩, ih hrest⟩

theorem isPlain_printMembers (l : Layout) {ms : List (String × Json)}
    (hms : ∀ m ∈ ms, ∀ l, ∀ c ∈ m.2.print l, IsPlain c) :
    ∀ c ∈ printMembers l ms, IsPlain c := by
  induction ms with
  | nil => simp [printMembers]
  | cons m ms ih =>
    obtain ⟨k, v⟩ := m
    obtain ⟨hv, hrest⟩ := List.forall_mem_cons.mp hms
    cases ms with
    | nil =>
      rw [printMembers, List.forall_mem_append, List.forall_mem_cons, List.forall_mem_cons]
      exact ⟨isPlain_encodeString _, .inr (by decide), .inr (by decide), hv l⟩
    | cons n ms =>
      rw [printMembers, List.forall_mem_append, List.forall_mem_cons, List.forall_mem_cons,
        List.forall_mem_append, List.forall_mem_append]
      exact ⟨isPlain_encodeString _, .inr (by decide), .inr (by decide),
        ⟨hv l, isPlain_separator l⟩, ih hrest⟩

/-- What stands between two brackets is plain if its parts are. -/
theorem isPlain_bracketed {opener closer : Char} (hopener : IsVisible opener)
    (hcloser : IsVisible closer) (l : Layout) {parts : List Char}
    (hparts : ∀ c ∈ parts, IsPlain c) :
    ∀ c ∈ opener :: (l.inner.lineStart ++ parts ++ l.lineStart ++ [closer]), IsPlain c := by
  simp only [List.forall_mem_cons, List.forall_mem_append]
  exact ⟨.inr hopener, ⟨⟨isPlain_lineStart _, hparts⟩, isPlain_lineStart l⟩, .inr hcloser, by simp⟩

/-- **What is written is visible ASCII** but for the line feeds of the layout. -/
theorem IsDecimalFree.isPlain_print {v : Json} (h : v.IsDecimalFree) :
    ∀ l, ∀ c ∈ v.print l, IsPlain c := by
  induction h with
  | null =>
    have hword : ∀ c ∈ ['n', 'u', 'l', 'l'], IsPlain c := List.all_iff_forall_prop.mp (by decide)
    exact fun _ => hword
  | bool b =>
    have htrue : ∀ c ∈ ['t', 'r', 'u', 'e'], IsPlain c := List.all_iff_forall_prop.mp (by decide)
    have hfalse : ∀ c ∈ ['f', 'a', 'l', 's', 'e'], IsPlain c :=
      List.all_iff_forall_prop.mp (by decide)
    cases b with
    | false => exact fun _ => hfalse
    | true => exact fun _ => htrue
  | integer n => exact fun _ => isPlain_toString n
  | string s => exact fun _ => isPlain_encodeString s.toList
  | @array vs _ ih =>
    intro l
    cases vs with
    | nil =>
      rw [print]
      exact List.all_iff_forall_prop.mp (by decide)
    | cons v vs =>
      rw [print_array_cons]
      exact isPlain_bracketed (by decide) (by decide) l (isPlain_printItems l.inner ih)
  | @object ms _ ih =>
    intro l
    cases ms with
    | nil =>
      rw [print]
      exact List.all_iff_forall_prop.mp (by decide)
    | cons m ms =>
      rw [print_object_cons]
      exact isPlain_bracketed (by decide) (by decide) l (isPlain_printMembers l.inner ih)

end Json
end SchemaDiagram
