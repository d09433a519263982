import SchemaDiagram.Proofs.Scan.Comment
import SchemaDiagram.Text.Front

/-!
# The forms of a line as texts

The three forms of a line are given here as the texts that have them: what is put next to what, and
where blanks may and must stand. Each reader of `Schema.Declaration` is then characterised by one
equivalence, which says that it reads a text exactly if the text has the form, and that the parts it
hands back are those parts. A text has a form in one way only, because the reader is a function.
-/

namespace SchemaDiagram
namespace Text

theorem dropBlanks?_eq_some_iff {text rest : List Char} :
    dropBlanks? text = some rest ↔
      ∃ gap, gap ≠ [] ∧ IsGap gap ∧ text = gap ++ rest ∧ ∀ c ∈ rest.head?, isBlank c = false := by
  cases text with
  | nil =>
    refine iff_of_false (by simp [dropBlanks?]) ?_
    rintro ⟨gap, hne, -, h, -⟩
    exact hne (List.append_eq_nil_iff.mp h.symm).1
  | cons c text =>
    rw [dropBlanks?]
    constructor
    · intro h
      split at h
      · next hc =>
        obtain ⟨gap, hgap, htext⟩ := exists_gap_of_stripStart text
        rw [Option.some.injEq] at h
        rw [h] at htext
        refine ⟨c :: gap, by simp, isGap_cons.mpr ⟨hc, hgap⟩, by rw [htext]; rfl, ?_⟩
        rw [← h]
        exact head?_stripStart text
      · simp at h
    · rintro ⟨gap, hne, hgap, htext, hrest⟩
      cases gap with
      | nil => exact absurd rfl hne
      | cons d gap =>
        rw [List.cons_append, List.cons.injEq] at htext
        obtain ⟨rfl, rfl⟩ := htext
        obtain ⟨hc, hgap⟩ := isGap_cons.mp hgap
        rw [if_pos hc, stripStart_gap_append hgap, stripStart_eq_self hrest]

/-- A text starts with a gap and a given piece exactly when the piece can be dropped after the
gap. -/
theorem dropFront?_stripStart_eq_some_iff {c : Char} (hc : isBlank c = false)
    {text rest : List Char} :
    dropFront? [c] (stripStart text) = some rest ↔ ∃ gap, IsGap gap ∧ text = gap ++ c :: rest := by
  rw [dropFront?_eq_some_iff, List.singleton_append, stripStart_eq_cons_iff]
  constructor
  · rintro ⟨gap, hgap, -, h⟩
    exact ⟨gap, hgap, h⟩
  · rintro ⟨gap, hgap, h⟩
    exact ⟨gap, hgap, hc, h⟩

end Text

open Text (IsGap isName)

theorem startsAttributes_iff {rest : List Char} :
    startsAttributes rest = true ↔ ∀ c ∈ rest.head?, Text.isBlank c = true ∨ c = '@' := by
  cases rest with
  | nil => simp [startsAttributes]
  | cons c rest => simp [startsAttributes]

/-- A name ends where attributes may start. -/
theorem endsName_of_startsAttributes {rest : List Char} (h : startsAttributes rest = true) :
    Text.EndsName rest := by
  intro c hc
  rcases startsAttributes_iff.mp h c hc with hb | rfl
  · exact Text.isWord_eq_false_of_isBlank hb
  · decide

/-! ## Headers -/

/-- The closing bracket in the header of an empty block. -/
def closing (isClosed : Bool) : List Char :=
  if isClosed then ['}'] else []

/-- The header as a text: letters, a gap, a name and an opening bracket, which is followed by the
closing one if the block is empty. -/
def HeaderLine.Spells (h : HeaderLine) (code : List Char) : Prop :=
  h.keyword ≠ "" ∧ (∀ c ∈ h.keyword.toList, c.isAlpha = true) ∧ isName h.name.toList = true ∧
    ∃ gap before after, gap ≠ [] ∧ IsGap gap ∧ IsGap before ∧ IsGap after ∧
      code = h.keyword.toList ++ (gap ++ (h.name.toList ++ (before ++
        '{' :: (after ++ closing h.isClosed))))

namespace HeaderLine

theorem Spells.ne_nil {h : HeaderLine} {code : List Char} (hs : h.Spells code) : code ≠ [] := by
  obtain ⟨-, -, -, gap, before, after, -, -, -, -, rfl⟩ := hs
  simp

theorem readEnd_eq_some_iff {rest : List Char} {isClosed : Bool} :
    readEnd rest = some isClosed ↔ rest = closing isClosed := by
  rcases rest with _ | ⟨c, _ | ⟨d, rest⟩⟩
  · cases isClosed <;> simp [readEnd, closing]
  · by_cases hc : c = '}'
    · subst hc
      cases isClosed <;> simp [readEnd, closing]
    · cases isClosed <;> simp [readEnd, closing, hc]
  · cases isClosed <;> simp [readEnd, closing]

/-- The letters at the front of a text, up to a blank. -/
theorem takeWhile_isAlpha_append {s gap : List Char} (hs : ∀ c ∈ s, c.isAlpha = true)
    (hne : gap ≠ []) (hgap : IsGap gap) (rest : List Char) :
    (s ++ (gap ++ rest)).takeWhile Char.isAlpha = s ∧
      (s ++ (gap ++ rest)).dropWhile Char.isAlpha = gap ++ rest := by
  cases gap with
  | nil => exact absurd rfl hne
  | cons c gap =>
    have hc : c.isAlpha = false := by
      by_contra h
      rw [Bool.not_eq_false] at h
      have hw : Text.isWord c = true := by simp [Text.isWord, Char.isAlphanum, h]
      have hb := hgap c (List.mem_cons_self ..)
      rw [Text.isBlank_eq_false_of_isWord hw] at hb
      exact Bool.false_ne_true hb
    rw [List.takeWhile_append_of_pos hs, List.dropWhile_append_of_pos hs, List.cons_append,
      List.takeWhile_cons_of_neg (by simp [hc]), List.dropWhile_cons_of_neg (by simp [hc]),
      List.append_nil]
    exact ⟨rfl, rfl⟩

/-- **Reading a header.** -/
theorem read_eq_some_iff {code : List Char} {h : HeaderLine} :
    HeaderLine.read code = some h ↔ h.Spells code := by
  have hbrace : Text.isBlank '{' = false := by decide
  constructor
  · intro hread
    simp only [HeaderLine.read, Option.bind_eq_bind] at hread
    split at hread
    · simp at hread
    · next hkw =>
      simp only [Option.bind_eq_some_iff] at hread
      obtain ⟨rest₁, h₁, ⟨name, rest₂⟩, h₂, rest₃, h₃, isClosed, h₄, heq⟩ := hread
      obtain ⟨gap, hne, hgap, hdrop, -⟩ := Text.dropBlanks?_eq_some_iff.mp h₁
      obtain ⟨rfl, hname, -⟩ := Text.readName_eq_some_iff.mp h₂
      obtain ⟨before, hbefore, rfl⟩ :=
        (Text.dropFront?_stripStart_eq_some_iff hbrace).mp h₃
      obtain ⟨after, hafter, hrest⟩ := Text.exists_gap_of_stripStart rest₃
      rw [readEnd_eq_some_iff.mp h₄] at hrest
      rw [Option.some.injEq] at heq
      subst heq
      refine ⟨?_, ?_, ?_, gap, before, after, hne, hgap, hbefore, hafter, ?_⟩
      · rw [List.isEmpty_iff] at hkw
        rwa [ne_eq, ← String.toList_eq_nil_iff, String.toList_ofList]
      · rw [String.toList_ofList]
        exact fun c hc => List.mem_takeWhile_imp hc
      · rwa [String.toList_ofList]
      · rw [String.toList_ofList, String.toList_ofList, ← hrest, ← hdrop,
          List.takeWhile_append_dropWhile]
  · rintro ⟨hkw, hletters, hname, gap, before, after, hne, hgap, hbefore, hafter, rfl⟩
    have hends : Text.EndsName (before ++ '{' :: (after ++ closing h.isClosed)) :=
      Text.endsName_append (Text.endsName_of_isGap hbefore) (Text.endsName_cons.mpr (by decide))
    have hclose : Text.stripStart (after ++ closing h.isClosed) = closing h.isClosed := by
      rw [Text.stripStart_gap_append hafter]
      cases h.isClosed <;> rfl
    have hnameStart : ∀ c ∈ (h.name.toList ++ (before ++
        '{' :: (after ++ closing h.isClosed))).head?, Text.isBlank c = false :=
      Text.head?_name_append hname _
    obtain ⟨htake, hdrop⟩ := takeWhile_isAlpha_append hletters hne hgap
      (h.name.toList ++ (before ++ '{' :: (after ++ closing h.isClosed)))
    have hempty : h.keyword.toList.isEmpty = false := by
      rw [Bool.eq_false_iff]
      intro hnil
      exact hkw (String.toList_eq_nil_iff.mp (List.isEmpty_iff.mp hnil))
    have h₁ := Text.dropBlanks?_eq_some_iff.mpr ⟨gap, hne, hgap, rfl, hnameStart⟩
    have h₂ := Text.readName_eq_some_iff.mpr ⟨rfl, hname, hends⟩
    have h₃ : Text.dropFront? ['{'] (Text.stripStart (before ++ '{' :: (after ++
        closing h.isClosed))) = some (after ++ closing h.isClosed) :=
      (Text.dropFront?_stripStart_eq_some_iff hbrace).mpr ⟨before, hbefore, rfl⟩
    have h₄ := readEnd_eq_some_iff.mpr hclose
    simp only [HeaderLine.read, htake, hdrop, hempty, Bool.false_eq_true, if_false, h₁, h₂, h₃, h₄,
      Option.bind_eq_bind, Option.bind_some, String.ofList_toList]

end HeaderLine

/-! ## Fields -/

/-- The type as a text: a name, or a literal in `Unsupported(...)`. -/
inductive TypeExpr.Spells : TypeExpr → List Char → Prop where
  | named {name : String} : isName name.toList = true → Spells (.named name) name.toList
  | unsupported {raw : String} {before after : List Char} :
      IsGap before → IsGap after → LiteralBody raw.toList →
        Spells (.unsupported raw) (unsupportedOpening ++
          (before ++ '"' :: (raw.toList ++ '"' :: (after ++ [')']))))

/-- What may follow a type: an optional `[]`, an optional `?` and the attributes. -/
def modifiers (isList isOptional : Bool) : List Char :=
  (if isList then ['[', ']'] else []) ++ if isOptional then ['?'] else []

/-- The field as a text: a name, a gap, a type, its modifiers and the attributes. -/
def FieldLine.Spells (f : FieldLine) (code : List Char) : Prop :=
  isName f.name.toList = true ∧ startsAttributes f.attributes = true ∧
    ∃ gap type, gap ≠ [] ∧ IsGap gap ∧ f.type.Spells type ∧
      code = f.name.toList ++ (gap ++ (type ++ (modifiers f.isList f.isOptional ++ f.attributes)))

namespace TypeExpr

/-- **Reading an unsupported type.** -/
theorem readUnsupported_eq_some_iff {text rest : List Char} {t : TypeExpr} :
    readUnsupported text = some (t, rest) ↔
      ∃ raw before after, t = .unsupported raw ∧ IsGap before ∧ IsGap after ∧
        LiteralBody raw.toList ∧
        text = before ++ '"' :: (raw.toList ++ '"' :: (after ++ ')' :: rest)) := by
  have hquote : Text.isBlank '"' = false := by decide
  have hparen : Text.isBlank ')' = false := by decide
  simp only [readUnsupported, Option.bind_eq_bind, Option.bind_eq_some_iff]
  constructor
  · rintro ⟨rest₁, h₁, ⟨raw, rest₂⟩, h₂, rest₃, h₃, heq⟩
    obtain ⟨before, hbefore, rfl⟩ := (Text.dropFront?_stripStart_eq_some_iff hquote).mp h₁
    obtain ⟨rfl, hraw⟩ := readRaw_eq_some_iff.mp h₂
    obtain ⟨after, hafter, rfl⟩ := (Text.dropFront?_stripStart_eq_some_iff hparen).mp h₃
    obtain ⟨rfl, rfl⟩ := Prod.mk.inj (Option.some.inj heq)
    refine ⟨String.ofList raw, before, after, rfl, hbefore, hafter, ?_, ?_⟩
    · rwa [String.toList_ofList]
    · rw [String.toList_ofList]
  · rintro ⟨raw, before, after, rfl, hbefore, hafter, hraw, rfl⟩
    refine ⟨_, (Text.dropFront?_stripStart_eq_some_iff hquote).mpr ⟨before, hbefore, rfl⟩,
      (raw.toList, _), readRaw_eq_some_iff.mpr ⟨rfl, hraw⟩, rest,
      (Text.dropFront?_stripStart_eq_some_iff hparen).mpr ⟨after, hafter, rfl⟩, ?_⟩
    rw [String.ofList_toList]

/-- The word that starts an unsupported type is a name like any other. -/
theorem exists_isName_unsupportedOpening :
    ∃ word, unsupportedOpening = word ++ ['('] ∧ isName word = true :=
  ⟨['U', 'n', 's', 'u', 'p', 'p', 'o', 'r', 't', 'e', 'd'], rfl, by decide⟩

/-- A name that stands where `Unsupported(` does is followed by the bracket. -/
theorem head?_of_append_eq {name rest inner : List Char} (hname : isName name = true)
    (hends : Text.EndsName rest) (h : name ++ rest = unsupportedOpening ++ inner) :
    rest.head? = some '(' := by
  obtain ⟨word, hword, hisName⟩ := exists_isName_unsupportedOpening
  rw [hword, List.append_assoc] at h
  obtain ⟨-, rfl⟩ := Text.eq_of_name_append hname hisName hends
    (Text.endsName_cons.mpr (by decide)) h
  rfl

/-- What is read as a type has the form of one. -/
theorem spells_of_read {text rest : List Char} {t : TypeExpr} (h : read text = some (t, rest)) :
    ∃ type, t.Spells type ∧ text = type ++ rest := by
  rw [read] at h
  split at h
  · next inner hdrop =>
    rw [Text.dropFront?_eq_some_iff] at hdrop
    obtain ⟨raw, before, after, rfl, hbefore, hafter, hraw, rfl⟩ :=
      readUnsupported_eq_some_iff.mp h
    exact ⟨_, .unsupported hbefore hafter hraw, by rw [hdrop]; simp⟩
  · rw [Option.map_eq_some_iff] at h
    obtain ⟨⟨name, rest'⟩, hread, heq⟩ := h
    obtain ⟨rfl, rfl⟩ := Prod.mk.inj heq
    obtain ⟨rfl, hname, -⟩ := Text.readName_eq_some_iff.mp hread
    refine ⟨name, ?_, rfl⟩
    have hspells : Spells (.named (String.ofList name)) (String.ofList name).toList :=
      .named (by rwa [String.toList_ofList])
    rwa [String.toList_ofList] at hspells

/-- A type is read if it cannot go on with what follows: neither with a word character nor, as
`Unsupported` would, with a bracket. -/
theorem read_of_spells {type rest : List Char} {t : TypeExpr} (h : t.Spells type)
    (hends : Text.EndsName rest) (hparen : rest.head? ≠ some '(') :
    read (type ++ rest) = some (t, rest) := by
  cases h with
  | @named name hname =>
    have hread : Text.readName (name.toList ++ rest) = some (name.toList, rest) :=
      Text.readName_eq_some_iff.mpr ⟨rfl, hname, hends⟩
    rw [read]
    split
    · next inner hdrop =>
      exact absurd (head?_of_append_eq hname hends (Text.dropFront?_eq_some_iff.mp hdrop)) hparen
    · rw [hread, Option.map_some, String.ofList_toList]
  | @unsupported raw before after hbefore hafter hraw =>
    have hdrop := Text.dropFront?_eq_some_iff.mpr
      (List.append_assoc unsupportedOpening
        (before ++ '"' :: (raw.toList ++ '"' :: (after ++ [')']))) rest)
    rw [read, hdrop]
    exact readUnsupported_eq_some_iff.mpr ⟨raw, before, after, rfl, hbefore, hafter, hraw,
      by simp⟩

end TypeExpr

/-! ### The whole line -/

theorem readModifier_eq_true_iff {modifier text rest : List Char} :
    readModifier modifier text = (true, rest) ↔ text = modifier ++ rest := by
  rw [readModifier, ← Text.dropFront?_eq_some_iff]
  cases Text.dropFront? modifier text <;> simp

theorem readModifier_eq_false_iff {modifier text rest : List Char} :
    readModifier modifier text = (false, rest) ↔
      rest = text ∧ ∀ after, text ≠ modifier ++ after := by
  simp only [readModifier, ne_eq, ← Text.dropFront?_eq_some_iff]
  cases Text.dropFront? modifier text <;> simp [eq_comm]

/-- The modifiers are read if no modifier follows. -/
theorem readModifier_modifiers {rest : List Char} (hrest : startsAttributes rest = true)
    (isList isOptional : Bool) :
    readModifier ['[', ']'] (modifiers isList isOptional ++ rest) =
        (isList, modifiers false isOptional ++ rest) ∧
      readModifier ['?'] (modifiers false isOptional ++ rest) = (isOptional, rest) := by
  have hhead : ∀ c, c = '[' ∨ c = '?' → rest.head? ≠ some c := by
    rintro c hc h
    rcases startsAttributes_iff.mp hrest c h with hb | rfl
    · rcases hc with rfl | rfl
      · exact absurd hb (by decide)
      · exact absurd hb (by decide)
    · exact absurd hc (by decide)
  have hlist : ∀ after, rest ≠ ['[', ']'] ++ after := by
    rintro after rfl
    exact hhead '[' (Or.inl rfl) rfl
  have hoptional : ∀ after, rest ≠ ['?'] ++ after := by
    rintro after rfl
    exact hhead '?' (Or.inr rfl) rfl
  constructor
  · cases isList with
    | true => exact readModifier_eq_true_iff.mpr (by simp [modifiers])
    | false =>
      refine readModifier_eq_false_iff.mpr ⟨rfl, ?_⟩
      cases isOptional with
      | true => simp [modifiers]
      | false => exact hlist
  · cases isOptional with
    | true => exact readModifier_eq_true_iff.mpr rfl
    | false => exact readModifier_eq_false_iff.mpr ⟨rfl, hoptional⟩

/-- What is read as modifiers stands at the front of the text. -/
theorem append_of_readModifier {isList isOptional : Bool} {text rest₁ rest₂ : List Char}
    (h₁ : readModifier ['[', ']'] text = (isList, rest₁))
    (h₂ : readModifier ['?'] rest₁ = (isOptional, rest₂)) :
    text = modifiers isList isOptional ++ rest₂ := by
  have hlist : text = (if isList then ['[', ']'] else []) ++ rest₁ := by
    cases isList with
    | true => exact readModifier_eq_true_iff.mp h₁
    | false => exact (readModifier_eq_false_iff.mp h₁).1.symm
  have hoptional : rest₁ = (if isOptional then ['?'] else []) ++ rest₂ := by
    cases isOptional with
    | true => exact readModifier_eq_true_iff.mp h₂
    | false => exact (readModifier_eq_false_iff.mp h₂).1.symm
  rw [hlist, hoptional, modifiers, List.append_assoc]

theorem endsName_modifiers {rest : List Char} (hrest : startsAttributes rest = true)
    (isList isOptional : Bool) :
    Text.EndsName (modifiers isList isOptional ++ rest) ∧
      (modifiers isList isOptional ++ rest).head? ≠ some '(' := by
  cases isList with
  | true => exact ⟨Text.endsName_cons.mpr (by decide), by simp [modifiers]⟩
  | false =>
    cases isOptional with
    | true => exact ⟨Text.endsName_cons.mpr (by decide), by simp [modifiers]⟩
    | false =>
      refine ⟨endsName_of_startsAttributes hrest, fun h => ?_⟩
      rcases startsAttributes_iff.mp hrest '(' h with hb | hb
      · exact absurd hb (by decide)
      · exact absurd hb (by decide)

theorem TypeExpr.Spells.head?_ne_blank {t : TypeExpr} {type : List Char} (h : t.Spells type)
    (rest : List Char) : ∀ c ∈ (type ++ rest).head?, Text.isBlank c = false := by
  cases h with
  | named hname => exact Text.head?_name_append hname rest
  | unsupported _ _ _ =>
    intro c hc
    have hU : c = 'U' := by
      rw [unsupportedOpening] at hc
      simpa using hc.symm
    rw [hU]
    decide

/-- **Reading a field.** -/
theorem FieldLine.read_eq_some_iff {code : List Char} {f : FieldLine} :
    FieldLine.read code = some f ↔ f.Spells code := by
  constructor
  · intro h
    simp only [FieldLine.read, Option.bind_eq_bind, Option.bind_eq_some_iff] at h
    obtain ⟨⟨name, rest₁⟩, h₁, rest₂, h₂, ⟨type, rest₃⟩, h₃, h⟩ := h
    obtain ⟨rfl, hname, -⟩ := Text.readName_eq_some_iff.mp h₁
    obtain ⟨gap, hne, hgap, rfl, -⟩ := Text.dropBlanks?_eq_some_iff.mp h₂
    obtain ⟨text, hspells, rfl⟩ := TypeExpr.spells_of_read h₃
    split at h
    · next hattrs =>
      rw [Option.some.injEq] at h
      subst h
      refine ⟨by rwa [String.toList_ofList], hattrs, gap, text, hne, hgap, hspells, ?_⟩
      have hmodifiers : rest₃ = _ := append_of_readModifier rfl rfl
      rw [String.toList_ofList]
      exact congrArg (fun tail => name ++ (gap ++ (text ++ tail))) hmodifiers
    · simp at h
  · rintro ⟨hname, hattrs, gap, type, hne, hgap, hspells, rfl⟩
    obtain ⟨hends, hparen⟩ := endsName_modifiers hattrs f.isList f.isOptional
    obtain ⟨hlist, hoptional⟩ := readModifier_modifiers hattrs f.isList f.isOptional
    have hgapEnds : Text.EndsName
        (gap ++ (type ++ (modifiers f.isList f.isOptional ++ f.attributes))) :=
      Text.endsName_gap_append hne hgap _
    have h₁ := Text.readName_eq_some_iff.mpr ⟨rfl, hname, hgapEnds⟩
    have h₂ := Text.dropBlanks?_eq_some_iff.mpr
      ⟨gap, hne, hgap, rfl, hspells.head?_ne_blank (modifiers f.isList f.isOptional ++
        f.attributes)⟩
    have h₃ := TypeExpr.read_of_spells hspells hends hparen
    simp only [FieldLine.read, Option.bind_eq_bind, h₁, h₂, h₃, Option.bind_some, hlist, hoptional,
      hattrs, if_true, String.ofList_toList]

/-! ## Values -/

/-- The value as a text: a name and the attributes. -/
def ValueLine.Spells (v : ValueLine) (code : List Char) : Prop :=
  isName v.name.toList = true ∧ startsAttributes v.attributes = true ∧
    code = v.name.toList ++ v.attributes

/-- **Reading a value.** -/
theorem ValueLine.read_eq_some_iff {code : List Char} {v : ValueLine} :
    ValueLine.read code = some v ↔ v.Spells code := by
  constructor
  · intro h
    rw [ValueLine.read] at h
    split at h
    · next name rest hread =>
      obtain ⟨rfl, hname, -⟩ := Text.readName_eq_some_iff.mp hread
      split at h
      · next hattrs =>
        rw [Option.some.injEq] at h
        subst h
        refine ⟨by rwa [String.toList_ofList], hattrs, by rw [String.toList_ofList]⟩
      · simp at h
    · simp at h
  · rintro ⟨hname, hattrs, rfl⟩
    rw [ValueLine.read, Text.readName_eq_some_iff.mpr
      ⟨rfl, hname, endsName_of_startsAttributes hattrs⟩]
    simp only [hattrs, if_true, String.ofList_toList]

end SchemaDiagram
