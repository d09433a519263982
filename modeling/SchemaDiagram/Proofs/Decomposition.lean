import SchemaDiagram.Proofs.Parts
import SchemaDiagram.Proofs.Text.Pattern

/-!
# Taking a line apart

Each form of line is given by a pattern, too. A pattern leaves open how far a name or a gap reaches,
whether `Unsupported` is the name of a type, and in which order all of that is tried. None of it
matters: every way to find the pattern in a line takes the parts of the line that there are
(`LineForm.mem_ways_iff`), and the parts are determined by the line (`LineForm.text_injective`). So
the reader, which goes from left to right and never back, reads what a search would find
(`LineForm.decomposition`).

A pattern looks at line feeds in two places, where any character may stand and at the end. No code
of a line has one.
-/

namespace SchemaDiagram

open Text (IsGap isName Pattern)

/-! ## Patterns -/

/-- The pattern of a header. -/
def HeaderLine.pattern : Pattern :=
  .inOrder [.group "keyword" (.atLeastOnce (.one Char.isAlpha)), .gap, .group "name" .name, .blanks,
    .literal ['{'], .blanks, .optional (.group "empty" (.literal ['}'])), .atEnd]

/-- The pattern of what stands between the quotes of a literal. -/
def literalPattern : Pattern :=
  .many (.orElse (.one fun c => c != '"' && c != '\\')
    (.inOrder [.literal ['\\'], .one (· != '\n')]))

/-- The pattern of a type. -/
def TypeExpr.pattern : Pattern :=
  .orElse
    (.inOrder [.literal unsupportedOpening, .blanks, .literal ['"'], .group "raw" literalPattern,
      .literal ['"'], .blanks, .literal [')']])
    (.group "type" .name)

/-- The pattern of the attributes at the end of a line. -/
def attributesPattern : Pattern :=
  .group "rest" (.optional (.inOrder [.one fun c => Text.isBlank c || c == '@',
    .many (.one (· != '\n'))]))

/-- The pattern of a field. -/
def FieldLine.pattern : Pattern :=
  .inOrder [.group "name" .name, .gap, TypeExpr.pattern,
    .optional (.group "list" (.literal ['[', ']'])), .optional (.group "optional" (.literal ['?'])),
    attributesPattern, .atEnd]

/-- The pattern of a value. -/
def ValueLine.pattern : Pattern :=
  .inOrder [.group "name" .name, attributesPattern, .atEnd]

/-! ### What is kept -/

/-- What the pattern of a header keeps of it. -/
def HeaderLine.kept (h : HeaderLine) : List (String × List Char) :=
  [("keyword", h.keyword.toList), ("name", h.name.toList)] ++
    if h.isClosed then [("empty", ['}'])] else []

/-- What the pattern of a type keeps of it. -/
def TypeExpr.kept : TypeExpr → List (String × List Char)
  | .named name => [("type", name.toList)]
  | .unsupported raw => [("raw", raw.toList)]

/-- What the pattern of a field keeps of it. -/
def FieldLine.kept (f : FieldLine) : List (String × List Char) :=
  [("name", f.name.toList)] ++ f.type.kept ++ (if f.isList then [("list", ['[', ']'])] else []) ++
    (if f.isOptional then [("optional", ['?'])] else []) ++ [("rest", f.attributes)]

/-- What the pattern of a value keeps of it. -/
def ValueLine.kept (v : ValueLine) : List (String × List Char) :=
  [("name", v.name.toList), ("rest", v.attributes)]

/-! ### What the patterns take -/

open Text.Pattern

section Patterns

variable {s rest : List Char} {kept : List (String × List Char)}

/-- What stands between the quotes of a literal, if it is all on one line. -/
theorem takes_literalPattern (hs : '\n' ∉ s) :
    literalPattern.Takes s rest kept ↔ LiteralBody s ∧ kept = [] := by
  constructor
  · refine many_induction (motive := fun s kept => LiteralBody s ∧ kept = []) ⟨.nil, rfl⟩ ?_
    rintro s₁ s₂ kept₁ _ h ⟨hbody, rfl⟩
    simp only [takes_orElse, takes_inOrder_cons, takes_inOrder_nil, takes_one, takes_literal] at h
    obtain ⟨c, hc, rfl, rfl⟩ |
      ⟨_, _, _, _, rfl, rfl, ⟨rfl, rfl⟩, _, _, _, _, rfl, rfl, ⟨c, -, rfl, rfl⟩, rfl, rfl⟩ := h
    · rw [Bool.and_eq_true, bne_iff_ne, bne_iff_ne] at hc
      exact ⟨.plain hc.1 hc.2 hbody, rfl⟩
    · exact ⟨.escape hbody, rfl⟩
  · rintro ⟨hbody, rfl⟩
    induction hbody with
    | nil => exact takes_many.mpr (Or.inl ⟨rfl, rfl⟩)
    | @plain c s hquote hslash _ ih =>
      have hc : (one fun c => c != '"' && c != '\\').Takes [c] (s ++ rest) [] :=
        takes_one.mpr ⟨c, by simp [hquote, hslash], rfl, rfl⟩
      exact takes_many.mpr (Or.inr ⟨[c], s, [], [], List.cons_ne_nil c [], rfl, rfl,
        takes_orElse.mpr (Or.inl hc), ih fun h => hs (List.mem_cons_of_mem c h)⟩)
    | @escape c s _ ih =>
      rw [List.mem_cons, List.mem_cons, not_or, not_or] at hs
      have hc : (one (· != '\n')).Takes [c] ([] ++ (s ++ rest)) [] :=
        takes_one.mpr ⟨c, bne_iff_ne.mpr (Ne.symm hs.2.1), rfl, rfl⟩
      have hpair := (takes_literal.mpr ⟨rfl, rfl⟩ : (literal ['\\']).Takes ['\\'] _ []).inOrder <|
        hc.inOrder <| takes_inOrder_nil.mpr ⟨rfl, rfl⟩
      exact takes_many.mpr (Or.inr ⟨['\\', c], s, [], [], List.cons_ne_nil _ _, rfl, rfl,
        takes_orElse.mpr (Or.inr hpair), ih hs.2.2⟩)

/-- Attributes at the end of a line, if they are all on that line. -/
theorem takes_attributesPattern (hs : '\n' ∉ s) :
    attributesPattern.Takes s rest kept ↔ startsAttributes s = true ∧ kept = [("rest", s)] := by
  refine takes_group_iff fun inner => ?_
  simp only [takes_optional, takes_inOrder_cons, takes_inOrder_nil, takes_one, takes_many_one]
  constructor
  · rintro (⟨_, _, _, _, rfl, rfl, ⟨c, hc, rfl, rfl⟩, _, _, _, _, rfl, rfl, ⟨-, rfl⟩, rfl, rfl⟩ |
      ⟨rfl, rfl⟩)
    · exact ⟨hc, rfl⟩
    · exact ⟨rfl, rfl⟩
  · rintro ⟨hstarts, rfl⟩
    cases s with
    | nil => exact Or.inr ⟨rfl, rfl⟩
    | cons c s =>
      have hall : ∀ d ∈ s, (d != '\n') = true := by
        intro d hd
        rw [bne_iff_ne]
        rintro rfl
        exact hs (List.mem_cons_of_mem c hd)
      exact Or.inl ⟨[c], s, [], [], rfl, rfl, ⟨c, hstarts, rfl, rfl⟩, s, [], [], [],
        (List.append_nil s).symm, rfl, ⟨hall, rfl⟩, rfl, rfl⟩

theorem exists_toList_eq (s : List Char) : ∃ t : String, t.toList = s :=
  ⟨String.ofList s, String.toList_ofList⟩

theorem HeaderLine.takes_pattern :
    pattern.Takes s rest kept ↔
      (rest = [] ∨ rest = ['\n']) ∧ ∃ d : Parts, d.text = s ∧ d.line.kept = kept := by
  constructor
  · intro h
    -- one piece of the pattern after the other
    obtain ⟨keyword, _, _, _, rfl, rfl, hk, h₁⟩ := takes_inOrder_cons.mp h
    obtain ⟨gap, _, _, _, rfl, rfl, hg, h₂⟩ := takes_inOrder_cons.mp h₁
    obtain ⟨name, _, _, _, rfl, rfl, hn, h₃⟩ := takes_inOrder_cons.mp h₂
    obtain ⟨before, _, _, _, rfl, rfl, hb, h₄⟩ := takes_inOrder_cons.mp h₃
    obtain ⟨_, _, _, _, rfl, rfl, hopening, h₅⟩ := takes_inOrder_cons.mp h₄
    obtain ⟨after, _, _, _, rfl, rfl, ha, h₆⟩ := takes_inOrder_cons.mp h₅
    obtain ⟨_, _, _, _, rfl, rfl, hclosing, h₇⟩ := takes_inOrder_cons.mp h₆
    obtain ⟨_, _, _, _, rfl, rfl, hend, hnil⟩ := takes_inOrder_cons.mp h₇
    obtain ⟨⟨hne, halpha⟩, rfl⟩ := (takes_group_iff fun _ => takes_atLeastOnce_one).mp hk
    obtain ⟨⟨hgapNe, hgap⟩, rfl⟩ := takes_gap.mp hg
    obtain ⟨hname, rfl⟩ := (takes_group_iff fun _ => takes_name).mp hn
    obtain ⟨hbefore, rfl⟩ := takes_blanks.mp hb
    obtain ⟨rfl, rfl⟩ := takes_literal.mp hopening
    obtain ⟨hafter, rfl⟩ := takes_blanks.mp ha
    obtain ⟨isClosed, rfl, rfl⟩ := takes_optional_literal.mp hclosing
    obtain ⟨rfl, rfl, hrest⟩ := takes_atEnd.mp hend
    obtain ⟨rfl, rfl⟩ := takes_inOrder_nil.mp hnil
    obtain ⟨keyword, rfl⟩ := exists_toList_eq keyword
    obtain ⟨name, rfl⟩ := exists_toList_eq name
    exact ⟨hrest, ⟨keyword, gap, name, before, after, isClosed,
      mt String.toList_eq_nil_iff.mpr hne, halpha, hgapNe, hgap, hname, hbefore, hafter⟩,
      by cases isClosed <;> rfl, by cases isClosed <;> rfl⟩
  · rintro ⟨hrest, ⟨keyword, gap, name, before, after, isClosed, hne, halpha, hgapNe, hgap, hname,
      hbefore, hafter⟩, rfl, rfl⟩
    have hne : keyword.toList ≠ [] := mt String.toList_eq_nil_iff.mp hne
    have h : pattern.Takes _ rest _ :=
      (takes_group.mpr ⟨_, rfl, takes_atLeastOnce_one.mpr ⟨⟨hne, halpha⟩, rfl⟩⟩).inOrder <|
      (takes_gap.mpr ⟨⟨hgapNe, hgap⟩, rfl⟩).inOrder <|
      (takes_group.mpr ⟨_, rfl, takes_name.mpr ⟨hname, rfl⟩⟩).inOrder <|
      (takes_blanks.mpr ⟨hbefore, rfl⟩).inOrder <|
      (takes_literal.mpr ⟨rfl, rfl⟩).inOrder <|
      (takes_blanks.mpr ⟨hafter, rfl⟩).inOrder <|
      (takes_optional_literal.mpr ⟨isClosed, rfl, rfl⟩).inOrder <|
      (takes_atEnd.mpr ⟨rfl, rfl, hrest⟩).inOrder <| takes_inOrder_nil.mpr ⟨rfl, rfl⟩
    cases isClosed <;> exact h

theorem TypeExpr.takes_pattern (hs : '\n' ∉ s) :
    pattern.Takes s rest kept ↔ ∃ d : Parts, d.text = s ∧ d.type.kept = kept := by
  rw [pattern, takes_orElse]
  constructor
  · rintro (h | h)
    · obtain ⟨_, _, _, _, rfl, rfl, hopening, h₁⟩ := takes_inOrder_cons.mp h
      obtain ⟨before, _, _, _, rfl, rfl, hb, h₂⟩ := takes_inOrder_cons.mp h₁
      obtain ⟨_, _, _, _, rfl, rfl, hquote, h₃⟩ := takes_inOrder_cons.mp h₂
      obtain ⟨raw, _, _, _, rfl, rfl, hr, h₄⟩ := takes_inOrder_cons.mp h₃
      obtain ⟨_, _, _, _, rfl, rfl, hquote', h₅⟩ := takes_inOrder_cons.mp h₄
      obtain ⟨after, _, _, _, rfl, rfl, ha, h₆⟩ := takes_inOrder_cons.mp h₅
      obtain ⟨_, _, _, _, rfl, rfl, hparen, hnil⟩ := takes_inOrder_cons.mp h₆
      have hraw : '\n' ∉ raw := fun h => hs (by simp [h])
      obtain ⟨rfl, rfl⟩ := takes_literal.mp hopening
      obtain ⟨hbefore, rfl⟩ := takes_blanks.mp hb
      obtain ⟨rfl, rfl⟩ := takes_literal.mp hquote
      obtain ⟨hbody, rfl⟩ := (takes_group_iff fun _ => takes_literalPattern hraw).mp hr
      obtain ⟨rfl, rfl⟩ := takes_literal.mp hquote'
      obtain ⟨hafter, rfl⟩ := takes_blanks.mp ha
      obtain ⟨rfl, rfl⟩ := takes_literal.mp hparen
      obtain ⟨rfl, rfl⟩ := takes_inOrder_nil.mp hnil
      obtain ⟨raw, rfl⟩ := exists_toList_eq raw
      exact ⟨.unsupported before raw after hbefore hbody hafter, rfl, rfl⟩
    · obtain ⟨hname, rfl⟩ := (takes_group_iff fun _ => takes_name).mp h
      obtain ⟨name, rfl⟩ := exists_toList_eq s
      exact ⟨.named name hname, rfl, rfl⟩
  · rintro ⟨⟨name, hname⟩ | ⟨before, raw, after, hbefore, hbody, hafter⟩, rfl, rfl⟩
    · exact Or.inr (takes_group.mpr ⟨_, rfl, takes_name.mpr ⟨hname, rfl⟩⟩)
    · have hraw : '\n' ∉ raw.toList := fun h => hs (by simp [Parts.text, h])
      refine Or.inl ?_
      exact (takes_literal.mpr ⟨rfl, rfl⟩).inOrder <|
        (takes_blanks.mpr ⟨hbefore, rfl⟩).inOrder <|
        (takes_literal.mpr ⟨rfl, rfl⟩).inOrder <|
        (takes_group.mpr ⟨_, rfl, (takes_literalPattern hraw).mpr ⟨hbody, rfl⟩⟩).inOrder <|
        (takes_literal.mpr ⟨rfl, rfl⟩).inOrder <|
        (takes_blanks.mpr ⟨hafter, rfl⟩).inOrder <|
        (takes_literal.mpr ⟨rfl, rfl⟩).inOrder <| takes_inOrder_nil.mpr ⟨rfl, rfl⟩

theorem FieldLine.takes_pattern (hs : '\n' ∉ s) :
    pattern.Takes s rest kept ↔
      (rest = [] ∨ rest = ['\n']) ∧ ∃ d : Parts, d.text = s ∧ d.line.kept = kept := by
  constructor
  · intro h
    obtain ⟨name, _, _, _, rfl, rfl, hn, h₁⟩ := takes_inOrder_cons.mp h
    obtain ⟨gap, _, _, _, rfl, rfl, hg, h₂⟩ := takes_inOrder_cons.mp h₁
    obtain ⟨type, _, _, _, rfl, rfl, ht, h₃⟩ := takes_inOrder_cons.mp h₂
    obtain ⟨_, _, _, _, rfl, rfl, hlist, h₄⟩ := takes_inOrder_cons.mp h₃
    obtain ⟨_, _, _, _, rfl, rfl, hoptional, h₅⟩ := takes_inOrder_cons.mp h₄
    obtain ⟨attributes, _, _, _, rfl, rfl, ha, h₆⟩ := takes_inOrder_cons.mp h₅
    obtain ⟨_, _, _, _, rfl, rfl, hend, hnil⟩ := takes_inOrder_cons.mp h₆
    have htype : '\n' ∉ type := fun h => hs (by simp [h])
    have hattributes : '\n' ∉ attributes := fun h => hs (by simp [h])
    obtain ⟨hname, rfl⟩ := (takes_group_iff fun _ => takes_name).mp hn
    obtain ⟨⟨hgapNe, hgap⟩, rfl⟩ := takes_gap.mp hg
    obtain ⟨type, rfl, rfl⟩ := (TypeExpr.takes_pattern htype).mp ht
    obtain ⟨isList, rfl, rfl⟩ := takes_optional_literal.mp hlist
    obtain ⟨isOptional, rfl, rfl⟩ := takes_optional_literal.mp hoptional
    obtain ⟨hstarts, rfl⟩ := (takes_attributesPattern hattributes).mp ha
    obtain ⟨rfl, rfl, hrest⟩ := takes_atEnd.mp hend
    obtain ⟨rfl, rfl⟩ := takes_inOrder_nil.mp hnil
    obtain ⟨name, rfl⟩ := exists_toList_eq name
    refine ⟨hrest, ⟨name, gap, type, isList, isOptional, attributes, hname, hgapNe, hgap, hstarts⟩,
      ?_, ?_⟩
    · cases isList <;> cases isOptional <;> simp [Parts.text, modifiers]
    · cases isList <;> cases isOptional <;> simp [FieldLine.kept, Parts.line]
  · rintro ⟨hrest, ⟨name, gap, type, isList, isOptional, attributes, hname, hgapNe, hgap, hstarts⟩,
      rfl, rfl⟩
    have htype : '\n' ∉ type.text := fun h => hs (by simp [Parts.text, h])
    have hattributes : '\n' ∉ attributes := fun h => hs (by simp [Parts.text, h])
    have h : pattern.Takes _ rest _ :=
      (takes_group.mpr ⟨_, rfl, takes_name.mpr ⟨hname, rfl⟩⟩).inOrder <|
      (takes_gap.mpr ⟨⟨hgapNe, hgap⟩, rfl⟩).inOrder <|
      ((TypeExpr.takes_pattern htype).mpr ⟨type, rfl, rfl⟩).inOrder <|
      (takes_optional_literal.mpr ⟨isList, rfl, rfl⟩).inOrder <|
      (takes_optional_literal.mpr ⟨isOptional, rfl, rfl⟩).inOrder <|
      ((takes_attributesPattern hattributes).mpr ⟨hstarts, rfl⟩).inOrder <|
      (takes_atEnd.mpr ⟨rfl, rfl, hrest⟩).inOrder <| takes_inOrder_nil.mpr ⟨rfl, rfl⟩
    cases isList <;> cases isOptional <;>
      simpa [FieldLine.kept, Parts.text, Parts.line, modifiers] using h

theorem ValueLine.takes_pattern (hs : '\n' ∉ s) :
    pattern.Takes s rest kept ↔
      (rest = [] ∨ rest = ['\n']) ∧ ∃ d : Parts, d.text = s ∧ d.line.kept = kept := by
  constructor
  · intro h
    obtain ⟨name, _, _, _, rfl, rfl, hn, h₁⟩ := takes_inOrder_cons.mp h
    obtain ⟨attributes, _, _, _, rfl, rfl, ha, h₂⟩ := takes_inOrder_cons.mp h₁
    obtain ⟨_, _, _, _, rfl, rfl, hend, hnil⟩ := takes_inOrder_cons.mp h₂
    have hattributes : '\n' ∉ attributes := fun h => hs (by simp [h])
    obtain ⟨hname, rfl⟩ := (takes_group_iff fun _ => takes_name).mp hn
    obtain ⟨hstarts, rfl⟩ := (takes_attributesPattern hattributes).mp ha
    obtain ⟨rfl, rfl, hrest⟩ := takes_atEnd.mp hend
    obtain ⟨rfl, rfl⟩ := takes_inOrder_nil.mp hnil
    obtain ⟨name, rfl⟩ := exists_toList_eq name
    exact ⟨hrest, ⟨name, attributes, hname, hstarts⟩, by simp [Parts.text], rfl⟩
  · rintro ⟨hrest, ⟨name, attributes, hname, hstarts⟩, rfl, rfl⟩
    have hattributes : '\n' ∉ attributes := fun h => hs (by simp [Parts.text, h])
    have h : pattern.Takes _ rest _ :=
      (takes_group.mpr ⟨_, rfl, takes_name.mpr ⟨hname, rfl⟩⟩).inOrder <|
      ((takes_attributesPattern hattributes).mpr ⟨hstarts, rfl⟩).inOrder <|
      (takes_atEnd.mpr ⟨rfl, rfl, hrest⟩).inOrder <| takes_inOrder_nil.mpr ⟨rfl, rfl⟩
    simpa [ValueLine.kept, Parts.text, Parts.line] using h

end Patterns

/-! ## The three forms -/

/-- The forms of a line. -/
inductive LineForm where
  | header
  | field
  | value
  deriving DecidableEq, Repr

namespace LineForm

/-- What is read of a line of the form. -/
def Line : LineForm → Type
  | header => HeaderLine
  | field => FieldLine
  | value => ValueLine

/-- Reads a line of the form. -/
def read : (form : LineForm) → List Char → Option form.Line
  | header => HeaderLine.read
  | field => FieldLine.read
  | value => ValueLine.read

/-- The parts of a line of the form. -/
def Parts : LineForm → Type
  | header => HeaderLine.Parts
  | field => FieldLine.Parts
  | value => ValueLine.Parts

/-- The line that the parts make up. -/
def text : (form : LineForm) → form.Parts → List Char
  | header => HeaderLine.Parts.text
  | field => FieldLine.Parts.text
  | value => ValueLine.Parts.text

/-- What is read of the parts. -/
def line : (form : LineForm) → form.Parts → form.Line
  | header => HeaderLine.Parts.line
  | field => FieldLine.Parts.line
  | value => ValueLine.Parts.line

/-- The pattern of the form. -/
def pattern : LineForm → Pattern
  | header => HeaderLine.pattern
  | field => FieldLine.pattern
  | value => ValueLine.pattern

/-- What the pattern keeps of a line. -/
def kept : (form : LineForm) → form.Line → List (String × List Char)
  | header => HeaderLine.kept
  | field => FieldLine.kept
  | value => ValueLine.kept

variable {form : LineForm} {code : List Char}

/-- **A line is read by its parts.** -/
theorem read_eq_some_iff {l : form.Line} :
    form.read code = some l ↔ ∃ d : form.Parts, form.text d = code ∧ form.line d = l := by
  cases form with
  | header => exact HeaderLine.read_eq_some_iff.trans HeaderLine.spells_iff
  | field => exact FieldLine.read_eq_some_iff.trans FieldLine.spells_iff
  | value => exact ValueLine.read_eq_some_iff.trans ValueLine.spells_iff

theorem read_text (d : form.Parts) : form.read (form.text d) = some (form.line d) :=
  read_eq_some_iff.mpr ⟨d, rfl, rfl⟩

/-- **A line has parts in one way at most.** -/
theorem text_injective : Function.Injective form.text := by
  intro d d' htext
  -- the reader is a function, so only what it does not look at is left to compare
  have hline : form.line d = form.line d' := by
    have hread := read_text d
    rw [htext, read_text] at hread
    exact (Option.some.inj hread).symm
  cases form with
  | header => exact HeaderLine.Parts.eq_of_line_eq hline htext
  | field => exact FieldLine.Parts.eq_of_line_eq hline htext
  | value => exact ValueLine.Parts.eq_of_line_eq hline

theorem takes_pattern {s rest : List Char} {kept : List (String × List Char)} (hs : '\n' ∉ s) :
    form.pattern.Takes s rest kept ↔
      (rest = [] ∨ rest = ['\n']) ∧ ∃ d, form.text d = s ∧ form.kept (form.line d) = kept := by
  cases form with
  | header => exact HeaderLine.takes_pattern
  | field => exact FieldLine.takes_pattern hs
  | value => exact ValueLine.takes_pattern hs

/-- **A pattern is found as the line is read.** It takes the whole line. -/
theorem mem_ways_iff (hcode : '\n' ∉ code) {w : Text.Way} :
    w ∈ form.pattern.ways code ↔
      ∃ d, form.text d = code ∧
        w = { taken := code, kept := form.kept (form.line d), rest := [] } := by
  rw [Text.Pattern.mem_ways_iff]
  constructor
  · rintro ⟨rfl, h⟩
    rw [List.mem_append, not_or] at hcode
    obtain ⟨hrest | hrest, d, hd, hkept⟩ := (takes_pattern hcode.1).mp h
    · exact ⟨d, by rw [hd, hrest, List.append_nil], by rw [hkept, hrest, List.append_nil, ← hrest]⟩
    · exact absurd (by rw [hrest]; exact List.mem_singleton_self _) hcode.2
  · rintro ⟨d, hd, rfl⟩
    exact ⟨List.append_nil code, (takes_pattern hcode).mpr ⟨Or.inl rfl, d, hd, rfl⟩⟩

/-- **What a search finds first** is what the reader reads. -/
theorem search_pattern (hcode : '\n' ∉ code) :
    form.pattern.search code =
      (form.read code).map fun l => { taken := code, kept := form.kept l, rest := [] } := by
  cases hread : form.read code with
  | none =>
    have hnone : form.pattern.ways code = [] := by
      refine List.eq_nil_iff_forall_not_mem.mpr fun w hw => ?_
      obtain ⟨d, rfl, -⟩ := (mem_ways_iff hcode).mp hw
      rw [read_text] at hread
      exact nomatch hread
    rw [search, hnone]
    rfl
  | some l =>
    obtain ⟨d, rfl, rfl⟩ := read_eq_some_iff.mp hread
    have hmem := (mem_ways_iff hcode).mpr ⟨d, rfl, rfl⟩
    obtain ⟨w, ws, hways⟩ := List.exists_cons_of_ne_nil (List.ne_nil_of_mem hmem)
    obtain ⟨d', hd', hw⟩ := (mem_ways_iff hcode).mp (hways ▸ List.mem_cons_self)
    rw [search, hways, List.head?_cons, hw, text_injective hd']
    rfl

/-- **A type that starts with `Unsupported(` is never a name.** -/
theorem exists_unsupported_of_read {name gap inner : List Char} {f : FieldLine}
    (hname : isName name = true) (hne : gap ≠ []) (hgap : IsGap gap)
    (h : FieldLine.read (name ++ (gap ++ (TypeExpr.unsupportedOpening ++ inner))) = some f) :
    ∃ raw, f.type = .unsupported raw := by
  have hhead : ∀ c ∈ (TypeExpr.unsupportedOpening ++ inner).head?, Text.isBlank c = false := by
    intro c hc
    obtain rfl : 'U' = c := Option.some.inj hc
    decide
  obtain ⟨d, htext, rfl⟩ := FieldLine.spells_iff.mp (FieldLine.read_eq_some_iff.mp h)
  have hspells : d.type.type.Spells d.type.text := TypeExpr.spells_iff.mpr ⟨d.type, rfl, rfl⟩
  obtain ⟨-, htail⟩ := Text.eq_of_name_append d.isName hname
    (Text.endsName_gap_append d.gap_ne d.isGap _) (Text.endsName_gap_append hne hgap _) htext
  obtain ⟨-, htype⟩ := Text.eq_of_gap_append d.isGap hgap (hspells.head?_ne_blank _) hhead htail
  rw [FieldLine.Parts.line]
  cases hd : d.type with
  | named type hisName =>
    -- the name would be the word, and no modifier and no attribute is a bracket
    obtain ⟨hends, hparen⟩ := endsName_modifiers d.starts d.isList d.isOptional
    rw [hd] at htype
    exact absurd (TypeExpr.head?_of_append_eq hisName hends htype) hparen
  | unsupported before raw => exact ⟨raw, rfl⟩

/-- **Headers, fields and values are taken apart in one way.** A line is read exactly if it has
parts, it has no others, and what is read are these. If there is no line feed in it, the pattern of
the form is found in it exactly if it has parts; every way to find it takes the whole line and keeps
what is read of the parts; and so does the way that a search finds first, which is what the reader
reads. A type that starts with `Unsupported(` is never read as a name. -/
theorem decomposition :
    (∀ (form : LineForm) (code : List Char),
      (∀ l, form.read code = some l ↔ ∃ d, form.text d = code ∧ form.line d = l) ∧
      (∀ d d', form.text d = code → form.text d' = code → d = d') ∧
      ('\n' ∉ code →
        (form.pattern.ways code ≠ [] ↔ ∃ d, form.text d = code) ∧
        (∀ d, form.text d = code → ∀ w ∈ form.pattern.ways code,
          w = { taken := code, kept := form.kept (form.line d), rest := [] }) ∧
        form.pattern.search code =
          (form.read code).map fun l => { taken := code, kept := form.kept l, rest := [] })) ∧
    ∀ (name gap inner : List Char) (f : FieldLine), isName name = true → gap ≠ [] → IsGap gap →
      FieldLine.read (name ++ (gap ++ (TypeExpr.unsupportedOpening ++ inner))) = some f →
        ∃ raw, f.type = .unsupported raw := by
  refine ⟨fun form code => ⟨fun l => read_eq_some_iff, fun d d' hd hd' => ?_, fun hcode =>
    ⟨⟨fun hne => ?_, ?_⟩, ?_, search_pattern hcode⟩⟩, fun name gap inner f hname hne hgap h => ?_⟩
  · exact text_injective (hd.trans hd'.symm)
  · obtain ⟨w, hw⟩ := List.exists_mem_of_ne_nil _ hne
    obtain ⟨d, hd, -⟩ := (mem_ways_iff hcode).mp hw
    exact ⟨d, hd⟩
  · rintro ⟨d, hd⟩
    exact List.ne_nil_of_mem ((mem_ways_iff hcode).mpr ⟨d, hd, rfl⟩)
  · rintro d rfl w hw
    obtain ⟨d', hd', rfl⟩ := (mem_ways_iff hcode).mp hw
    rw [text_injective hd']
  · exact exists_unsupported_of_read hname hne hgap h

/-- A field with gaps, an escaped quote and a bracket in its type, both modifiers and an
attribute. -/
theorem decomposition_unsupported :
    ∃ (code : List Char) (d : FieldLine.Parts),
      code = "pos Unsupported( \"a\\\")?\" )[]? @x".toList ∧ '\n' ∉ code ∧ d.text = code ∧
        (∀ d' : FieldLine.Parts, d'.text = code → d' = d) ∧
        d.line = { name := "pos", type := .unsupported "a\\\")?", isList := true, isOptional := true
                   attributes := " @x".toList } ∧
        (∃ raw, d.line.type = .unsupported raw) ∧
        ∀ w ∈ FieldLine.pattern.ways code, w.kept = [("name", "pos".toList),
          ("raw", "a\\\")?".toList), ("list", "[]".toList), ("optional", "?".toList),
          ("rest", " @x".toList)] := by
  let code := "pos Unsupported( \"a\\\")?\" )[]? @x".toList
  have hcode : '\n' ∉ code := by decide
  let line : FieldLine :=
    { name := "pos", type := .unsupported "a\\\")?", isList := true, isOptional := true
      attributes := " @x".toList }
  have hread : FieldLine.read code = some line := by decide
  obtain ⟨hforms, hunsupported⟩ := decomposition
  obtain ⟨hparts, hunique, hpattern⟩ := hforms .field code
  obtain ⟨d, hd, hline⟩ : ∃ d : FieldLine.Parts, d.text = code ∧ d.line = line :=
    (hparts line).mp hread
  obtain ⟨-, hways, -⟩ := hpattern hcode
  have htype := hunsupported "pos".toList [' '] " \"a\\\")?\" )[]? @x".toList _ (by decide)
    (by decide) Text.isGap_space hread
  refine ⟨code, d, rfl, hcode, hd, fun d' hd' => hunique d' d hd' hd, hline, ?_, fun w hw => ?_⟩
  · rw [hline]
    exact htype
  · rw [hways d hd w hw]
    exact congrArg FieldLine.kept hline

end LineForm
end SchemaDiagram
