import SchemaDiagram.Proofs.Form

/-!
# The parts of a line

A header, a field and a value are each put together from parts: names, gaps, brackets and the text
of the attributes. Here the parts of a line are data (`HeaderLine.Parts`, `FieldLine.Parts`,
`ValueLine.Parts`), down to the gaps that nobody reads, and the line is the text that they make up.

A line is read exactly if it has parts, and then what is read are those parts of it that matter
(`HeaderLine.spells_iff` and its siblings). The parts that nobody reads are told by the text, once
the others are known (`HeaderLine.Parts.eq_of_line_eq` and its siblings): what stands behind a gap
never starts with a blank.
-/

namespace SchemaDiagram

open Text (IsGap isName)

/-! ## Parts -/

/-- The parts of a header. -/
structure HeaderLine.Parts where
  keyword : String
  gap : List Char
  name : String
  before : List Char
  after : List Char
  isClosed : Bool
  keyword_ne : keyword ≠ ""
  isAlpha : ∀ c ∈ keyword.toList, c.isAlpha = true
  gap_ne : gap ≠ []
  isGap : IsGap gap
  isName : isName name.toList = true
  isGap_before : IsGap before
  isGap_after : IsGap after

/-- The parts of a type: a name, or a literal with the gaps around it. -/
inductive TypeExpr.Parts where
  | named (name : String) (isName : isName name.toList = true)
  | unsupported (before : List Char) (raw : String) (after : List Char)
      (isGap_before : IsGap before) (body : LiteralBody raw.toList) (isGap_after : IsGap after)

/-- The parts of a field. -/
structure FieldLine.Parts where
  name : String
  gap : List Char
  type : TypeExpr.Parts
  isList : Bool
  isOptional : Bool
  attributes : List Char
  isName : isName name.toList = true
  gap_ne : gap ≠ []
  isGap : IsGap gap
  starts : startsAttributes attributes = true

/-- The parts of a value. -/
structure ValueLine.Parts where
  name : String
  attributes : List Char
  isName : isName name.toList = true
  starts : startsAttributes attributes = true

namespace HeaderLine.Parts

/-- The header that the parts make up. -/
def text (d : Parts) : List Char :=
  d.keyword.toList ++ (d.gap ++ (d.name.toList ++ (d.before ++
    '{' :: (d.after ++ closing d.isClosed))))

/-- What is read of the parts. -/
def line (d : Parts) : HeaderLine :=
  { keyword := d.keyword, name := d.name, isClosed := d.isClosed }

end HeaderLine.Parts

namespace TypeExpr.Parts

/-- The type that the parts make up. -/
def text : Parts → List Char
  | named name _ => name.toList
  | unsupported before raw after _ _ _ =>
    unsupportedOpening ++ (before ++ '"' :: (raw.toList ++ '"' :: (after ++ [')'])))

/-- What is read of the parts. -/
def type : Parts → TypeExpr
  | named name _ => .named name
  | unsupported _ raw _ _ _ _ => .unsupported raw

end TypeExpr.Parts

namespace FieldLine.Parts

/-- The field that the parts make up. -/
def text (d : Parts) : List Char :=
  d.name.toList ++ (d.gap ++ (d.type.text ++ (modifiers d.isList d.isOptional ++ d.attributes)))

/-- What is read of the parts. -/
def line (d : Parts) : FieldLine :=
  { name := d.name, type := d.type.type, isList := d.isList, isOptional := d.isOptional
    attributes := d.attributes }

end FieldLine.Parts

namespace ValueLine.Parts

/-- The value that the parts make up. -/
def text (d : Parts) : List Char :=
  d.name.toList ++ d.attributes

/-- What is read of the parts. -/
def line (d : Parts) : ValueLine :=
  { name := d.name, attributes := d.attributes }

end ValueLine.Parts

/-! ## A line is read if it has parts -/

theorem HeaderLine.spells_iff {h : HeaderLine} {code : List Char} :
    h.Spells code ↔ ∃ d : Parts, d.text = code ∧ d.line = h := by
  constructor
  · rintro ⟨hne, halpha, hname, gap, before, after, hgap, hblank, hbefore, hafter, rfl⟩
    exact ⟨⟨h.keyword, gap, h.name, before, after, h.isClosed, hne, halpha, hgap, hblank, hname,
      hbefore, hafter⟩, rfl, rfl⟩
  · rintro ⟨d, rfl, rfl⟩
    exact ⟨d.keyword_ne, d.isAlpha, d.isName, d.gap, d.before, d.after, d.gap_ne, d.isGap,
      d.isGap_before, d.isGap_after, rfl⟩

theorem TypeExpr.spells_iff {t : TypeExpr} {s : List Char} :
    t.Spells s ↔ ∃ d : Parts, d.text = s ∧ d.type = t := by
  constructor
  · rintro (hname | ⟨hbefore, hafter, hbody⟩)
    · exact ⟨.named _ hname, rfl, rfl⟩
    · exact ⟨.unsupported _ _ _ hbefore hbody hafter, rfl, rfl⟩
  · rintro ⟨_ | ⟨before, raw, after, hbefore, hbody, hafter⟩, rfl, rfl⟩
    · exact .named ‹_›
    · exact .unsupported hbefore hafter hbody

theorem FieldLine.spells_iff {f : FieldLine} {code : List Char} :
    f.Spells code ↔ ∃ d : Parts, d.text = code ∧ d.line = f := by
  constructor
  · rintro ⟨hname, hstarts, gap, type, hne, hgap, htype, rfl⟩
    obtain ⟨t, rfl, ht⟩ := TypeExpr.spells_iff.mp htype
    refine ⟨⟨f.name, gap, t, f.isList, f.isOptional, f.attributes, hname, hne, hgap, hstarts⟩, rfl,
      ?_⟩
    rw [Parts.line, ht]
  · rintro ⟨d, rfl, rfl⟩
    exact ⟨d.isName, d.starts, d.gap, d.type.text, d.gap_ne, d.isGap,
      TypeExpr.spells_iff.mpr ⟨d.type, rfl, rfl⟩, rfl⟩

theorem ValueLine.spells_iff {v : ValueLine} {code : List Char} :
    v.Spells code ↔ ∃ d : Parts, d.text = code ∧ d.line = v := by
  constructor
  · rintro ⟨hname, hstarts, rfl⟩
    exact ⟨⟨v.name, v.attributes, hname, hstarts⟩, rfl, rfl⟩
  · rintro ⟨d, rfl, rfl⟩
    exact ⟨d.isName, d.starts, rfl⟩

/-! ## The parts can be told apart -/

theorem HeaderLine.Parts.eq_of_line_eq {d d' : Parts} (hline : d.line = d'.line)
    (htext : d.text = d'.text) : d = d' := by
  obtain ⟨keyword, gap, name, before, after, isClosed, _, _, _, hgap, hname, hbefore, hafter⟩ := d
  obtain ⟨keyword', gap', name', before', after', isClosed', _, _, _, hgap', _, hbefore', _⟩ := d'
  obtain ⟨rfl, rfl, rfl⟩ := HeaderLine.mk.inj hline
  obtain ⟨rfl, htail⟩ := Text.eq_of_gap_append hgap hgap' (Text.head?_name_append hname _)
    (Text.head?_name_append hname _) (List.append_cancel_left htext)
  obtain ⟨rfl, hend⟩ := Text.eq_of_gap_append_cons (by decide) hbefore hbefore'
    (List.append_cancel_left htail)
  obtain rfl := List.append_cancel_right hend
  rfl

theorem TypeExpr.Parts.eq_of_type_eq {d d' : Parts} (htype : d.type = d'.type)
    (htext : d.text = d'.text) : d = d' := by
  cases d with
  | named name hname =>
    cases d' with
    | named name' hname' =>
      obtain rfl : name = name' := TypeExpr.named.inj htype
      rfl
    | unsupported => exact nomatch htype
  | unsupported before raw after hbefore hbody hafter =>
    cases d' with
    | named => exact nomatch htype
    | unsupported before' raw' after' hbefore' hbody' hafter' =>
      obtain rfl : raw = raw' := TypeExpr.unsupported.inj htype
      obtain ⟨rfl, htail⟩ := Text.eq_of_gap_append_cons (by decide) hbefore hbefore'
        (List.append_cancel_left htext)
      obtain ⟨rfl, -⟩ := Text.eq_of_gap_append_cons (by decide) hafter hafter'
        (List.cons.inj (List.append_cancel_left htail)).2
      rfl

theorem FieldLine.Parts.eq_of_line_eq {d d' : Parts} (hline : d.line = d'.line)
    (htext : d.text = d'.text) : d = d' := by
  obtain ⟨name, gap, type, isList, isOptional, attributes, _, _, hgap, _⟩ := d
  obtain ⟨name', gap', type', isList', isOptional', attributes', _, _, hgap', _⟩ := d'
  obtain ⟨rfl, htype, rfl, rfl, rfl⟩ := FieldLine.mk.inj hline
  have hspells (t : TypeExpr.Parts) : t.type.Spells t.text := TypeExpr.spells_iff.mpr ⟨t, rfl, rfl⟩
  obtain ⟨rfl, htail⟩ := Text.eq_of_gap_append hgap hgap' ((hspells type).head?_ne_blank _)
    ((hspells type').head?_ne_blank _) (List.append_cancel_left htext)
  obtain rfl := TypeExpr.Parts.eq_of_type_eq htype (List.append_cancel_right htail)
  rfl

theorem ValueLine.Parts.eq_of_line_eq {d d' : Parts} (hline : d.line = d'.line) : d = d' := by
  obtain ⟨name, attributes, _, _⟩ := d
  obtain ⟨name', attributes', _, _⟩ := d'
  obtain ⟨rfl, rfl⟩ := ValueLine.mk.inj hline
  rfl

end SchemaDiagram
