import SchemaDiagram.Proofs.Block.Run
import SchemaDiagram.Proofs.Resolution
import SchemaDiagram.Proofs.Scan.Attribute

/-!
# Well-formed schemas

A schema is a value like any other, and most of its values are no schema that a text could spell: a
model may be named `a b`, or an argument may hold an open bracket. `Schema.IsWritable` collects what
the form of a text demands of the parts of a schema, one by one: names are names, arguments are
regular and fit on a line, the lines of a documentation are stripped. `Schema.IsWellFormed` adds
what they demand of each other: names are distinct, and every field is of the kind its type refers
to.

Every part of a block that is read has the form that is demanded here (`Block.isWritable_add`).
-/

namespace SchemaDiagram

/-! ## The form of the parts -/

/-- The pieces of a documentation text, one for each line it is written on. -/
def documentationTexts (d : Option String) : List (List Char) :=
  d.toList.flatMap fun text => Text.splitAtFeeds text.toList

/-- The form of an attribute that can be written and read again. -/
structure Attribute.IsWritable (a : Attribute) : Prop where
  isRegular : a.IsRegular
  fits : ∀ arg ∈ a.arguments, FitsOnLine arg.value.toList

/-- The form of the name of a type. The name of an unsupported type is the text of a literal. -/
def FieldType.IsWritable (t : FieldType) : Prop :=
  if t.kind = .unsupported then LiteralBody t.name.toList ∧ Text.IsOneLine t.name.toList
  else Text.isName t.name.toList = true

/-- The form of a field. -/
structure Field.IsWritable (f : Field) : Prop where
  isName : Text.isName f.name.toList = true
  type : f.type.IsWritable
  attributes : ∀ a ∈ f.attributes, a.IsWritable
  documentation : ∀ d ∈ f.documentation, IsDocumentation d

/-- The form of the fields of one block: no two of them have the same name. -/
structure Field.AreWritable (fs : List Field) : Prop where
  forall_mem : ∀ f ∈ fs, f.IsWritable
  nodup : (fs.map Field.name).Nodup

/-- The form of a model. -/
structure Model.IsWritable (m : Model) : Prop where
  isName : Text.isName m.name.toList = true
  fields : Field.AreWritable m.fields
  attributes : ∀ a ∈ m.attributes, a.IsWritable
  documentation : ∀ d ∈ m.documentation, IsDocumentation d

/-- The form of an enum. -/
structure Enum.IsWritable (e : Enum) : Prop where
  isName : Text.isName e.name.toList = true
  values : ∀ v ∈ e.values, Text.isName v.toList = true

/-- The form of a composite type. -/
structure CompositeType.IsWritable (t : CompositeType) : Prop where
  isName : Text.isName t.name.toList = true
  fields : Field.AreWritable t.fields

namespace Schema

/-- The form of a schema, part by part. -/
structure IsWritable (s : Schema) : Prop where
  models : ∀ m ∈ s.models, m.IsWritable
  enums : ∀ e ∈ s.enums, e.IsWritable
  compositeTypes : ∀ t ∈ s.compositeTypes, t.IsWritable

/-- The names that the schema declares, with what they stand for. -/
def names (s : Schema) : Names :=
  s.models.map (fun m => (m.name, .model)) ++ s.enums.map (fun e => (e.name, .enum)) ++
    s.compositeTypes.map fun t => (t.name, .composite)

/-- The fields of the schema. -/
def fields (s : Schema) : List Field :=
  s.models.flatMap Model.fields ++ s.compositeTypes.flatMap CompositeType.fields

/-- A well-formed schema: its parts have the right form, its names are distinct and not built in,
and every field whose type is supported is of the kind that its type refers to. -/
structure IsWellFormed (s : Schema) : Prop where
  isWritable : s.IsWritable
  nodup : (s.names.map Prod.fst).Nodup
  notScalar : ∀ n ∈ s.names.map Prod.fst, isScalarName n = false
  kind : ∀ f ∈ s.fields, f.type.kind ≠ .unsupported →
    s.names.kindOf (.named f.type.name) = some f.type.kind

end Schema

/-! ## The form of what is read -/

/-- The form of a type that was read. -/
def TypeExpr.IsWritable : TypeExpr → Prop
  | .named n => Text.isName n.toList = true
  | .unsupported raw => LiteralBody raw.toList ∧ Text.IsOneLine raw.toList

/-- The form of a field that was read. -/
structure FieldDecl.IsWritable (f : FieldDecl) : Prop where
  isName : Text.isName f.name.toList = true
  type : f.type.IsWritable
  attributes : ∀ a ∈ f.attributes, a.IsWritable
  documentation : ∀ d ∈ f.documentation, IsDocumentation d

/-- The form of a block that was read. -/
structure Block.IsWritable (b : Block) : Prop where
  isName : Text.isName b.name.toList = true
  fields : ∀ f ∈ b.fields, f.IsWritable
  nodup : (b.fields.map FieldDecl.name).Nodup
  values : ∀ v ∈ b.values, Text.isName v.toList = true
  attributes : ∀ a ∈ b.attributes, a.IsWritable
  documentation : ∀ d ∈ b.documentation, IsDocumentation d

/-- The attributes of a run that stands in the code of a line. -/
theorem Attribute.isWritable_of_parseRun {run code : List Char} {as : List Attribute}
    (h : parseRun run = .ok as) (hrun : StandsIn run code) (hcode : FitsOnLine code) :
    ∀ a ∈ as, a.IsWritable := by
  intro a ha
  obtain ⟨hreg, hstands⟩ := (isRegular_of_parseRun h).2 a ha
  exact ⟨hreg, fun arg harg => ((hstands arg harg).trans hrun).fitsOnLine hcode⟩

/-- A type leaves the scan of a line outside of literals. -/
theorem TypeExpr.Spells.after_outside {t : TypeExpr} {type : List Char} (h : t.Spells type) :
    LiteralState.outside.after type = .outside := by
  cases h with
  | named hname => exact after_outside_of_isName hname
  | @unsupported raw before after hbefore hafter hraw =>
    have hopening : LiteralState.outside.after unsupportedOpening = .outside := rfl
    have hliteral := LiteralState.after_outside_literal hraw
    have htail : LiteralState.outside.after (after ++ [')']) = .outside := by
      rw [LiteralState.after_append, after_outside_of_isGap hafter]
      rfl
    have hsplit : '"' :: (raw.toList ++ '"' :: (after ++ [')'])) =
        ('"' :: (raw.toList ++ ['"'])) ++ (after ++ [')']) := by simp
    rw [LiteralState.after_append, hopening, LiteralState.after_append,
      after_outside_of_isGap hbefore, hsplit, LiteralState.after_append, hliteral, htail]

theorem after_outside_modifiers (isList isOptional : Bool) :
    LiteralState.outside.after (modifiers isList isOptional) = .outside := by
  cases isList <;> cases isOptional <;> rfl

theorem TypeExpr.Spells.isWritable {t : TypeExpr} {type : List Char} (h : t.Spells type)
    (hline : Text.IsOneLine type) : t.IsWritable := by
  cases h with
  | named hname => exact hname
  | unsupported _ _ hraw =>
    rw [Text.isOneLine_append, Text.isOneLine_append, Text.isOneLine_cons,
      Text.isOneLine_append] at hline
    exact ⟨hraw, hline.2.2.2.1⟩

namespace Block

/-- **The form of what a line adds.** -/
theorem isWritable_add {b : Block} {e : Entry} {code : List Char} {doc : Option String} (n : Nat)
    (hcode : FitsOnLine code) (hb : b.IsWritable) (hreads : Entry.Reads b.keyword code e)
    (hadmits : b.Admits e) (hdoc : ∀ d ∈ doc, IsDocumentation d) :
    (b.add n doc e).IsWritable := by
  cases hreads with
  | setting _ => exact hb
  | @attributes run as _ heq has =>
    refine { hb with attributes := ?_ }
    intro a ha
    rcases List.mem_append.mp ha with ha | ha
    · exact hb.attributes a ha
    · exact Attribute.isWritable_of_parseRun has ⟨['@'], [], by rw [heq]; simp, rfl⟩ hcode a ha
  | @value v as _ hv has =>
    refine { hb with values := ?_ }
    intro name hname
    rcases List.mem_append.mp hname with hname | hname
    · exact hb.values name hname
    · rw [List.mem_singleton.mp hname]
      exact hv.1
  | @field f as _ hf has =>
    obtain ⟨hname, -, gap, type, -, hgap, htype, rfl⟩ := hf
    have hline := hcode.1
    rw [Text.isOneLine_append, Text.isOneLine_append, Text.isOneLine_append] at hline
    have hbefore : LiteralState.outside.after
        (f.name.toList ++ (gap ++ (type ++ modifiers f.isList f.isOptional))) = .outside := by
      rw [LiteralState.after_append, after_outside_of_isName hname, LiteralState.after_append,
        after_outside_of_isGap hgap, LiteralState.after_append, htype.after_outside,
        after_outside_modifiers]
    have hattributes : ∀ a ∈ as, a.IsWritable :=
      Attribute.isWritable_of_parseRun has ⟨_, [], by simp, hbefore⟩ hcode
    have hdecl : (f.decl n doc as).IsWritable :=
      ⟨hname, htype.isWritable hline.2.2.1, hattributes, hdoc⟩
    refine { hb with fields := ?_, nodup := ?_ }
    · intro g hg
      rcases List.mem_append.mp hg with hg | hg
      · exact hb.fields g hg
      · rwa [List.mem_singleton.mp hg]
    · exact nodup_add hb.nodup n doc hadmits

theorem keptByEntries_isWritable {texts : List (List Char)}
    (hone : ∀ t ∈ texts, Text.IsOneLine t) : KeptByEntries texts IsWritable := by
  intro n text b e doc hline hb hreads hadmits hdoc
  exact isWritable_add n (SourceLine.fitsOnLine_code (hone text hline.mem)) hb hreads hadmits hdoc

theorem holdsWhenOpened_isWritable (texts : List (List Char)) :
    HoldsWhenOpened texts IsWritable := by
  intro n text k name isClosed doc _ hspells hdoc
  exact ⟨hspells.2.2.1, by simp [opened], by simp [opened], by simp [opened], by simp [opened],
    hdoc⟩

end Block
end SchemaDiagram
