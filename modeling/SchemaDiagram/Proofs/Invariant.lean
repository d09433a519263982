import SchemaDiagram.Proofs.Acceptance
import SchemaDiagram.Proofs.WellFormed

/-!
# What is returned

Every schema that the parser returns has writable parts and distinct names that are not built in,
and none of its texts has a line end. Its declarations are those of the text: model for model, enum
for enum and type for type, in the order of the text and field for field, and the kind of a field is
told by how its type is written and by what the text and the schema declare.

A returned schema need not be well-formed in the sense of `Schema.IsWellFormed`: a field may refer
to a view, which is no part of the schema. Everything else of that notion holds.
-/

namespace SchemaDiagram

/-! ## The texts of a schema -/

/-- The texts of an attribute: its name, and the names and values of its arguments. -/
def Attribute.texts (a : Attribute) : List (List Char) :=
  a.name.toList ::
    a.arguments.flatMap fun arg => (arg.name.toList ++ [arg.value]).map String.toList

/-- The texts of a field: its name, the name of its type, and those of its attributes and of its
documentation. -/
def Field.texts (f : Field) : List (List Char) :=
  f.name.toList :: f.type.name.toList ::
    (f.attributes.flatMap Attribute.texts ++ documentationTexts f.documentation)

/-- All texts of a schema. -/
def Schema.texts (s : Schema) : List (List Char) :=
  (s.models.flatMap fun m => m.name.toList :: (m.fields.flatMap Field.texts ++
      (m.attributes.flatMap Attribute.texts ++ documentationTexts m.documentation))) ++
    (s.enums.flatMap fun e => e.name.toList :: e.values.map String.toList) ++
    s.compositeTypes.flatMap fun t => t.name.toList :: t.fields.flatMap Field.texts

theorem Attribute.isOneLine_of_isAttributeName {s : List Char} (hs : IsAttributeName s) :
    Text.IsOneLine s := by
  intro c hc
  rcases isWord_or_dot_of_mem hs hc with hw | rfl
  · exact Text.isTerminator_eq_false_of_isWord hw
  · decide

theorem Attribute.IsWritable.isOneLine {a : Attribute} (h : a.IsWritable) :
    ∀ t ∈ a.texts, Text.IsOneLine t := by
  rw [texts, List.forall_mem_cons]
  refine ⟨isOneLine_of_isAttributeName h.isRegular.name, fun t ht => ?_⟩
  obtain ⟨arg, harg, ht⟩ := List.mem_flatMap.mp ht
  rw [List.map_append, List.mem_append] at ht
  rcases ht with ht | ht
  · obtain ⟨n, hn, rfl⟩ := List.mem_map.mp ht
    exact Text.isOneLine_of_isName ((h.isRegular.arguments arg harg).isName n (by simpa using hn))
  · rw [List.map_singleton, List.mem_singleton] at ht
    rw [ht]
    exact (h.fits arg harg).1

theorem isOneLine_documentationTexts {d : Option String} (h : ∀ text ∈ d, IsDocumentation text) :
    ∀ t ∈ documentationTexts d, Text.IsOneLine t := by
  intro t ht
  obtain ⟨text, htext, ht⟩ := List.mem_flatMap.mp ht
  exact ((h text (by simpa using htext)).2 t ht).2

theorem FieldType.IsWritable.isOneLine {t : FieldType} (h : t.IsWritable) :
    Text.IsOneLine t.name.toList := by
  rw [IsWritable] at h
  split at h
  · exact h.2
  · exact Text.isOneLine_of_isName h

theorem Field.IsWritable.isOneLine {f : Field} (h : f.IsWritable) :
    ∀ t ∈ f.texts, Text.IsOneLine t := by
  rw [texts, List.forall_mem_cons, List.forall_mem_cons]
  refine ⟨Text.isOneLine_of_isName h.isName, h.type.isOneLine, fun t ht => ?_⟩
  rcases List.mem_append.mp ht with ht | ht
  · obtain ⟨a, ha, ht⟩ := List.mem_flatMap.mp ht
    exact (h.attributes a ha).isOneLine t ht
  · exact isOneLine_documentationTexts h.documentation t ht

theorem Field.AreWritable.isOneLine {fs : List Field} (h : AreWritable fs) :
    ∀ t ∈ fs.flatMap Field.texts, Text.IsOneLine t := by
  intro t ht
  obtain ⟨f, hf, ht⟩ := List.mem_flatMap.mp ht
  exact (h.forall_mem f hf).isOneLine t ht

/-- No text of a writable schema has a line end. -/
theorem Schema.IsWritable.isOneLine {s : Schema} (h : s.IsWritable) :
    ∀ t ∈ s.texts, Text.IsOneLine t := by
  intro t ht
  rw [texts, List.mem_append, List.mem_append] at ht
  rcases ht with (ht | ht) | ht
  · obtain ⟨m, hm, ht⟩ := List.mem_flatMap.mp ht
    have hm := h.models m hm
    rw [List.mem_cons, List.mem_append, List.mem_append] at ht
    rcases ht with rfl | ht | ht | ht
    · exact Text.isOneLine_of_isName hm.isName
    · exact hm.fields.isOneLine t ht
    · obtain ⟨a, ha, ht⟩ := List.mem_flatMap.mp ht
      exact (hm.attributes a ha).isOneLine t ht
    · exact isOneLine_documentationTexts hm.documentation t ht
  · obtain ⟨e, he, ht⟩ := List.mem_flatMap.mp ht
    have he := h.enums e he
    rcases List.mem_cons.mp ht with rfl | ht
    · exact Text.isOneLine_of_isName he.isName
    · obtain ⟨v, hv, rfl⟩ := List.mem_map.mp ht
      exact Text.isOneLine_of_isName (he.values v hv)
  · obtain ⟨c, hc, ht⟩ := List.mem_flatMap.mp ht
    have hc := h.compositeTypes c hc
    rcases List.mem_cons.mp ht with rfl | ht
    · exact Text.isOneLine_of_isName hc.isName
    · exact hc.fields.isOneLine t ht

/-! ## The form of what is returned -/

namespace Schema

variable {bs : List Block}

theorem IsResolvable.isWritable_field (h : IsResolvable bs) {b : Block} (hb : b ∈ bs)
    {f : FieldDecl} (hf : f ∈ b.typedFields) (hwritable : f.IsWritable) :
    (f.field (declared bs)).IsWritable := by
  have hunsupported := h.kind_eq_unsupported_iff (h.known b hb f hf)
  refine ⟨hwritable.isName, ?_, hwritable.attributes, hwritable.documentation⟩
  have htype := hwritable.type
  rw [FieldType.IsWritable]
  cases ht : f.type with
  | unsupported raw =>
    rw [if_pos (hunsupported.mpr ⟨raw, ht⟩)]
    rw [ht] at htype
    simp only [FieldDecl.field, ht]
    exact htype
  | named n =>
    rw [if_neg (fun hkind => by simpa [ht] using hunsupported.mp hkind)]
    rw [ht] at htype
    simp only [FieldDecl.field, ht]
    exact htype

theorem IsResolvable.areWritable_resolved (h : IsResolvable bs) {b : Block} (hb : b ∈ bs)
    (htyped : b.typedFields = b.fields) (hwritable : b.IsWritable) :
    Field.AreWritable (b.resolved (declared bs)) := by
  constructor
  · intro field hfield
    obtain ⟨f, hf, rfl⟩ := List.mem_map.mp hfield
    exact h.isWritable_field hb (by rwa [htyped]) (hwritable.fields f hf)
  · have hnames : (b.resolved (declared bs)).map Field.name = b.fields.map FieldDecl.name := by
      rw [Block.resolved, List.map_map]
      rfl
    rw [hnames]
    exact hwritable.nodup

/-- The schema of writable blocks is writable. -/
theorem IsResolvable.isWritable_assemble (h : IsResolvable bs) (hall : ∀ b ∈ bs, b.IsWritable) :
    (assemble (declared bs) bs).IsWritable := by
  refine ⟨fun m hm => ?_, fun e he => ?_, fun t ht => ?_⟩
  · obtain ⟨b, hb, heq⟩ := List.mem_filterMap.mp hm
    rw [Block.model?, Option.ite_none_right_eq_some, Option.some.injEq] at heq
    obtain ⟨hk, rfl⟩ := heq
    have htyped := Block.typedFields_eq_fields (Or.inl hk)
    exact ⟨(hall b hb).isName, h.areWritable_resolved hb htyped (hall b hb),
      (hall b hb).attributes, (hall b hb).documentation⟩
  · obtain ⟨b, hb, heq⟩ := List.mem_filterMap.mp he
    rw [Block.enum?, Option.ite_none_right_eq_some, Option.some.injEq] at heq
    obtain ⟨-, rfl⟩ := heq
    exact ⟨(hall b hb).isName, (hall b hb).values⟩
  · obtain ⟨b, hb, heq⟩ := List.mem_filterMap.mp ht
    rw [Block.compositeType?, Option.ite_none_right_eq_some, Option.some.injEq] at heq
    obtain ⟨hk, rfl⟩ := heq
    have htyped := Block.typedFields_eq_fields (Or.inr (Or.inr hk))
    exact ⟨(hall b hb).isName, h.areWritable_resolved hb htyped (hall b hb)⟩

/-! ## The names of what is returned -/

/-- The names of the blocks of one keyword. -/
theorem map_filterMap_of_keyword {α : Type} {g : Block → Option α} {name : α → String}
    {k : Keyword} (hg : ∀ b, (g b).map name = if b.keyword = k then some b.name else none)
    (bs : List Block) :
    (bs.filterMap g).map name = (bs.filter fun b => b.keyword = k).map Block.name := by
  rw [List.map_filterMap, ← List.filterMap_eq_map, List.filterMap_filter]
  exact List.filterMap_congr fun b _ => by simp [hg]

theorem map_models_assemble (names : Names) (bs : List Block) :
    (assemble names bs).models.map Model.name =
      (bs.filter fun b => b.keyword = .model).map Block.name :=
  map_filterMap_of_keyword (fun b => by rw [Block.model?]; split <;> rfl) bs

theorem map_enums_assemble (names : Names) (bs : List Block) :
    (assemble names bs).enums.map Enum.name =
      (bs.filter fun b => b.keyword = .enum).map Block.name :=
  map_filterMap_of_keyword (fun b => by unfold Block.enum?; split <;> rfl) bs

theorem map_compositeTypes_assemble (names : Names) (bs : List Block) :
    (assemble names bs).compositeTypes.map CompositeType.name =
      (bs.filter fun b => b.keyword = .type).map Block.name :=
  map_filterMap_of_keyword (fun b => by rw [Block.compositeType?]; split <;> rfl) bs

/-- The names of a schema, whatever they stand for. -/
theorem map_fst_names (s : Schema) :
    s.names.map Prod.fst = s.models.map Model.name ++ s.enums.map Enum.name ++
      s.compositeTypes.map CompositeType.name := by
  simp [names, Function.comp_def]

/-- What the blocks of one keyword are called is declared. -/
theorem mem_declared_of_mem_filter {k : Keyword} {kind : FieldKind} (hk : k.declares = some kind)
    {n : String} (hn : n ∈ (bs.filter fun b => b.keyword = k).map Block.name) :
    (n, kind) ∈ declared bs := by
  obtain ⟨b, hb, rfl⟩ := List.mem_map.mp hn
  obtain ⟨hb, hkeyword⟩ := List.mem_filter.mp hb
  rw [decide_eq_true_eq] at hkeyword
  exact mem_declared_iff.mpr ⟨b, hb, by rw [hkeyword, hk], rfl⟩

theorem IsResolvable.nodup_filter (h : IsResolvable bs) {k : Keyword}
    (hk : k.isSettings = false) :
    ((bs.filter fun b => b.keyword = k).map Block.name).Nodup := by
  have hnodup := h.nodup
  rw [map_fst_declared] at hnodup
  refine hnodup.sublist (List.Sublist.map _ (List.monotone_filter_right bs fun b hb => ?_))
  rw [decide_eq_true_eq] at hb
  rw [hb, hk]
  rfl

/-- What stands for two kinds is not declared twice. -/
theorem IsResolvable.disjoint_filter (h : IsResolvable bs) {k k' : Keyword}
    {kind kind' : FieldKind} (hk : k.declares = some kind) (hk' : k'.declares = some kind')
    (hne : kind ≠ kind') :
    ∀ n ∈ (bs.filter fun b => b.keyword = k).map Block.name,
      ∀ n' ∈ (bs.filter fun b => b.keyword = k').map Block.name, n ≠ n' := by
  rintro n hn n' hn' rfl
  have h₁ := (Names.lookup_eq_some_iff h.nodup).mpr (mem_declared_of_mem_filter hk hn)
  have h₂ := (Names.lookup_eq_some_iff h.nodup).mpr (mem_declared_of_mem_filter hk' hn')
  rw [h₁, Option.some.injEq] at h₂
  exact hne h₂

/-- **The names of the schema are distinct.** -/
theorem IsResolvable.nodup_names (h : IsResolvable bs) :
    ((assemble (declared bs) bs).names.map Prod.fst).Nodup := by
  rw [map_fst_names, map_models_assemble, map_enums_assemble, map_compositeTypes_assemble,
    List.nodup_append, List.nodup_append]
  refine ⟨⟨h.nodup_filter rfl, h.nodup_filter rfl, h.disjoint_filter rfl rfl (by decide)⟩,
    h.nodup_filter rfl, fun n hn n' hn' => ?_⟩
  rcases List.mem_append.mp hn with hn | hn
  · exact h.disjoint_filter rfl rfl (by decide) n hn n' hn'
  · exact h.disjoint_filter rfl rfl (by decide) n hn n' hn'

/-- The names of the schema are declared by its blocks. -/
theorem mem_declared_of_mem_names {n : String}
    (hn : n ∈ (assemble (declared bs) bs).names.map Prod.fst) :
    n ∈ (declared bs).map Prod.fst := by
  rw [map_fst_names, map_models_assemble, map_enums_assemble, map_compositeTypes_assemble,
    List.mem_append, List.mem_append] at hn
  rcases hn with (hn | hn) | hn
  · exact List.mem_map_of_mem (mem_declared_of_mem_filter rfl hn)
  · exact List.mem_map_of_mem (mem_declared_of_mem_filter rfl hn)
  · exact List.mem_map_of_mem (mem_declared_of_mem_filter rfl hn)

end Schema

/-! ## What the text declares -/

/-- The field of the schema that a field of the text has become. Its kind is told by how its type is
written and by what the blocks and the schema declare. -/
structure FieldDecl.Becomes (ws : List WrittenBlock) (s : Schema) (f : FieldDecl) (field : Field) :
    Prop where
  name : field.name = f.name
  typeName : field.type.name = f.type.name
  isList : field.type.isList = f.isList
  isOptional : field.type.isOptional = f.isOptional
  attributes : field.attributes = f.attributes
  unsupported : field.type.kind = .unsupported ↔ ∃ raw, f.type = .unsupported raw
  scalar : ∀ n, f.type = .named n → (field.type.kind = .scalar ↔ isScalarName n = true)
  enum : ∀ n, f.type = .named n → (field.type.kind = .enum ↔ n ∈ s.enums.map Enum.name)
  composite : ∀ n, f.type = .named n →
    (field.type.kind = .composite ↔ n ∈ s.compositeTypes.map CompositeType.name)
  model : ∀ n, f.type = .named n →
    (field.type.kind = .model ↔
      ∃ w ∈ ws, (w.keyword = .model ∨ w.keyword = .view) ∧ w.name = n)

/-- The schema holds what the blocks declare, one for one and in the same order. -/
structure Schema.Declares (ws : List WrittenBlock) (s : Schema) : Prop where
  models : List.Forall₂ (fun w m => m.name = w.name ∧
      List.Forall₂ (FieldDecl.Becomes ws s) w.fields m.fields ∧
        m.attributes = w.entries.flatMap Entry.blockAttributes)
    (ws.filter fun w => w.keyword = .model) s.models
  enums : List.Forall₂ (fun w e => e.name = w.name ∧ e.values = w.entries.flatMap Entry.values)
    (ws.filter fun w => w.keyword = .enum) s.enums
  compositeTypes : List.Forall₂ (fun w t => t.name = w.name ∧
      List.Forall₂ (FieldDecl.Becomes ws s) w.fields t.fields)
    (ws.filter fun w => w.keyword = .type) s.compositeTypes

theorem forall₂_of_map_bare {bs : List Block} {ws : List WrittenBlock}
    (h : bs.map Block.bare = ws.map WrittenBlock.block) :
    List.Forall₂ (fun w b => b.bare = w.block) ws bs := by
  induction ws generalizing bs with
  | nil =>
    rw [List.map_nil, List.map_eq_nil_iff] at h
    rw [h]
    exact .nil
  | cons w ws ih =>
    obtain ⟨b, bs', rfl, hb, hbs'⟩ := List.map_eq_cons_iff.mp h
    exact .cons hb (ih hbs')

/-- Selecting from two lists that correspond, by a test on one side and a partial map on the
other. -/
theorem forall₂_filter_filterMap {α β γ : Type} {R : α → β → Prop} {Q : α → γ → Prop}
    {p : α → Bool} {g : β → Option γ} {as : List α} {bs : List β} (h : List.Forall₂ R as bs)
    (hp : ∀ a, ∀ b ∈ bs, R a b →
      (p a = true ∧ ∃ c, g b = some c ∧ Q a c) ∨ (p a = false ∧ g b = none)) :
    List.Forall₂ Q (as.filter p) (bs.filterMap g) := by
  induction h with
  | nil => exact .nil
  | @cons a b as bs hab _ ih =>
    have hrest := ih fun a' b' hb' => hp a' b' (List.mem_cons_of_mem _ hb')
    rw [List.filter_cons, List.filterMap_cons]
    rcases hp a b (List.mem_cons_self ..) hab with ⟨hpa, c, hgb, hq⟩ | ⟨hpa, hgb⟩
    · rw [if_pos hpa, hgb]
      exact .cons hq hrest
    · rw [hpa, hgb]
      exact hrest

namespace Schema

variable {bs : List Block} {ws : List WrittenBlock}

/-- Blocks that agree but for the places where they stand are called the same. -/
theorem exists_block_iff_of_map_bare (hbare : bs.map Block.bare = ws.map WrittenBlock.block)
    (p : Keyword → Prop) {n : String} :
    (∃ b ∈ bs, p b.keyword ∧ b.name = n) ↔ ∃ w ∈ ws, p w.keyword ∧ w.name = n := by
  have hmem : (∃ b ∈ bs, p b.keyword ∧ b.name = n) ↔
      ∃ b ∈ bs.map Block.bare, p b.keyword ∧ b.name = n := by
    simp [Block.bare]
  rw [hmem, hbare]
  simp [WrittenBlock.block]

theorem mem_map_filter_iff {k : Keyword} {n : String} :
    n ∈ (bs.filter fun b => b.keyword = k).map Block.name ↔
      ∃ b ∈ bs, b.keyword = k ∧ b.name = n := by
  simp [List.mem_map, List.mem_filter, and_assoc]

/-- **A field and what it becomes.** -/
theorem IsResolvable.becomes (h : IsResolvable bs)
    (hbare : bs.map Block.bare = ws.map WrittenBlock.block) {b : Block} (hb : b ∈ bs)
    {f : FieldDecl} (hf : f ∈ b.typedFields) :
    FieldDecl.Becomes ws (assemble (declared bs) bs) f.bare (f.field (declared bs)) := by
  have hknown := h.known b hb f hf
  refine ⟨rfl, rfl, rfl, rfl, rfl, h.kind_eq_unsupported_iff hknown, fun n hn => ?_,
    fun n hn => ?_, fun n hn => ?_, fun n hn => ?_⟩
  · exact h.kind_eq_scalar_iff hn hknown
  · rw [h.kind_eq_iff_exists (f := f) hn hknown (by decide), map_enums_assemble,
      mem_map_filter_iff]
    simp only [Keyword.declares_eq_enum_iff]
  · rw [h.kind_eq_iff_exists (f := f) hn hknown (by decide), map_compositeTypes_assemble,
      mem_map_filter_iff]
    simp only [Keyword.declares_eq_composite_iff]
  · rw [h.kind_eq_iff_exists (f := f) hn hknown (by decide)]
    simp only [Keyword.declares_eq_model_iff]
    exact exists_block_iff_of_map_bare hbare fun k => k = .model ∨ k = .view

theorem IsResolvable.forall₂_becomes (h : IsResolvable bs)
    (hbare : bs.map Block.bare = ws.map WrittenBlock.block) {b : Block} (hb : b ∈ bs)
    (htyped : b.typedFields = b.fields) {w : WrittenBlock} (hw : b.bare = w.block) :
    List.Forall₂ (FieldDecl.Becomes ws (assemble (declared bs) bs)) w.fields
      (b.resolved (declared bs)) := by
  have hfields : b.fields.map FieldDecl.bare = w.fields := congrArg Block.fields hw
  rw [← hfields, Block.resolved, List.forall₂_map_left_iff, List.forall₂_map_right_iff,
    List.forall₂_same]
  exact fun f hf => h.becomes hbare hb (by rwa [htyped])

/-- **The schema holds what its blocks declare.** -/
theorem IsResolvable.declares (h : IsResolvable bs)
    (hbare : bs.map Block.bare = ws.map WrittenBlock.block) :
    (assemble (declared bs) bs).Declares ws := by
  have hpairs := forall₂_of_map_bare hbare
  refine ⟨forall₂_filter_filterMap hpairs fun w b hb hw => ?_,
    forall₂_filter_filterMap hpairs fun w b hb hw => ?_,
    forall₂_filter_filterMap hpairs fun w b hb hw => ?_⟩
  all_goals
    have hkeyword : b.keyword = w.keyword := Block.keyword_of_bare hw
    have hname : b.name = w.name := congrArg Block.name hw
  · have hattributes : b.attributes = w.entries.flatMap Entry.blockAttributes :=
      congrArg Block.attributes hw
    rw [Block.model?, hkeyword]
    by_cases hk : w.keyword = .model
    · have htyped := Block.typedFields_eq_fields (Or.inl (hkeyword.trans hk))
      exact Or.inl ⟨decide_eq_true hk, _, if_pos hk, hname, h.forall₂_becomes hbare hb htyped hw,
        hattributes⟩
    · exact Or.inr ⟨decide_eq_false hk, if_neg hk⟩
  · have hvalues : b.values = w.entries.flatMap Entry.values := congrArg Block.values hw
    rw [Block.enum?, hkeyword]
    by_cases hk : w.keyword = .enum
    · exact Or.inl ⟨decide_eq_true hk, _, if_pos hk, hname, hvalues⟩
    · exact Or.inr ⟨decide_eq_false hk, if_neg hk⟩
  · rw [Block.compositeType?, hkeyword]
    by_cases hk : w.keyword = .type
    · have htyped := Block.typedFields_eq_fields (Or.inr (Or.inr (hkeyword.trans hk)))
      exact Or.inl ⟨decide_eq_true hk, _, if_pos hk, hname, h.forall₂_becomes hbare hb htyped hw⟩
    · exact Or.inr ⟨decide_eq_false hk, if_neg hk⟩

/-- What is returned is writable. -/
theorem isWritable_of_parse {text : String} {s : Schema} (h : parse text = .ok s) :
    s.IsWritable := by
  obtain ⟨bs, hbs, hresolvable, rfl⟩ := parse_eq_ok_iff.mp h
  have hone := Text.isOneLine_of_mem_lines (Text.dropMark text.toList)
  exact hresolvable.isWritable_assemble (Block.forall_of_ofLines
    (Block.holdsWhenOpened_isWritable _) (Block.keptByEntries_isWritable hone) hone hbs)

/-- **What every returned schema satisfies.** Its parts are writable, its names are distinct and not
built in, no text of it has a line end, and it holds what the blocks of the text declare, with the
kind of every field told by the text. -/
theorem invariant_of_parse {text : String} {s : Schema} (h : parse text = .ok s) :
    s.IsWritable ∧ (s.names.map Prod.fst).Nodup ∧
      (∀ n ∈ s.names.map Prod.fst, isScalarName n = false) ∧ (∀ t ∈ s.texts, Text.IsOneLine t) ∧
        ∃ ws, Spelled ws (codeOf text) ∧ s.Declares ws := by
  have hwritable := isWritable_of_parse h
  obtain ⟨bs, hbs, hresolvable, rfl⟩ := parse_eq_ok_iff.mp h
  obtain ⟨ws, hspelled, hbare⟩ := Block.ofLines_spelled hbs
  exact ⟨hwritable, hresolvable.nodup_names,
    fun n hn => hresolvable.notScalar n (mem_declared_of_mem_names hn), hwritable.isOneLine,
    ws, hspelled, hresolvable.declares hbare⟩

/-- A text with a view: the field that refers to it is of the kind of a model, though the schema has
no model of that name. -/
theorem invariant_of_parse_view :
    ∃ s, parse "model A \x7b\n  b B @x(\"a, b\")\n\x7d\nview B \x7b\x7d" = .ok s ∧
      s.models.map Model.name = ["A"] ∧ s.IsWritable ∧
        ∃ ws, Spelled ws (codeOf "model A \x7b\n  b B @x(\"a, b\")\n\x7d\nview B \x7b\x7d") ∧
          s.Declares ws := by
  have h : parse "model A \x7b\n  b B @x(\"a, b\")\n\x7d\nview B \x7b\x7d" = .ok
      { models := [{
          name := "A"
          fields := [{
            name := "b"
            type := { name := "B", kind := .model }
            attributes := [{ name := "x", arguments := [{ value := "\"a, b\"" }] }] }] }] } := by
    with_unfolding_all rfl
  obtain ⟨hwritable, -, -, -, hdeclares⟩ := invariant_of_parse h
  exact ⟨_, h, rfl, hwritable, hdeclares⟩

end Schema
end SchemaDiagram
