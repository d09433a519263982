import SchemaDiagram.Proofs.Outcome
import SchemaDiagram.Schema.Resolve
import Mathlib.Data.List.Nodup

/-!
# What the second pass does

The second pass goes through the blocks twice, and what comes out of it can be said without either
walk. The names that end up in the table are those the blocks declare, `declared bs`; a schema comes
out if they are distinct, none of them is built in, and every type of a field is known to the table
(`IsResolvable`); and it is `assemble (declared bs) bs`, where each field is resolved on its own.
All three together are `Schema.ofBlocks_eq_ok_iff`. If no schema comes out, the error is met on the
line of a block or of a field (`Schema.exists_line_of_ofBlocks`).
-/

namespace SchemaDiagram

/-! ## The table of names -/

/-- The names that the blocks declare, with what they stand for, in order. -/
def declared (bs : List Block) : Names :=
  bs.filterMap fun b => b.keyword.declares.map fun kind => (b.name, kind)

theorem declared_cons (b : Block) (bs : List Block) :
    declared (b :: bs) =
      (b.keyword.declares.map fun kind => (b.name, kind)).toList ++ declared bs := by
  rw [declared, List.filterMap_cons]
  cases b.keyword.declares <;> rfl

/-- The blocks that declare a name are those that hold no settings. -/
theorem Keyword.isSome_declares (k : Keyword) : k.declares.isSome = !k.isSettings := by
  cases k <;> rfl

theorem Keyword.declares_eq_model_iff {k : Keyword} :
    k.declares = some .model ↔ k = .model ∨ k = .view := by
  cases k <;> simp [declares]

theorem Keyword.declares_eq_enum_iff {k : Keyword} : k.declares = some .enum ↔ k = .enum := by
  cases k <;> simp [declares]

theorem Keyword.declares_eq_composite_iff {k : Keyword} :
    k.declares = some .composite ↔ k = .type := by
  cases k <;> simp [declares]

theorem map_fst_declared (bs : List Block) :
    (declared bs).map Prod.fst = (bs.filter fun b => !b.keyword.isSettings).map Block.name := by
  induction bs with
  | nil => rfl
  | cons b bs ih =>
    have hsettings := b.keyword.isSome_declares
    rw [declared_cons, List.map_append, ih, List.filter_cons, ← hsettings]
    cases b.keyword.declares <;> rfl

namespace Names

theorem isSome_lookup_iff {names : Names} {n : String} :
    (names.lookup n).isSome = true ↔ n ∈ names.map Prod.fst := by
  simp only [List.lookup_isSome_iff, beq_iff_eq, List.mem_map]
  constructor
  · rintro ⟨p, hp, rfl⟩
    exact ⟨p, hp, rfl⟩
  · rintro ⟨p, hp, rfl⟩
    exact ⟨p, hp, rfl⟩

/-- In a table of distinct names the entries are what lookups find. -/
theorem lookup_eq_some_iff {names : Names} (h : (names.map Prod.fst).Nodup) {n : String}
    {kind : FieldKind} : names.lookup n = some kind ↔ (n, kind) ∈ names := by
  rw [List.lookup_eq_some_iff]
  constructor
  · rintro ⟨before, after, rfl, -⟩
    simp
  · intro hmem
    obtain ⟨before, after, rfl⟩ := List.append_of_mem hmem
    refine ⟨before, after, rfl, fun p hp => ?_⟩
    rw [List.map_append, List.nodup_append] at h
    have hne := h.2.2 p.1 (List.mem_map_of_mem hp) n (by simp)
    simpa [bne_iff_ne] using hne.symm

/-- A block is entered if what it declares is neither taken nor built in. -/
theorem enter_eq_ok_iff {names names' : Names} {b : Block} :
    names.enter b = .ok names' ↔
      (∀ n ∈ (declared [b]).map Prod.fst, n ∉ names.map Prod.fst ∧ isScalarName n = false) ∧
        names' = names ++ declared [b] := by
  rw [enter]
  cases hb : b.keyword.declares with
  | none =>
    have hdeclared : declared [b] = [] := by simp [declared, hb]
    rw [hdeclared, List.append_nil, Except.ok.injEq, eq_comm]
    simp
  | some kind =>
    have hdeclared : declared [b] = [(b.name, kind)] := by simp [declared, hb]
    have htaken : ((names.lookup b.name).isSome || isScalarName b.name) = true ↔
        ¬ (b.name ∉ names.map Prod.fst ∧ isScalarName b.name = false) := by
      rw [Bool.or_eq_true, isSome_lookup_iff, not_and_or, not_not, Bool.not_eq_false]
    rw [hdeclared, List.map_singleton, List.forall_mem_singleton]
    by_cases hfree : b.name ∉ names.map Prod.fst ∧ isScalarName b.name = false
    · simp only [if_neg (mt htaken.mp (not_not.mpr hfree)), Except.ok.injEq]
      exact ⟨fun h => ⟨hfree, h.symm⟩, fun h => h.2.symm⟩
    · simp only [if_pos (htaken.mpr hfree)]
      exact iff_of_false (by simp) fun h => hfree h.1

theorem nodup_declared_singleton (b : Block) : ((declared [b]).map Prod.fst).Nodup := by
  rw [map_fst_declared, List.filter_singleton]
  cases b.keyword.isSettings <;> simp

/-- **The table that the blocks are entered into.** -/
theorem enterAll_eq_ok_iff {names names' : Names} {bs : List Block} :
    names.enterAll bs = .ok names' ↔
      names' = names ++ declared bs ∧ ((declared bs).map Prod.fst).Nodup ∧
        ∀ n ∈ (declared bs).map Prod.fst, n ∉ names.map Prod.fst ∧ isScalarName n = false := by
  induction bs generalizing names with
  | nil =>
    rw [enterAll, Except.ok.injEq, eq_comm]
    simp [declared]
  | cons b bs ih =>
    have hsplit : declared (b :: bs) = declared [b] ++ declared bs := by
      rw [← List.singleton_append, declared, List.filterMap_append]
      rfl
    rw [enterAll, hsplit, List.map_append, List.forall_mem_append, List.nodup_append]
    cases henter : names.enter b with
    | error e =>
      refine iff_of_false (by simp) ?_
      rintro ⟨-, -, hfirst, -⟩
      rw [enter_eq_ok_iff.mpr ⟨hfirst, rfl⟩] at henter
      simp at henter
    | ok entered =>
      obtain ⟨hfirst, rfl⟩ := enter_eq_ok_iff.mp henter
      simp only [ih, List.map_append, List.mem_append, not_or, List.append_assoc]
      constructor
      · rintro ⟨rfl, hnodup, hall⟩
        refine ⟨rfl, ⟨nodup_declared_singleton b, hnodup, ?_⟩, hfirst, fun n hn => ?_⟩
        · rintro n hn _ hm rfl
          exact (hall n hm).1.2 hn
        · exact ⟨(hall n hn).1.1, (hall n hn).2⟩
      · rintro ⟨rfl, ⟨-, hnodup, hdisjoint⟩, -, hall⟩
        refine ⟨rfl, hnodup, fun n hn => ⟨⟨(hall n hn).1, fun hm => ?_⟩, (hall n hn).2⟩⟩
        exact hdisjoint n hm n hn rfl

end Names

/-! ## The schema that is put together -/

/-- The field with its type looked up. -/
def FieldDecl.field (names : Names) (f : FieldDecl) : Field :=
  { name := f.name
    type :=
      { name := f.type.name, kind := (names.kindOf f.type).getD .unsupported
        isOptional := f.isOptional, isList := f.isList }
    attributes := f.attributes
    documentation := f.documentation }

theorem FieldDecl.resolve_eq_ok_iff {names : Names} {f : FieldDecl} {field : Field} :
    f.resolve names = .ok field ↔
      (names.kindOf f.type).isSome = true ∧ field = f.field names := by
  rw [FieldDecl.resolve]
  cases hkind : names.kindOf f.type with
  | none => simp
  | some kind => simp [FieldDecl.field, hkind, eq_comm]

theorem FieldDecl.resolveAll_eq_ok_iff {names : Names} {fs : List FieldDecl}
    {fields : List Field} :
    FieldDecl.resolveAll names fs = .ok fields ↔
      (∀ f ∈ fs, (names.kindOf f.type).isSome = true) ∧
        fields = fs.map (FieldDecl.field names) := by
  induction fs generalizing fields with
  | nil =>
    rw [FieldDecl.resolveAll, Except.ok.injEq, eq_comm]
    simp
  | cons f fs ih =>
    rw [FieldDecl.resolveAll, List.forall_mem_cons]
    cases hf : f.resolve names with
    | error e =>
      refine iff_of_false (by simp) ?_
      rintro ⟨⟨hkind, -⟩, -⟩
      rw [FieldDecl.resolve_eq_ok_iff.mpr ⟨hkind, rfl⟩] at hf
      simp at hf
    | ok field =>
      obtain ⟨hkind, rfl⟩ := FieldDecl.resolve_eq_ok_iff.mp hf
      simp only [map_eq_ok_iff, ih]
      constructor
      · rintro ⟨rest, ⟨hrest, rfl⟩, rfl⟩
        exact ⟨⟨hkind, hrest⟩, rfl⟩
      · rintro ⟨⟨-, hrest⟩, rfl⟩
        exact ⟨_, ⟨hrest, rfl⟩, rfl⟩

namespace Block

variable {b : Block}

theorem typedFields_eq_fields (h : b.keyword = .model ∨ b.keyword = .view ∨ b.keyword = .type) :
    b.typedFields = b.fields := by
  rw [typedFields]
  rcases h with h | h | h <;> rw [h]

theorem mem_fields_of_mem_typedFields {f : FieldDecl} (h : f ∈ b.typedFields) : f ∈ b.fields := by
  rw [typedFields] at h
  split at h
  · exact h
  · exact h
  · exact h
  · simp at h
  · simp at h
  · simp at h

/-- The fields of the block with their types looked up. -/
def resolved (names : Names) (b : Block) : List Field :=
  b.fields.map (FieldDecl.field names)

/-- The model that the block declares, if it is one. -/
def model? (names : Names) (b : Block) : Option Model :=
  if b.keyword = .model then
    some { name := b.name, fields := b.resolved names, attributes := b.attributes,
           documentation := b.documentation }
  else none

/-- The enum that the block declares, if it is one. -/
def enum? (b : Block) : Option Enum :=
  if b.keyword = .enum then some { name := b.name, values := b.values } else none

/-- The composite type that the block declares, if it is one. -/
def compositeType? (names : Names) (b : Block) : Option CompositeType :=
  if b.keyword = .type then some { name := b.name, fields := b.resolved names } else none

end Block

namespace Schema

/-- What the blocks declare, with all types looked up. -/
def assemble (names : Names) (bs : List Block) : Schema :=
  { models := bs.filterMap (Block.model? names)
    enums := bs.filterMap Block.enum?
    compositeTypes := bs.filterMap (Block.compositeType? names) }

/-- What is put together depends on the table only through the kinds of the types that are looked
up. -/
theorem assemble_congr {names names' : Names} {bs : List Block}
    (h : ∀ b ∈ bs, ∀ f ∈ b.typedFields, names.kindOf f.type = names'.kindOf f.type) :
    assemble names bs = assemble names' bs := by
  have hresolved : ∀ b ∈ bs, b.keyword = .model ∨ b.keyword = .view ∨ b.keyword = .type →
      b.resolved names = b.resolved names' := by
    intro b hb hk
    refine List.map_congr_left fun f hf => ?_
    rw [FieldDecl.field, FieldDecl.field, h b hb f (by rwa [Block.typedFields_eq_fields hk])]
  rw [assemble, assemble, mk.injEq]
  refine ⟨List.filterMap_congr fun b hb => ?_, rfl, List.filterMap_congr fun b hb => ?_⟩
  · unfold Block.model?
    split
    · next hk => rw [hresolved b hb (Or.inl hk)]
    · rfl
  · unfold Block.compositeType?
    split
    · next hk => rw [hresolved b hb (Or.inr (Or.inr hk))]
    · rfl

theorem consBlock_assemble (names : Names) (b : Block) (bs : List Block) :
    consBlock b (b.typedFields.map (FieldDecl.field names)) (assemble names bs) =
      assemble names (b :: bs) := by
  rw [consBlock]
  cases hk : b.keyword <;>
    simp [assemble, Block.model?, Block.enum?, Block.compositeType?, Block.resolved,
      Block.typedFields, hk]

theorem ofBlocksIn_eq_ok_iff {names : Names} {bs : List Block} {s : Schema} :
    ofBlocksIn names bs = .ok s ↔
      (∀ b ∈ bs, ∀ f ∈ b.typedFields, (names.kindOf f.type).isSome = true) ∧
        s = assemble names bs := by
  induction bs generalizing s with
  | nil =>
    rw [ofBlocksIn, Except.ok.injEq, eq_comm]
    simp [assemble]
  | cons b bs ih =>
    rw [ofBlocksIn, List.forall_mem_cons]
    cases hb : FieldDecl.resolveAll names b.typedFields with
    | error e =>
      refine iff_of_false (by simp) ?_
      rintro ⟨⟨hkinds, -⟩, -⟩
      rw [FieldDecl.resolveAll_eq_ok_iff.mpr ⟨hkinds, rfl⟩] at hb
      simp at hb
    | ok fields =>
      obtain ⟨hkinds, rfl⟩ := FieldDecl.resolveAll_eq_ok_iff.mp hb
      simp only [map_eq_ok_iff, ih]
      constructor
      · rintro ⟨rest, ⟨hrest, rfl⟩, rfl⟩
        exact ⟨⟨hkinds, hrest⟩, consBlock_assemble names b bs⟩
      · rintro ⟨⟨-, hrest⟩, rfl⟩
        exact ⟨_, ⟨hrest, rfl⟩, consBlock_assemble names b bs⟩

/-- Whether the types of the blocks can be looked up. -/
structure IsResolvable (bs : List Block) : Prop where
  nodup : ((declared bs).map Prod.fst).Nodup
  notScalar : ∀ n ∈ (declared bs).map Prod.fst, isScalarName n = false
  known : ∀ b ∈ bs, ∀ f ∈ b.typedFields, ((declared bs).kindOf f.type).isSome = true

/-- **The second pass.** -/
theorem ofBlocks_eq_ok_iff {bs : List Block} {s : Schema} :
    ofBlocks bs = .ok s ↔ IsResolvable bs ∧ s = assemble (declared bs) bs := by
  have hnames : ∀ names, Names.enterAll [] bs = .ok names ↔ names = declared bs ∧
      ((declared bs).map Prod.fst).Nodup ∧
        ∀ n ∈ (declared bs).map Prod.fst, isScalarName n = false := by
    intro names
    simp [Names.enterAll_eq_ok_iff]
  rw [ofBlocks]
  cases henter : Names.enterAll [] bs with
  | error e =>
    refine iff_of_false (by simp) ?_
    rintro ⟨⟨hnodup, hscalar, -⟩, -⟩
    rw [(hnames _).mpr ⟨rfl, hnodup, hscalar⟩] at henter
    simp at henter
  | ok names =>
    obtain ⟨rfl, hnodup, hscalar⟩ := (hnames _).mp henter
    simp only [ofBlocksIn_eq_ok_iff]
    constructor
    · rintro ⟨hknown, rfl⟩
      exact ⟨⟨hnodup, hscalar, hknown⟩, rfl⟩
    · rintro ⟨⟨-, -, hknown⟩, rfl⟩
      exact ⟨hknown, rfl⟩

end Schema

/-- A type is known if it is unsupported, built in or declared. -/
theorem Names.isSome_kindOf_iff {names : Names} {t : TypeExpr} :
    (names.kindOf t).isSome = true ↔
      (∃ raw, t = .unsupported raw) ∨
        ∃ n, t = .named n ∧ (isScalarName n = true ∨ n ∈ names.map Prod.fst) := by
  cases t with
  | unsupported raw => simp [Names.kindOf]
  | named n =>
    rw [Names.kindOf]
    split
    · next hscalar => simp [hscalar]
    · next hscalar =>
      rw [isSome_lookup_iff]
      simp [hscalar]

/-! ## The kind of a type -/

theorem mem_declared_iff {bs : List Block} {n : String} {kind : FieldKind} :
    (n, kind) ∈ declared bs ↔ ∃ b ∈ bs, b.keyword.declares = some kind ∧ b.name = n := by
  rw [declared, List.mem_filterMap]
  constructor
  · rintro ⟨b, hb, h⟩
    obtain ⟨kind', hkind, heq⟩ := Option.map_eq_some_iff.mp h
    obtain ⟨rfl, rfl⟩ := Prod.mk.inj heq
    exact ⟨b, hb, hkind, rfl⟩
  · rintro ⟨b, hb, hkind, rfl⟩
    exact ⟨b, hb, by rw [hkind, Option.map_some]⟩

/-- A declared name stands for a model, an enum or a composite type. -/
theorem Keyword.declares_ne {k : Keyword} {kind : FieldKind} (h : k.declares = some kind) :
    kind ≠ .scalar ∧ kind ≠ .unsupported := by
  cases k <;> cases h <;> decide

/-- A built-in name is a scalar, and every other name is of the kind it was declared as. -/
theorem Names.kindOf_named_eq_some_iff {names : Names} (hnodup : (names.map Prod.fst).Nodup)
    {n : String} {kind : FieldKind} :
    names.kindOf (.named n) = some kind ↔
      isScalarName n = true ∧ kind = .scalar ∨ isScalarName n = false ∧ (n, kind) ∈ names := by
  rw [Names.kindOf]
  split
  · next hscalar => simp [hscalar, eq_comm]
  · next hscalar =>
    rw [Bool.not_eq_true] at hscalar
    rw [Names.lookup_eq_some_iff hnodup]
    simp [hscalar]

namespace Schema.IsResolvable

variable {bs : List Block} {f : FieldDecl} {n : String}

/-- The kinds of the fields of a resolvable block, except for those of unsupported types. -/
theorem kind_eq_iff (h : IsResolvable bs) (hf : f.type = .named n)
    (hknown : ((declared bs).kindOf f.type).isSome = true) (kind : FieldKind) :
    (f.field (declared bs)).type.kind = kind ↔
      isScalarName n = true ∧ kind = .scalar ∨ (n, kind) ∈ declared bs := by
  have hscalar : ∀ kind', (n, kind') ∈ declared bs → isScalarName n = false :=
    fun kind' hmem => h.notScalar n (List.mem_map_of_mem hmem)
  obtain ⟨kind', hkind⟩ := Option.isSome_iff_exists.mp hknown
  have hfield : (f.field (declared bs)).type.kind = kind' := by
    simp [FieldDecl.field, hkind]
  rw [hf] at hkind
  have hiff : kind' = kind ↔ (declared bs).kindOf (.named n) = some kind := by
    rw [hkind, Option.some.injEq]
  rw [hfield, hiff, Names.kindOf_named_eq_some_iff h.nodup]
  constructor
  · rintro (hs | ⟨-, hmem⟩)
    · exact Or.inl hs
    · exact Or.inr hmem
  · rintro (hs | hmem)
    · exact Or.inl hs
    · exact Or.inr ⟨hscalar kind hmem, hmem⟩

/-- A field is of the kind `unsupported` exactly if its type is written so. -/
theorem kind_eq_unsupported_iff (h : IsResolvable bs)
    (hknown : ((declared bs).kindOf f.type).isSome = true) :
    (f.field (declared bs)).type.kind = .unsupported ↔ ∃ raw, f.type = .unsupported raw := by
  cases hf : f.type with
  | unsupported raw => simp [FieldDecl.field, hf, Names.kindOf]
  | named n =>
    rw [h.kind_eq_iff hf hknown]
    refine iff_of_false ?_ (by simp)
    rintro (⟨-, hkind⟩ | hmem)
    · simp at hkind
    · obtain ⟨b, -, hb, -⟩ := mem_declared_iff.mp hmem
      exact (Keyword.declares_ne hb).2 rfl

/-- A field is a scalar exactly if the name of its type is built in. -/
theorem kind_eq_scalar_iff (h : IsResolvable bs) (hf : f.type = .named n)
    (hknown : ((declared bs).kindOf f.type).isSome = true) :
    (f.field (declared bs)).type.kind = .scalar ↔ isScalarName n = true := by
  rw [h.kind_eq_iff hf hknown]
  constructor
  · rintro (⟨hs, -⟩ | hmem)
    · exact hs
    · obtain ⟨b, -, hb, -⟩ := mem_declared_iff.mp hmem
      exact absurd rfl (Keyword.declares_ne hb).1
  · exact fun hs => Or.inl ⟨hs, rfl⟩

/-- A field is of a declared kind exactly if a block declares the name of its type as such. -/
theorem kind_eq_iff_exists (h : IsResolvable bs) (hf : f.type = .named n)
    (hknown : ((declared bs).kindOf f.type).isSome = true) {kind : FieldKind}
    (hkind : kind ≠ .scalar) :
    (f.field (declared bs)).type.kind = kind ↔
      ∃ b ∈ bs, b.keyword.declares = some kind ∧ b.name = n := by
  rw [h.kind_eq_iff hf hknown, mem_declared_iff]
  simp [hkind]

end Schema.IsResolvable

/-! ## Where an error is met -/

namespace Names

theorem enter_eq_error {names : Names} {b : Block} {e : SchemaError}
    (h : names.enter b = .error e) :
    e = .atLine b.line (.duplicateName b.name) ∧ b.keyword.isSettings = false ∧
      (isScalarName b.name = true ∨ b.name ∈ names.map Prod.fst) := by
  rw [enter] at h
  cases hkind : b.keyword.declares with
  | none => simp [hkind] at h
  | some kind =>
    have hsettings : b.keyword.isSettings = false := by
      have := b.keyword.isSome_declares
      rw [hkind] at this
      simpa using this
    simp only [hkind] at h
    split at h
    · next htaken =>
      rw [Bool.or_eq_true, isSome_lookup_iff] at htaken
      exact ⟨(Except.error.inj h).symm, hsettings, htaken.symm⟩
    · simp at h

/-- Entering names stops at the first one that cannot be entered. -/
theorem exists_enter_of_enterAll {names : Names} {bs : List Block} {e : SchemaError}
    (h : names.enterAll bs = .error e) :
    ∃ before b after entered, bs = before ++ b :: after ∧
      names.enterAll before = .ok entered ∧ entered.enter b = .error e := by
  induction bs generalizing names with
  | nil => simp [enterAll] at h
  | cons b bs ih =>
    rw [enterAll] at h
    cases henter : names.enter b with
    | error e' =>
      rw [henter] at h
      exact ⟨[], b, bs, names, rfl, rfl, henter.trans h⟩
    | ok names' =>
      rw [henter] at h
      obtain ⟨before, b', after, entered, rfl, hbefore, hfails⟩ := ih h
      refine ⟨b :: before, b', after, entered, rfl, ?_, hfails⟩
      rw [enterAll, henter]
      exact hbefore

end Names

/-- The error of a field that has no declared type. -/
def FieldDecl.undeclaredError (f : FieldDecl) : SchemaError :=
  .atLine f.line (.undefinedType f.type.name f.name)

/-- Whether the type of the field is unknown to the table. -/
def FieldDecl.isUnknown (names : Names) (f : FieldDecl) : Bool :=
  (names.kindOf f.type).isNone

theorem FieldDecl.find?_of_resolveAll {names : Names} {fs : List FieldDecl} {e : SchemaError}
    (h : resolveAll names fs = .error e) :
    ∃ f, fs.find? (isUnknown names) = some f ∧ e = f.undeclaredError := by
  induction fs with
  | nil => simp [resolveAll] at h
  | cons f fs ih =>
    rw [resolveAll, resolve] at h
    cases hkind : names.kindOf f.type with
    | none =>
      rw [hkind] at h
      exact ⟨f, List.find?_cons_of_pos (by simp [isUnknown, hkind]), (Except.error.inj h).symm⟩
    | some kind =>
      rw [hkind] at h
      rw [List.find?_cons_of_neg (by simp [isUnknown, hkind])]
      exact ih (map_eq_error_iff.mp h)

theorem Schema.find?_of_ofBlocksIn {names : Names} {bs : List Block} {e : SchemaError}
    (h : ofBlocksIn names bs = .error e) :
    ∃ f, (bs.flatMap Block.typedFields).find? (FieldDecl.isUnknown names) = some f ∧
      e = f.undeclaredError := by
  induction bs with
  | nil => simp [ofBlocksIn] at h
  | cons b bs ih =>
    rw [ofBlocksIn] at h
    rw [List.flatMap_cons, List.find?_append]
    cases hfields : FieldDecl.resolveAll names b.typedFields with
    | error e' =>
      rw [hfields] at h
      obtain ⟨f, hfind, rfl⟩ := FieldDecl.find?_of_resolveAll hfields
      rw [hfind]
      exact ⟨f, rfl, (Except.error.inj h).symm⟩
    | ok fields =>
      rw [hfields] at h
      have hknown : b.typedFields.find? (FieldDecl.isUnknown names) = none := by
        refine List.find?_eq_none.mpr fun f hf => ?_
        have := (FieldDecl.resolveAll_eq_ok_iff.mp hfields).1 f hf
        rw [FieldDecl.isUnknown, ← Option.not_isSome, this]
        simp
      rw [hknown, Option.none_or]
      exact ih (map_eq_error_iff.mp h)

/-- **Errors of the second pass.** Each of them is met on the line of a block or of a field. -/
theorem Schema.exists_line_of_ofBlocks {bs : List Block} {e : SchemaError}
    (h : Schema.ofBlocks bs = .error e) :
    ∃ n cause, e = .atLine n cause ∧ ∃ b ∈ bs, n = b.line ∨ ∃ f ∈ b.fields, n = f.line := by
  rw [Schema.ofBlocks] at h
  split at h
  · next e' henter =>
    obtain rfl := Except.error.inj h
    obtain ⟨before, b, after, entered, rfl, -, hfails⟩ := Names.exists_enter_of_enterAll henter
    obtain ⟨rfl, -, -⟩ := Names.enter_eq_error hfails
    exact ⟨b.line, _, rfl, b, List.mem_append_cons_self, Or.inl rfl⟩
  · obtain ⟨f, hfind, rfl⟩ := Schema.find?_of_ofBlocksIn h
    obtain ⟨b, hb, hf⟩ := List.mem_flatMap.mp (List.mem_of_find?_eq_some hfind)
    exact ⟨f.line, _, rfl, b, hb, Or.inr ⟨f, Block.mem_fields_of_mem_typedFields hf, rfl⟩⟩

end SchemaDiagram
