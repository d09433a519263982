import SchemaDiagram.Proofs.Invariant
import SchemaDiagram.Proofs.Print.Block

/-!
# Writing and reading a schema

A well-formed schema is read back from the text it is written as, and no other schema is
(`Schema.parse_print_iff`). One direction follows the written lines through both passes. The other
one goes back from the result: what is returned is writable, so the text was read as the blocks of
the schema, and then it is only left to see what the second pass makes of them.
-/

namespace SchemaDiagram

/-! ## The text of a schema -/

/-- A line that stays one line, and with which a text may start. -/
def IsPrintedLine (l : String) : Prop :=
  Text.IsOneLine l.toList ∧ ∀ c ∈ l.toList.head?, c ≠ Text.byteOrderMark

theorem isPrintedLine_documentationLines {d : Option String} (hd : ∀ t ∈ d, IsDocumentation t) :
    ∀ l ∈ documentationLines d, IsPrintedLine l := by
  intro l hl
  cases d with
  | none => simp [documentationLines] at hl
  | some text =>
    obtain ⟨piece, hpiece, rfl⟩ := List.mem_map.mp hl
    have hone := ((hd text rfl).2 piece hpiece).2
    have hline : ("/// " ++ String.ofList piece).toList = '/' :: '/' :: '/' :: ' ' :: piece := by
      simp [String.toList_append]
    rw [IsPrintedLine, hline]
    refine ⟨?_, by simp [Text.byteOrderMark]⟩
    simp only [Text.isOneLine_cons]
    exact ⟨by decide, by decide, by decide, by decide, hone⟩

/-- A name does not start with a mark. -/
theorem head?_ne_mark_of_isName {name : List Char} (hname : Text.isName name = true)
    (rest : List Char) :
    ∀ c ∈ (name ++ rest).head?, c ≠ Text.byteOrderMark := by
  rintro c hc rfl
  rw [List.head?_append_of_ne_nil _ (Text.ne_nil_of_isName hname)] at hc
  exact absurd (Text.isWord_of_mem_isName hname (List.mem_of_head? hc)) (by decide +kernel)

theorem Field.IsWritable.isPrintedLine {f : Field} (hf : f.IsWritable) :
    ∀ l ∈ f.printLines, IsPrintedLine l := by
  intro l hl
  have hmem := List.mem_map_of_mem (f := String.toList) hl
  rw [Field.map_toList_printLines, List.mem_append, List.mem_singleton] at hmem
  rcases hmem with hmem | hcode
  · obtain ⟨m, hm, heq⟩ := List.mem_map.mp hmem
    rw [← String.toList_inj.mp heq]
    exact isPrintedLine_documentationLines hf.documentation m hm
  · rw [IsPrintedLine, hcode]
    exact ⟨hf.isInline_code.fits.1, head?_ne_mark_of_isName hf.isName _⟩

theorem isPrintedLine_blockLines {k : Keyword} {name : String} {body : List String}
    (hname : Text.isName name.toList = true) (hbody : ∀ l ∈ body, IsPrintedLine l) :
    ∀ l ∈ blockLines k name body, IsPrintedLine l := by
  intro l hl
  rw [blockLines, List.cons_append, List.mem_cons, List.mem_append, List.mem_singleton] at hl
  rcases hl with rfl | hl | rfl
  · have hheader : (k.word ++ " " ++ name ++ " \x7b").toList = BlockReader.header k name := by
      simp [BlockReader.header, String.toList_append]
    rw [IsPrintedLine, hheader]
    exact ⟨(BlockReader.isInline_header k hname).fits.1,
      head?_ne_mark_of_isName (BlockReader.isName_word k) _⟩
  · exact hbody l hl
  · exact ⟨Text.isOneLine_cons.mpr ⟨by decide, Text.isOneLine_nil⟩, by simp [Text.byteOrderMark]⟩

theorem Field.AreWritable.isPrintedLine {fs : List Field} (hfs : AreWritable fs) :
    ∀ l ∈ fs.flatMap Field.printLines, IsPrintedLine l := by
  intro l hl
  obtain ⟨f, hf, hl⟩ := List.mem_flatMap.mp hl
  exact (hfs.forall_mem f hf).isPrintedLine l hl

theorem Attribute.IsWritable.isPrintedLine {a : Attribute} (ha : a.IsWritable) :
    IsPrintedLine ("@" ++ a.print) := by
  have hline : ("@" ++ a.print).toList = '@' :: a.print.toList := by simp [String.toList_append]
  rw [IsPrintedLine, hline, Text.isOneLine_cons]
  refine ⟨⟨by decide, ha.isInline_print.fits.1⟩, ?_⟩
  simp [Text.byteOrderMark]

/-- The lines of a writable schema are read back as they are. -/
theorem Schema.IsWritable.isPrintedLine {s : Schema} (hs : s.IsWritable) :
    ∀ l ∈ s.printLines, IsPrintedLine l := by
  intro l hl
  rw [printLines, List.mem_append, List.mem_append] at hl
  rcases hl with (hl | hl) | hl
  · obtain ⟨m, hm, hl⟩ := List.mem_flatMap.mp hl
    have hm := hs.models m hm
    rcases List.mem_append.mp hl with hl | hl
    · exact isPrintedLine_documentationLines hm.documentation l hl
    · refine isPrintedLine_blockLines hm.isName (fun l hl => ?_) l hl
      rcases List.mem_append.mp hl with hl | hl
      · exact hm.fields.isPrintedLine l hl
      · obtain ⟨a, ha, rfl⟩ := List.mem_map.mp hl
        exact (hm.attributes a ha).isPrintedLine
  · obtain ⟨e, he, hl⟩ := List.mem_flatMap.mp hl
    have he := hs.enums e he
    refine isPrintedLine_blockLines he.isName (fun v hv => ?_) l hl
    have hhead := head?_ne_mark_of_isName (he.values v hv) []
    rw [List.append_nil] at hhead
    exact ⟨Text.isOneLine_of_isName (he.values v hv), hhead⟩
  · obtain ⟨t, ht, hl⟩ := List.mem_flatMap.mp hl
    have ht := hs.compositeTypes t ht
    exact isPrintedLine_blockLines ht.isName ht.fields.isPrintedLine l hl

theorem dropMark_endLines {ls : List String} (h : ∀ l ∈ ls, IsPrintedLine l) :
    Text.dropMark (Text.endLines ls).toList = (Text.endLines ls).toList := by
  cases ls with
  | nil => rfl
  | cons l ls =>
    have hhead := (h l (List.mem_cons_self ..)).2
    have htext : (Text.endLines (l :: ls)).toList =
        l.toList ++ '\n' :: (Text.endLines ls).toList := by
      simp [Text.endLines_cons, String.toList_append]
    rw [htext]
    cases hl : l.toList with
    | nil => rfl
    | cons c rest =>
      rw [hl] at hhead
      rw [List.cons_append, Text.dropMark_cons, if_neg (hhead c rfl)]

/-- **What is left of reading a written schema** is its second pass. -/
theorem Schema.IsWritable.parse_print {s : Schema} (hs : s.IsWritable) :
    parse s.print = ofBlocks s.blocks := by
  have hlines := Text.lines_endLines fun l hl => (hs.isPrintedLine l hl).1
  rw [parse, parseChars, print, dropMark_endLines hs.isPrintedLine, hlines, ofLines_printLines hs]

/-! ## The second pass over a written schema -/

/-- The field with its type looked up again. -/
def Field.lookUp (names : Names) (f : Field) : Field :=
  { f with type :=
      { f.type with kind := (names.kindOf f.type.expr).getD .unsupported } }

/-- The model with the types of its fields looked up again. -/
def Model.lookUp (names : Names) (m : Model) : Model :=
  { m with fields := m.fields.map (Field.lookUp names) }

/-- The composite type with the types of its fields looked up again. -/
def CompositeType.lookUp (names : Names) (t : CompositeType) : CompositeType :=
  { t with fields := t.fields.map (Field.lookUp names) }

/-- The schema with all types looked up again. -/
def Schema.lookUp (names : Names) (s : Schema) : Schema :=
  { models := s.models.map (Model.lookUp names), enums := s.enums
    compositeTypes := s.compositeTypes.map (CompositeType.lookUp names) }

theorem Field.map_field_decls (names : Names) (line : Nat) (fs : List Field) :
    (decls line fs).map (FieldDecl.field names) = fs.map (Field.lookUp names) := by
  induction fs generalizing line with
  | nil => rfl
  | cons f fs ih =>
    rw [decls, List.map_cons, List.map_cons, ih]
    simp [decl, FieldLine.decl, fieldLine, FieldDecl.field, lookUp]

theorem Field.type_of_mem_decls {line : Nat} {fs : List Field} {d : FieldDecl}
    (h : d ∈ decls line fs) : ∃ f ∈ fs, d.type = f.type.expr := by
  induction fs generalizing line with
  | nil => simp [decls] at h
  | cons f fs ih =>
    rw [decls, List.mem_cons] at h
    rcases h with rfl | h
    · exact ⟨f, List.mem_cons_self .., rfl⟩
    · obtain ⟨g, hg, htype⟩ := ih h
      exact ⟨g, List.mem_cons_of_mem _ hg, htype⟩

section

variable {α β : Type} {lines : α → List String} {block : Nat → α → Block}

theorem mem_blocksFrom {line : Nat} {as : List α} {b : Block}
    (h : b ∈ blocksFrom lines block line as) : ∃ a ∈ as, ∃ n, b = block n a := by
  induction as generalizing line with
  | nil => simp [blocksFrom] at h
  | cons a as ih =>
    rw [blocksFrom, List.mem_cons] at h
    rcases h with rfl | h
    · exact ⟨a, List.mem_cons_self .., line, rfl⟩
    · obtain ⟨a', ha', hn⟩ := ih h
      exact ⟨a', List.mem_cons_of_mem _ ha', hn⟩

/-- What is taken from blocks does not depend on where they are written. -/
theorem filterMap_blocksFrom {g : Block → Option β} {g' : α → Option β}
    (h : ∀ n a, g (block n a) = g' a) (line : Nat) (as : List α) :
    (blocksFrom lines block line as).filterMap g = as.filterMap g' := by
  induction as generalizing line with
  | nil => rfl
  | cons a as ih => rw [blocksFrom, List.filterMap_cons, List.filterMap_cons, h, ih]

end

namespace Schema

variable {s : Schema}

/-- What is taken from the blocks of a schema is taken from its declarations. -/
theorem filterMap_blocks {β : Type} {g : Block → Option β} (models : Model → Option β)
    (enums : Enum → Option β) (types : CompositeType → Option β)
    (hmodels : ∀ n m, g (Model.block n m) = models m) (henums : ∀ n e, g (Enum.block n e) = enums e)
    (htypes : ∀ n t, g (CompositeType.block n t) = types t) (s : Schema) :
    s.blocks.filterMap g =
      s.models.filterMap models ++ s.enums.filterMap enums ++ s.compositeTypes.filterMap types := by
  rw [blocks, List.filterMap_append, List.filterMap_append, filterMap_blocksFrom hmodels,
    filterMap_blocksFrom henums, filterMap_blocksFrom htypes]

theorem declared_blocks (s : Schema) : declared s.blocks = s.names := by
  rw [declared, filterMap_blocks (fun m => some (m.name, .model))
    (fun e => some (e.name, .enum)) (fun t => some (t.name, .composite)) (fun _ _ => rfl)
    (fun _ _ => rfl) (fun _ _ => rfl), names]
  simp only [List.filterMap_eq_map']

theorem assemble_blocks (names : Names) (s : Schema) :
    assemble names s.blocks = s.lookUp names := by
  have hmodels : s.blocks.filterMap (Block.model? names) = s.models.map (Model.lookUp names) := by
    rw [filterMap_blocks (fun m => some (m.lookUp names)) (fun _ => none) (fun _ => none)
      (fun n m => ?_) (fun _ _ => rfl) (fun _ _ => rfl)]
    · simp [List.filterMap_eq_map']
    · simp [Block.model?, Model.block, Model.lookUp, Block.resolved, Field.map_field_decls]
  have henums : s.blocks.filterMap Block.enum? = s.enums := by
    rw [filterMap_blocks (fun _ => none) some (fun _ => none) (fun _ _ => rfl) (fun _ _ => rfl)
      (fun _ _ => rfl)]
    simp
  have htypes : s.blocks.filterMap (Block.compositeType? names) =
      s.compositeTypes.map (CompositeType.lookUp names) := by
    rw [filterMap_blocks (fun _ => none) (fun _ => none) (fun t => some (t.lookUp names))
      (fun _ _ => rfl) (fun _ _ => rfl) (fun n t => ?_)]
    · simp [List.filterMap_eq_map']
    · simp [Block.compositeType?, CompositeType.block, CompositeType.lookUp, Block.resolved,
        Field.map_field_decls]
  rw [assemble, hmodels, henums, htypes, lookUp]

/-- The types of the blocks of a schema are those of its fields. -/
theorem exists_field_of_mem_blocks {b : Block} (hb : b ∈ s.blocks) {d : FieldDecl}
    (hd : d ∈ b.typedFields) : ∃ f ∈ s.fields, d.type = f.type.expr := by
  have hd := Block.mem_fields_of_mem_typedFields hd
  rw [blocks, List.mem_append, List.mem_append] at hb
  rcases hb with (hb | hb) | hb
  · obtain ⟨m, hm, n, rfl⟩ := mem_blocksFrom hb
    obtain ⟨f, hf, htype⟩ := Field.type_of_mem_decls hd
    exact ⟨f, List.mem_append_left _ (List.mem_flatMap.mpr ⟨m, hm, hf⟩), htype⟩
  · obtain ⟨e, -, n, rfl⟩ := mem_blocksFrom hb
    simp [Enum.block] at hd
  · obtain ⟨t, ht, n, rfl⟩ := mem_blocksFrom hb
    obtain ⟨f, hf, htype⟩ := Field.type_of_mem_decls hd
    exact ⟨f, List.mem_append_right _ (List.mem_flatMap.mpr ⟨t, ht, hf⟩), htype⟩

theorem map_eq_self_iff {α : Type} {g : α → α} {as : List α} :
    as.map g = as ↔ ∀ a ∈ as, g a = a := by
  induction as with
  | nil => simp
  | cons a as ih => rw [List.map_cons, List.cons.injEq, ih, List.forall_mem_cons]

/-- Looking the types up again changes nothing exactly if it changes no field. -/
theorem lookUp_eq_self_iff {names : Names} :
    s.lookUp names = s ↔ ∀ f ∈ s.fields, f.lookUp names = f := by
  have hmodel : ∀ m : Model, m.lookUp names = m ↔ ∀ f ∈ m.fields, f.lookUp names = f := by
    rintro ⟨name, fields, attributes, documentation⟩
    simp [Model.lookUp, map_eq_self_iff]
  have htype : ∀ t : CompositeType, t.lookUp names = t ↔ ∀ f ∈ t.fields, f.lookUp names = f := by
    rintro ⟨name, fields⟩
    simp [CompositeType.lookUp, map_eq_self_iff]
  have hparts : s.lookUp names = s ↔
      (∀ m ∈ s.models, m.lookUp names = m) ∧ ∀ t ∈ s.compositeTypes, t.lookUp names = t := by
    rw [← map_eq_self_iff, ← map_eq_self_iff]
    obtain ⟨models, enums, types⟩ := s
    simp [lookUp]
  simp only [hparts, hmodel, htype, fields, List.forall_mem_append, List.mem_flatMap,
    forall_exists_index, and_imp]
  constructor
  · rintro ⟨hmodels, htypes⟩
    exact ⟨fun f m hm hf => hmodels m hm f hf, fun f t ht hf => htypes t ht f hf⟩
  · rintro ⟨hmodels, htypes⟩
    exact ⟨fun m hm f hf => hmodels f m hm hf, fun t ht f hf => htypes f t ht hf⟩

/-- A field is of the right kind if its type is unsupported or stands for its kind. -/
theorem lookUp_field_eq_self_iff {names : Names} {f : Field} :
    f.lookUp names = f ↔ (f.type.kind ≠ .unsupported →
      names.kindOf (.named f.type.name) = some f.type.kind) := by
  have hkind : f.lookUp names = f ↔
      (names.kindOf f.type.expr).getD .unsupported = f.type.kind := by
    obtain ⟨name, ⟨typeName, kind, isOptional, isList⟩, attributes, documentation⟩ := f
    simp [Field.lookUp]
  rw [hkind, FieldType.expr]
  by_cases h : f.type.kind = .unsupported
  · simp [h, Names.kindOf]
  · rw [if_neg h]
    cases hlookup : names.kindOf (.named f.type.name) with
    | none => simp [h, Ne.symm h]
    | some kind => simp [h]

theorem isSome_kindOf_expr {names : Names} {f : Field} (h : f.type.kind ≠ .unsupported →
    names.kindOf (.named f.type.name) = some f.type.kind) :
    (names.kindOf f.type.expr).isSome = true := by
  rw [FieldType.expr]
  by_cases hkind : f.type.kind = .unsupported
  · rw [if_pos hkind]
    rfl
  · rw [if_neg hkind, h hkind]
    rfl

/-- **Writing and reading a schema.** The schemas that are read back from the text they are written
as are the well-formed ones. -/
theorem parse_print_iff (s : Schema) : parse s.print = .ok s ↔ s.IsWellFormed := by
  constructor
  · intro h
    have hwritable := isWritable_of_parse h
    rw [hwritable.parse_print, ofBlocks_eq_ok_iff, declared_blocks, assemble_blocks] at h
    obtain ⟨⟨hnodup, hscalar, -⟩, hself⟩ := h
    rw [declared_blocks] at hnodup hscalar
    refine ⟨hwritable, hnodup, hscalar, fun f hf => ?_⟩
    exact lookUp_field_eq_self_iff.mp (lookUp_eq_self_iff.mp hself.symm f hf)
  · rintro ⟨hwritable, hnodup, hscalar, hkind⟩
    rw [hwritable.parse_print, ofBlocks_eq_ok_iff, declared_blocks, assemble_blocks]
    refine ⟨⟨?_, ?_, ?_⟩, ?_⟩
    · rwa [declared_blocks]
    · rwa [declared_blocks]
    · intro b hb d hd
      obtain ⟨f, hf, htype⟩ := exists_field_of_mem_blocks hb hd
      rw [declared_blocks, htype]
      exact isSome_kindOf_expr (hkind f hf)
    · exact (lookUp_eq_self_iff.mpr fun f hf => lookUp_field_eq_self_iff.mpr (hkind f hf)).symm

end Schema
end SchemaDiagram
