import SchemaDiagram.Proofs.Print.Line

/-!
# Written blocks

What is written line by line is read line by line, and every line is one step of the reader, so what
the reader makes of a written schema is put together from what it makes of a field, of a run of
block attributes, of a value, of a header and of a closing line. The result is exact, line numbers
included: `Schema.blocks` numbers the declarations of a schema as they are written, and
`ofLines_printLines` says that these blocks are read.
-/

namespace SchemaDiagram

/-! ## The blocks of a schema -/

namespace Field

/-- The declaration of a field whose code stands on the given line. -/
def decl (f : Field) (line : Nat) : FieldDecl :=
  f.fieldLine.decl line f.documentation f.attributes

/-- The declarations of fields that are written from the given line on. -/
def decls (line : Nat) : List Field → List FieldDecl
  | [] => []
  | f :: fs =>
    f.decl (line + (documentationLines f.documentation).length) ::
      decls (line + f.printLines.length) fs

end Field

/-- The block of a model that is written from the given line on. -/
def Model.block (line : Nat) (m : Model) : Block :=
  let header := line + (documentationLines m.documentation).length
  { keyword := .model, name := m.name, line := header, documentation := m.documentation
    fields := Field.decls (header + 1) m.fields, attributes := m.attributes }

/-- The block of an enum that is written from the given line on. -/
def Enum.block (line : Nat) (e : Enum) : Block :=
  { keyword := .enum, name := e.name, line, values := e.values }

/-- The block of a composite type that is written from the given line on. -/
def CompositeType.block (line : Nat) (t : CompositeType) : Block :=
  { keyword := .type, name := t.name, line, fields := Field.decls (line + 1) t.fields }

/-- The blocks of several declarations that are written one after the other. -/
def blocksFrom {α : Type} (lines : α → List String) (block : Nat → α → Block) (line : Nat) :
    List α → List Block
  | [] => []
  | a :: as => block line a :: blocksFrom lines block (line + (lines a).length) as

/-- The blocks of a schema as it is written. -/
def Schema.blocks (s : Schema) : List Block :=
  let enums := 1 + (s.models.flatMap Model.printLines).length
  let types := enums + (s.enums.flatMap Enum.printLines).length
  blocksFrom Model.printLines Model.block 1 s.models ++
    blocksFrom Enum.printLines Enum.block enums s.enums ++
    blocksFrom CompositeType.printLines CompositeType.block types s.compositeTypes

/-! ## Reading written lines -/

namespace BlockReader

variable {bs : List Block} {b : Block}

/-! ### Documentation -/

/-- A line of documentation joins those that wait. -/
theorem run_documentationLine (r : BlockReader) (n : Nat) {l : List Char}
    (hl : Text.IsStripped l) :
    r.run n [("/// " ++ String.ofList l).toList] = .ok { r with pending := r.pending ++ [l] } := by
  have htext : ("/// " ++ String.ofList l).toList = '/' :: '/' :: '/' :: ' ' :: l := by
    simp [String.toList_append]
  have hstrip : Text.strip (' ' :: l) = l :=
    Text.strip_gap_append Text.isGap_space hl
  have hlayout : r.stepLayout (SourceLine.ofText ('/' :: '/' :: '/' :: ' ' :: l)).comment =
      { r with pending := r.pending ++ [l] } := by
    rw [SourceLine.ofText_documentation, stepLayout, hstrip]
  rw [htext]
  refine run_singleton_eq_ok_iff.mpr ?_
  rw [← hlayout]
  exact .layout (by rw [SourceLine.ofText_documentation])

theorem run_documentationLines {d : Option String} (hd : ∀ t ∈ d, IsDocumentation t) (n : Nat)
    (current : Option Block) :
    BlockReader.run ⟨bs, current, []⟩ n ((documentationLines d).map String.toList) =
      .ok ⟨bs, current, documentationTexts d⟩ := by
  have key : ∀ (ls : List (List Char)) (n : Nat) (pending : List (List Char)),
      (∀ l ∈ ls, Text.IsStripped l) →
        BlockReader.run ⟨bs, current, pending⟩ n
          (ls.map fun l => ("/// " ++ String.ofList l).toList) =
            .ok ⟨bs, current, pending ++ ls⟩ := by
    intro ls
    induction ls with
    | nil => simp
    | cons l ls ih =>
      intro n pending hls
      obtain ⟨hl, hls⟩ := List.forall_mem_cons.mp hls
      have hrest := ih (n + 1) (pending ++ [l]) hls
      rw [List.append_assoc, List.singleton_append] at hrest
      exact run_append_of_ok (run_documentationLine ⟨bs, current, pending⟩ n hl) hrest
  cases d with
  | none => rfl
  | some text =>
    have htexts := key (Text.splitAtFeeds text.toList) n [] fun l hl => ((hd text rfl).2 l hl).1
    rw [List.nil_append] at htexts
    rw [documentationLines, List.map_map]
    simpa [documentationTexts, Function.comp_def] using htexts

/-- What waits is the documentation that was written. -/
theorem documentation_documentationTexts {d : Option String} (hd : ∀ t ∈ d, IsDocumentation t)
    (current : Option Block) : documentation ⟨bs, current, documentationTexts d⟩ = d := by
  cases d with
  | none => rfl
  | some text =>
    have htext : Text.joinLines ((documentationTexts (some text)).map String.ofList) = text := by
      simp [documentationTexts, Text.joinLines_splitAtFeeds]
    rw [documentation]
    simp only [htext]
    rw [if_neg]
    rw [String.isEmpty_iff]
    exact (hd text rfl).1

/-! ### The lines of a body -/

/-- A written line of the body of a block adds its entry. -/
theorem run_entry {code : List Char} {e : Entry} {d : Option String}
    (hd : ∀ t ∈ d, IsDocumentation t) (n : Nat) (hinline : IsInline code)
    (hstripped : Text.IsStripped code) (hne : code ≠ []) (hclose : code ≠ ['}'])
    (hreads : Entry.Reads b.keyword code e) (hadmits : b.Admits e) :
    BlockReader.run ⟨bs, some b, documentationTexts d⟩ n [code] =
      .ok ⟨bs, some (b.add n d e), []⟩ := by
  have hcode := congrArg SourceLine.code (hinline.ofText_eq hstripped)
  have hmove : Move ⟨bs, some b, documentationTexts d⟩ n code
      ⟨bs, some (b.add n (documentation ⟨bs, some b, documentationTexts d⟩) e), []⟩ :=
    .enters rfl (by rwa [hcode]) (by rwa [hcode]) (by rwa [hcode]) hadmits
  rw [documentation_documentationTexts hd] at hmove
  exact run_singleton_eq_ok_iff.mpr hmove

/-- A name does not close a block, and neither does anything that starts with one. -/
theorem ne_close_of_isName {name : List Char} (hname : Text.isName name = true)
    (rest : List Char) : name ++ rest ≠ ['}'] := by
  intro h
  cases name with
  | nil => exact absurd hname (by decide)
  | cons c name =>
    obtain ⟨rfl, -⟩ := List.cons.inj h
    exact absurd (Text.isWord_of_mem_isName hname (List.mem_cons_self ..)) (by decide)

/-- **Reading a written field.** -/
theorem run_field {f : Field} (hf : f.IsWritable) (hk : b.keyword.HasFields)
    (hnew : f.name ∉ b.fields.map FieldDecl.name) (n : Nat) :
    BlockReader.run ⟨bs, some b, []⟩ n (f.printLines.map String.toList) =
      .ok ⟨bs, some { b with
        fields := b.fields ++
          [f.decl (n + (documentationLines f.documentation).length)] }, []⟩ := by
  rw [Field.map_toList_printLines]
  refine run_append_of_ok (run_documentationLines hf.documentation n (some b)) ?_
  have hreads : Entry.Reads b.keyword f.code (.field f.fieldLine f.attributes) :=
    .field hk hf.spells_code
      (Attribute.parseRun_printedRun fun a ha => (hf.attributes a ha).isRegular)
  rw [List.length_map]
  exact run_entry hf.documentation _ hf.isInline_code hf.isStripped_code (by simp [Field.code])
    (ne_close_of_isName hf.isName _) hreads hnew

/-- The fields of a block, one after the other. -/
theorem run_fields {fs : List Field} (hfs : ∀ f ∈ fs, f.IsWritable) (hk : b.keyword.HasFields)
    (hnodup : (b.fields.map FieldDecl.name ++ fs.map Field.name).Nodup) (n : Nat) :
    BlockReader.run ⟨bs, some b, []⟩ n ((fs.flatMap Field.printLines).map String.toList) =
      .ok ⟨bs, some { b with fields := b.fields ++ Field.decls n fs }, []⟩ := by
  induction fs generalizing b n with
  | nil => simp [Field.decls]
  | cons f fs ih =>
    obtain ⟨hf, hfs⟩ := List.forall_mem_cons.mp hfs
    have hnew : f.name ∉ b.fields.map FieldDecl.name := fun hmem =>
      (List.nodup_append.mp hnodup).2.2 _ hmem _ (List.mem_cons_self ..) rfl
    rw [List.flatMap_cons, List.map_append]
    refine run_append_of_ok (run_field hf hk hnew n) ?_
    have hrest := ih (b := { b with
      fields := b.fields ++ [f.decl (n + (documentationLines f.documentation).length)] }) hfs hk
      (by simpa [Field.decl, FieldLine.decl, Field.fieldLine] using hnodup)
      (n + f.printLines.length)
    rw [List.length_map, hrest]
    simp [Field.decls]

/-- The block attributes, each on a line of its own. -/
theorem run_attributes {as : List Attribute} (has : ∀ a ∈ as, a.IsWritable)
    (hk : b.keyword.isSettings = false) (n : Nat) :
    BlockReader.run ⟨bs, some b, []⟩ n ((as.map fun a => "@" ++ a.print).map String.toList) =
      .ok ⟨bs, some { b with attributes := b.attributes ++ as }, []⟩ := by
  induction as generalizing b n with
  | nil => simp
  | cons a as ih =>
    obtain ⟨ha, has⟩ := List.forall_mem_cons.mp has
    have htext : ("@" ++ a.print).toList = '@' :: a.print.toList := by
      simp [String.toList_append]
    have hinline : IsInline ('@' :: a.print.toList) :=
      IsInline.append_left (s := ['@']) ha.isInline_print (by decide)
    have hstripped : Text.IsStripped ('@' :: a.print.toList) :=
      (Text.IsStripped.singleton (by decide)).append ha.isRegular.isStripped_print
    have hreads : Entry.Reads b.keyword ('@' :: a.print.toList) (.attributes [a]) := by
      have hparse := Attribute.parseRun_print ha.isRegular
      rw [Attribute.toList_print] at hparse ⊢
      exact .attributes hk rfl hparse
    have hentry : BlockReader.run ⟨bs, some b, []⟩ n ['@' :: a.print.toList] =
        .ok ⟨bs, some (b.add n none (.attributes [a])), []⟩ :=
      run_entry (d := none) (by simp) n hinline hstripped (by simp) (by simp) hreads trivial
    have hrest := ih (b := { b with attributes := b.attributes ++ [a] }) has hk (n + 1)
    rw [List.map_cons, List.map_cons, htext]
    rw [List.append_assoc, List.singleton_append] at hrest
    exact run_append_of_ok hentry hrest

/-- The values of an enum, each on a line of its own. -/
theorem run_values {vs : List String} (hvs : ∀ v ∈ vs, Text.isName v.toList = true)
    (hk : b.keyword = .enum) (n : Nat) :
    BlockReader.run ⟨bs, some b, []⟩ n (vs.map String.toList) =
      .ok ⟨bs, some { b with values := b.values ++ vs }, []⟩ := by
  induction vs generalizing b n with
  | nil => simp
  | cons v vs ih =>
    obtain ⟨hv, hvs⟩ := List.forall_mem_cons.mp hvs
    have hreads : Entry.Reads b.keyword v.toList (.value v) :=
      .value (v := { name := v, attributes := [] }) hk ⟨hv, rfl, by simp⟩ Attribute.parseRun_nil
    have hclose := ne_close_of_isName hv []
    rw [List.append_nil] at hclose
    have hentry : BlockReader.run ⟨bs, some b, []⟩ n [v.toList] =
        .ok ⟨bs, some (b.add n none (.value v)), []⟩ :=
      run_entry (d := none) (by simp) n (.of_all (all_isQuiet_of_isName hv))
        (Text.isStripped_of_isName hv) (Text.ne_nil_of_isName hv) hclose hreads trivial
    have hrest := ih (b := { b with values := b.values ++ [v] }) hvs hk (n + 1)
    rw [List.append_assoc, List.singleton_append] at hrest
    exact run_append_of_ok hentry hrest

/-! ### Whole blocks -/

/-- The header of a block as it is written. -/
def header (k : Keyword) (name : String) : List Char :=
  k.word.toList ++ ' ' :: (name.toList ++ [' ', '{'])

theorem isName_word (k : Keyword) : Text.isName k.word.toList = true := by
  cases k <;> decide

theorem isAlpha_of_mem_word (k : Keyword) : ∀ c ∈ k.word.toList, c.isAlpha = true := by
  rw [← List.all_eq_true]
  cases k <;> decide

theorem spells_header (k : Keyword) {name : String} (hname : Text.isName name.toList = true) :
    HeaderLine.Spells ⟨k.word, name, false⟩ (header k name) := by
  refine ⟨?_, isAlpha_of_mem_word k, hname, [' '], [' '], [], by simp, Text.isGap_space,
    Text.isGap_space, Text.isGap_nil, rfl⟩
  exact fun hempty => Text.ne_nil_of_isName (isName_word k) (String.toList_eq_nil_iff.mpr hempty)

theorem isInline_header (k : Keyword) {name : String} (hname : Text.isName name.toList = true) :
    IsInline (header k name) := by
  have hend : IsInline (name.toList ++ [' ', '{']) :=
    IsInline.append_left (.of_all (by decide)) (all_isQuiet_of_isName hname)
  exact (hend.append_left (s := [' ']) (by decide)).append_left
    (all_isQuiet_of_isName (isName_word k))

theorem isStripped_header (k : Keyword) {name : String} (hname : Text.isName name.toList = true) :
    Text.IsStripped (header k name) := by
  have hbrace : Text.IsStripped (name.toList ++ ' ' :: ['{']) :=
    (Text.isStripped_of_isName hname).append_cons (.singleton (by decide))
      (Text.ne_nil_of_isName hname) (by simp) ' '
  exact (Text.isStripped_of_isName (isName_word k)).append_cons hbrace
    (Text.ne_nil_of_isName (isName_word k)) (by simp) ' '

theorem map_toList_blockLines (k : Keyword) (name : String) (body : List String) :
    (blockLines k name body).map String.toList =
      [header k name] ++ (body.map String.toList ++ [['}']]) := by
  simp [blockLines, header, String.toList_append]

/-- **Reading a written block**, whose body is read with the block open. -/
theorem run_block {k : Keyword} {name : String} {d : Option String} {body : List String}
    {b : Block} (hname : Text.isName name.toList = true) (hd : ∀ t ∈ d, IsDocumentation t) (n : Nat)
    (hbody : BlockReader.run
      ⟨bs, some (Block.opened k name (n + (documentationLines d).length) d), []⟩
        (n + (documentationLines d).length + 1) (body.map String.toList) =
          .ok ⟨bs, some b, []⟩) :
    BlockReader.run ⟨bs, none, []⟩ n
      ((documentationLines d ++ blockLines k name body).map String.toList) =
        .ok ⟨bs ++ [b], none, []⟩ := by
  have hcode := congrArg SourceLine.code
    ((isInline_header k hname).ofText_eq (isStripped_header k hname))
  have hopens : Move ⟨bs, none, documentationTexts d⟩ (n + (documentationLines d).length)
      (header k name) ⟨bs, some (Block.opened k name (n + (documentationLines d).length)
        (documentation ⟨bs, none, documentationTexts d⟩)), []⟩ :=
    .opens rfl (by rw [hcode]; exact spells_header k hname)
  rw [documentation_documentationTexts hd] at hopens
  have hcloses : ∀ m, BlockReader.run ⟨bs, some b, []⟩ m [['}']] = .ok ⟨bs ++ [b], none, []⟩ :=
    fun m => run_singleton_eq_ok_iff.mpr (.closes rfl (by decide))
  rw [List.map_append, map_toList_blockLines]
  refine run_append_of_ok (run_documentationLines hd n none) ?_
  rw [List.length_map]
  exact run_append_of_ok (run_singleton_eq_ok_iff.mpr hopens)
    (run_append_of_ok hbody (hcloses _))

/-- Several declarations, one after the other. -/
theorem run_blocksFrom {α : Type} {lines : α → List String} {block : Nat → α → Block} {as : List α}
    (h : ∀ a ∈ as, ∀ n bs, BlockReader.run ⟨bs, none, []⟩ n ((lines a).map String.toList) =
      .ok ⟨bs ++ [block n a], none, []⟩) (n : Nat) (bs : List Block) :
    BlockReader.run ⟨bs, none, []⟩ n ((as.flatMap lines).map String.toList) =
      .ok ⟨bs ++ blocksFrom lines block n as, none, []⟩ := by
  induction as generalizing n bs with
  | nil => simp [blocksFrom]
  | cons a as ih =>
    obtain ⟨ha, has⟩ := List.forall_mem_cons.mp h
    have hrest := ih has (n + (lines a).length) (bs ++ [block n a])
    rw [List.append_assoc, List.singleton_append] at hrest
    rw [List.flatMap_cons, List.map_append]
    refine run_append_of_ok (ha n bs) ?_
    rw [List.length_map]
    exact hrest

end BlockReader

/-! ## Reading a written schema -/

open BlockReader

theorem Model.run_printLines (m : Model) (hm : m.IsWritable) (n : Nat) (bs : List Block) :
    BlockReader.run ⟨bs, none, []⟩ n (m.printLines.map String.toList) =
      .ok ⟨bs ++ [m.block n], none, []⟩ := by
  refine run_block hm.isName hm.documentation n ?_
  rw [List.map_append]
  refine run_append_of_ok (run_fields hm.fields.forall_mem (Or.inl rfl) ?_ _) ?_
  · simpa [Block.opened] using hm.fields.nodup
  · exact run_attributes hm.attributes rfl _

theorem Enum.run_printLines (e : Enum) (he : e.IsWritable) (n : Nat) (bs : List Block) :
    BlockReader.run ⟨bs, none, []⟩ n (e.printLines.map String.toList) =
      .ok ⟨bs ++ [e.block n], none, []⟩ :=
  run_block (d := none) he.isName (by simp) n (run_values he.values rfl _)

theorem CompositeType.run_printLines (t : CompositeType) (ht : t.IsWritable) (n : Nat)
    (bs : List Block) :
    BlockReader.run ⟨bs, none, []⟩ n (t.printLines.map String.toList) =
      .ok ⟨bs ++ [t.block n], none, []⟩ := by
  refine run_block (d := none) ht.isName (by simp) n ?_
  refine run_fields ht.fields.forall_mem (Or.inr (Or.inr rfl)) ?_ _
  simpa [Block.opened] using ht.fields.nodup

/-- **The blocks of a written schema.** -/
theorem Schema.ofLines_printLines {s : Schema} (hs : s.IsWritable) :
    Block.ofLines (s.printLines.map String.toList) = .ok s.blocks := by
  have hmodels := run_blocksFrom (fun m hm => Model.run_printLines m (hs.models m hm)) 1 []
  rw [List.nil_append] at hmodels
  have henums := run_blocksFrom (fun e he => Enum.run_printLines e (hs.enums e he))
    (1 + (s.models.flatMap Model.printLines).length)
    (blocksFrom Model.printLines Model.block 1 s.models)
  have hfront : BlockReader.run {} 1 ((s.models.flatMap Model.printLines).map String.toList ++
      (s.enums.flatMap Enum.printLines).map String.toList) = .ok _ :=
    run_append_of_ok hmodels (by rw [List.length_map]; exact henums)
  have htypes := run_blocksFrom
    (fun t ht => CompositeType.run_printLines t (hs.compositeTypes t ht))
    (1 + (s.models.flatMap Model.printLines).length + (s.enums.flatMap Enum.printLines).length)
    (blocksFrom Model.printLines Model.block 1 s.models ++
      blocksFrom Enum.printLines Enum.block (1 + (s.models.flatMap Model.printLines).length)
        s.enums)
  refine Block.ofLines_eq_ok_iff.mpr ⟨[], ?_⟩
  rw [printLines, List.map_append, List.map_append]
  refine run_append_of_ok hfront ?_
  rw [List.length_append, List.length_map, List.length_map, ← Nat.add_assoc]
  exact htypes

end SchemaDiagram
