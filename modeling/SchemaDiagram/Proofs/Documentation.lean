import SchemaDiagram.Proofs.Acceptance
import SchemaDiagram.Proofs.Block.Waiting

/-!
# Where documentation comes from

A model, and a field of a model or of a composite type, is declared on one line of the text. Which
one can be said from the lines alone: no block is open above the header of a block (`IsHeaderOf`),
and a field stands behind the header of its block with no closing bracket between them
(`IsFieldOf`). Its documentation is the documentation directly above that line
(`documentationAbove`), and so it comes from no other place of the text.

For this the two descriptions have to meet. Every block that is read, and every field of it, is
declared on such a line. The other way round a line of that form leaves a block or a field behind
with the documentation that stands above the line, and no later line takes either away
(`BlockReader.Keeps`). Since names are distinct, it is the declaration that was asked for.
-/

namespace SchemaDiagram

variable {texts above below : List (List Char)} {line : List Char} {k : Keyword}
  {block name : String} {bs : List Block} {b c : Block}

/-! ## The line of a declaration -/

/-- Whether the line, which stands below the given ones, is the header of a block. -/
def IsHeaderOf (k : Keyword) (name : String) (above : List (List Char)) (line : List Char) : Prop :=
  EndsOutside above ∧
    ∃ isClosed, HeaderLine.Spells ⟨k.word, name, isClosed⟩ (SourceLine.ofText line).code

/-- Whether the block is open below the given lines: one of them is its header, and none behind it
is a bracket that closes a block. -/
def IsOpenBelow (k : Keyword) (name : String) (above : List (List Char)) : Prop :=
  ∃ before header body, above = before ++ header :: body ∧ EndsOutside before ∧
    HeaderLine.Spells ⟨k.word, name, false⟩ (SourceLine.ofText header).code ∧
    ∀ text ∈ body, IsInside text

/-- Whether the line, which stands below the given ones, declares a field of the block. -/
def IsFieldOf (k : Keyword) (block name : String) (above : List (List Char)) (line : List Char) :
    Prop :=
  IsOpenBelow k block above ∧
    ∃ written : FieldLine, written.Spells (SourceLine.ofText line).code ∧ written.name = name

/-- Whether some line of the text declares what is asked for. -/
def IsDeclaredIn (texts : List (List Char)) (declares : List (List Char) → List Char → Prop) :
    Prop :=
  ∃ above line below, texts = above ++ line :: below ∧ declares above line

/-- Whether the text is the documentation directly above the line that declares what is asked for,
and there is such a line. -/
def IsDocumentedBy (texts : List (List Char)) (declares : List (List Char) → List Char → Prop)
    (documentation : Option String) : Prop :=
  IsDeclaredIn texts declares ∧ ∀ above line below, texts = above ++ line :: below →
    declares above line → documentation = documentationAbove above

theorem IsDeclaredIn.snoc {declares : List (List Char) → List Char → Prop}
    (h : IsDeclaredIn texts declares) (text : List Char) :
    IsDeclaredIn (texts ++ [text]) declares := by
  obtain ⟨above, line, below, rfl, hline⟩ := h
  exact ⟨above, line, below ++ [text], by simp, hline⟩

/-! ## Every declaration has a line -/

theorem Block.IsFoundIn.isDeclaredIn (h : b.IsFoundIn texts) :
    IsDeclaredIn texts (IsHeaderOf b.keyword b.name) := by
  obtain ⟨before, part, after, houtside, hlines, -, hpart⟩ := h
  cases hpart with
  | @empty header hspells => exact ⟨before, header, after, hlines, houtside, true, hspells⟩
  | @whole header close body hspells _ _ =>
    exact ⟨before, header, body ++ [close] ++ after, hlines, houtside, false, hspells⟩

/-- Whether every field of the block is declared on one of the lines. -/
def Block.HasFieldsIn (texts : List (List Char)) (b : Block) : Prop :=
  ∀ f ∈ b.fields, IsDeclaredIn texts (IsFieldOf b.keyword b.name f.name)

theorem Block.hasFieldsIn_opened (texts : List (List Char)) (k : Keyword) (name : String) (n : Nat)
    (doc : Option String) : (Block.opened k name n doc).HasFieldsIn texts := by
  intro f hf
  simp [Block.opened] at hf

theorem Block.HasFieldsIn.snoc (h : b.HasFieldsIn texts) (text : List Char) :
    b.HasFieldsIn (texts ++ [text]) :=
  fun f hf => (h f hf).snoc text

/-- An entry of a line below the others adds a field of that line, or none. -/
theorem Block.HasFieldsIn.add (h : b.HasFieldsIn texts) (hopen : IsOpenBelow b.keyword b.name texts)
    {text : List Char} {e : Entry} (hreads : Entry.Reads b.keyword (SourceLine.ofText text).code e)
    (n : Nat) (doc : Option String) : (b.add n doc e).HasFieldsIn (texts ++ [text]) := by
  have hold := h.snoc text
  intro f hf
  rw [add_keyword, add_name]
  cases hreads with
  | @field written as _ hspells _ =>
    rcases List.mem_append.mp hf with hf | hf
    · exact hold f hf
    · rw [List.mem_singleton.mp hf]
      exact ⟨texts, text, [], rfl, hopen, written, hspells, rfl⟩
  | _ => exact hold f hf

namespace BlockReader

variable {r m : BlockReader} {n : Nat} {text : List Char} {p : Block → Prop}

theorem OpenedIn.isOpenBelow (h : OpenedIn above b) : IsOpenBelow b.keyword b.name above := by
  obtain ⟨before, header, body, houtside, hlines, -, hspells, hbody⟩ := h
  exact ⟨before, header, body, hlines, houtside, hspells, hbody⟩

/-- **One more line.** -/
theorem Move.hasFieldsIn (hr : r.Forall (Block.HasFieldsIn texts)) (hwritten : IsWrittenIn texts r)
    (h : Move r n text m) : m.Forall (Block.HasFieldsIn (texts ++ [text])) := by
  have hblocks : ∀ b ∈ r.blocks, b.HasFieldsIn (texts ++ [text]) :=
    fun b hb => (hr.1 b hb).snoc text
  have hcurrent : ∀ b ∈ r.current, b.HasFieldsIn (texts ++ [text]) :=
    fun b hb => (hr.2 b hb).snoc text
  cases h with
  | layout _ => exact ⟨by rwa [blocks_stepLayout], by rwa [current_stepLayout]⟩
  | opens _ _ =>
    refine ⟨hblocks, fun b hb => ?_⟩
    rw [← Option.some.inj hb]
    exact Block.hasFieldsIn_opened _ _ _ _ _
  | empty _ _ =>
    exact ⟨List.forall_mem_append.mpr ⟨hblocks,
      List.forall_mem_singleton.mpr (Block.hasFieldsIn_opened _ _ _ _ _)⟩, by simp⟩
  | @closes b hb _ =>
    exact ⟨List.forall_mem_append.mpr ⟨hblocks, List.forall_mem_singleton.mpr (hcurrent b hb)⟩,
      by simp⟩
  | @enters b e hb _ _ hreads _ =>
    refine ⟨hblocks, fun b' hb' => ?_⟩
    rw [← Option.some.inj hb']
    exact (hr.2 b hb).add (hwritten.current b hb).isOpenBelow hreads _ _

theorem hasFieldsIn_of_run (h : BlockReader.run {} 1 texts = .ok r) :
    r.Forall (Block.HasFieldsIn texts) :=
  run_induction (P := fun texts r => r.Forall (Block.HasFieldsIn texts)) ⟨by simp, by simp⟩
    (fun _ _ _ _ hrun hr hmove => hmove.hasFieldsIn hr (isWrittenIn_of_run hrun)) h

end BlockReader

/-! ## What a line leaves behind -/

/-- Whether the block is the one that is asked for, with the given documentation. -/
structure Block.IsDocumented (k : Keyword) (name : String) (documentation : Option String)
    (b : Block) : Prop where
  keyword : b.keyword = k
  name : b.name = name
  documentation : b.documentation = documentation

/-- Whether the block is the one that is asked for, and one of its fields is the field that is asked
for, with the given documentation. -/
structure Block.HasDocumentedField (k : Keyword) (block field : String)
    (documentation : Option String) (b : Block) : Prop where
  keyword : b.keyword = k
  name : b.name = block
  exists_field : ∃ f ∈ b.fields, f.name = field ∧ f.documentation = documentation

theorem Block.IsDocumented.add {doc : Option String} (h : b.IsDocumented k name doc) (n : Nat)
    (doc' : Option String) (e : Entry) : (b.add n doc' e).IsDocumented k name doc := by
  obtain ⟨hkeyword, hname, hdoc⟩ := h
  exact ⟨by rwa [add_keyword], by rwa [add_name], by rwa [add_documentation]⟩

theorem Block.HasDocumentedField.add {doc : Option String}
    (h : b.HasDocumentedField k block name doc) (n : Nat) (doc' : Option String) (e : Entry) :
    (b.add n doc' e).HasDocumentedField k block name doc := by
  obtain ⟨hkeyword, hname, f, hf, hfound⟩ := h
  refine ⟨by rwa [add_keyword], by rwa [add_name], f, ?_, hfound⟩
  cases e with
  | field written as => exact List.mem_append_left _ hf
  | _ => exact hf

/-- In a block with fields, code that spells a field is read as that field. -/
theorem Entry.Reads.exists_eq_field {f : FieldLine} {code : List Char} {e : Entry}
    (hk : k.HasFields) (hf : f.Spells code) (h : Entry.Reads k code e) :
    ∃ as, e = .field f as := by
  obtain ⟨hsettings, henum⟩ := k.hasFields_iff.mp hk
  cases h with
  | setting h =>
    rw [hsettings] at h
    simp at h
  | @attributes run as _ hcode _ =>
    obtain ⟨hname, -, gap, type, -, -, -, hcode'⟩ := hf
    exact absurd (hcode'.symm.trans hcode) (Block.ne_attributes_of_isName hname run)
  | value h _ _ => exact absurd h henum
  | @field g as _ hg _ =>
    have hread := FieldLine.read_eq_some_iff.mpr hg
    rw [FieldLine.read_eq_some_iff.mpr hf] at hread
    obtain rfl := Option.some.inj hread
    exact ⟨as, rfl⟩

namespace BlockReader

variable {r m : BlockReader} {n : Nat} {text : List Char} {p : Block → Prop}

/-- Whether a block with the property is there, complete or open. -/
def Keeps (p : Block → Prop) (r : BlockReader) : Prop :=
  (∃ b ∈ r.blocks, p b) ∨ ∃ b ∈ r.current, p b

theorem Move.keeps (hadd : ∀ b n doc e, p b → p (b.add n doc e)) (hr : r.Keeps p)
    (h : Move r n text m) : m.Keeps p := by
  have hsnoc : ∀ c, (∃ b ∈ r.blocks, p b) → ∃ b ∈ r.blocks ++ [c], p b :=
    fun c ⟨b, hb, hp⟩ => ⟨b, List.mem_append_left _ hb, hp⟩
  cases h with
  | layout _ => rwa [Keeps, blocks_stepLayout, current_stepLayout]
  | opens hnone _ =>
    rcases hr with hr | ⟨b, hb, -⟩
    · exact Or.inl hr
    · simp [hnone] at hb
  | empty hnone _ =>
    rcases hr with hr | ⟨b, hb, -⟩
    · exact Or.inl (hsnoc _ hr)
    · simp [hnone] at hb
  | @closes c hc _ =>
    rcases hr with hr | ⟨b, hb, hp⟩
    · exact Or.inl (hsnoc _ hr)
    · obtain rfl := Option.some.inj (hc.symm.trans hb)
      exact Or.inl ⟨c, by simp, hp⟩
  | @enters c e hc _ _ _ _ =>
    rcases hr with hr | ⟨b, hb, hp⟩
    · exact Or.inl hr
    · obtain rfl := Option.some.inj (hc.symm.trans hb)
      exact Or.inr ⟨_, rfl, hadd _ _ _ _ hp⟩

/-- **No later line takes away what was read.** -/
theorem Keeps.run (hadd : ∀ b n doc e, p b → p (b.add n doc e)) (hr : r.Keeps p)
    (h : r.run n texts = .ok m) : m.Keeps p := by
  induction texts generalizing r n with
  | nil =>
    rw [run_nil, Except.ok.injEq] at h
    rwa [← h]
  | cons text texts ih =>
    obtain ⟨r', hmove, hrun⟩ := run_cons_eq_ok_iff.mp h
    exact ih (hmove.keeps hadd hr) hrun

/-- A header leaves a block behind. -/
theorem Move.keeps_of_isHeaderOf (hrun : BlockReader.run {} 1 above = .ok r)
    (h : Move r n line m) (hheader : IsHeaderOf k name above line) :
    m.Keeps (Block.IsDocumented k name (documentationAbove above)) := by
  obtain ⟨⟨r', hrun', hnone⟩, isClosed, hspells⟩ := hheader
  obtain rfl := Except.ok.inj (hrun.symm.trans hrun')
  have hdoc := documentation_of_run hrun
  cases isClosed with
  | true =>
    obtain rfl := h.unique (.empty hnone hspells)
    exact Or.inl ⟨_, List.mem_append_right _ (List.mem_singleton_self _), rfl, rfl, hdoc⟩
  | false =>
    obtain rfl := h.unique (.opens hnone hspells)
    exact Or.inr ⟨_, rfl, rfl, rfl, hdoc⟩

/-- Below the header of a block the block is open. -/
theorem exists_current_of_isOpenBelow (hrun : BlockReader.run {} 1 above = .ok r)
    (hopen : IsOpenBelow k name above) :
    ∃ b, r.current = some b ∧ b.keyword = k ∧ b.name = name := by
  obtain ⟨before, header, body, rfl, ⟨r₀, hbefore, hnone⟩, hspells, hbody⟩ := hopen
  obtain ⟨r₁, hbefore', hrest⟩ := run_append_eq_ok_iff.mp hrun
  obtain rfl := Except.ok.inj (hbefore.symm.trans hbefore')
  obtain ⟨r₂, hmove, hinside⟩ := run_cons_eq_ok_iff.mp hrest
  obtain rfl := hmove.unique (.opens hnone hspells)
  obtain ⟨-, b, hb, hkeyword, hname, -⟩ := run_inside rfl hbody hinside
  exact ⟨b, hb, hkeyword, hname⟩

/-- The line of a field leaves the field behind. -/
theorem Move.keeps_of_isFieldOf (hk : k.HasFields) (hrun : BlockReader.run {} 1 above = .ok r)
    (h : Move r n line m) (hfield : IsFieldOf k block name above line) :
    m.Keeps (Block.HasDocumentedField k block name (documentationAbove above)) := by
  obtain ⟨hopen, written, hspells, rfl⟩ := hfield
  obtain ⟨b, hb, rfl, rfl⟩ := exists_current_of_isOpenBelow hrun hopen
  have hread := FieldLine.read_eq_some_iff.mpr hspells
  cases h with
  | layout hcode =>
    rw [hcode] at hread
    exact absurd hread (by simp [FieldLine.read])
  | opens hnone _ => simp [hnone] at hb
  | empty hnone _ => simp [hnone] at hb
  | closes _ hclose =>
    rw [hclose] at hread
    exact absurd hread (by simp [show FieldLine.read ['}'] = none from rfl])
  | enters hb' _ _ hreads _ =>
    obtain rfl := Option.some.inj (hb.symm.trans hb')
    obtain ⟨as, rfl⟩ := hreads.exists_eq_field hk hspells
    exact Or.inr ⟨_, rfl, rfl, rfl, _, List.mem_append_right _ (List.mem_singleton_self _), rfl,
      documentation_of_run hrun⟩

end BlockReader

/-! ## The documentation of blocks and fields -/

/-- What a line of the text leaves behind is one of the blocks. -/
theorem Block.exists_of_line {p : Block → Prop} (hadd : ∀ b n doc e, p b → p (b.add n doc e))
    (hline : ∀ r m n, BlockReader.run {} 1 above = .ok r → BlockReader.Move r n line m → m.Keeps p)
    (h : Block.ofLines (above ++ line :: below) = .ok bs) : ∃ b ∈ bs, p b := by
  obtain ⟨pending, hrun⟩ := Block.ofLines_eq_ok_iff.mp h
  obtain ⟨r, habove, hrest⟩ := BlockReader.run_append_eq_ok_iff.mp hrun
  obtain ⟨m, hmove, hbelow⟩ := BlockReader.run_cons_eq_ok_iff.mp hrest
  rcases (hline r m _ habove hmove).run hadd hbelow with hblocks | ⟨b, hb, -⟩
  · exact hblocks
  · simp at hb

/-- Blocks that declare one name are the same block. -/
theorem Schema.IsResolvable.eq_of_name_eq (h : IsResolvable bs) (hb : b ∈ bs) (hc : c ∈ bs)
    (hkeyword : b.keyword = c.keyword) (hsettings : b.keyword.isSettings = false)
    (hname : b.name = c.name) : b = c := by
  have hnodup := h.nodup
  rw [map_fst_declared] at hnodup
  refine List.inj_on_of_nodup_map hnodup (List.mem_filter.mpr ⟨hb, ?_⟩)
    (List.mem_filter.mpr ⟨hc, ?_⟩) hname
  · rw [hsettings]
    rfl
  · rw [← hkeyword, hsettings]
    rfl

/-- **The documentation of a block** stands above its header. -/
theorem Block.isDocumentedBy_of_ofLines (h : Block.ofLines texts = .ok bs)
    (hresolvable : Schema.IsResolvable bs) (hb : b ∈ bs)
    (hsettings : b.keyword.isSettings = false) :
    IsDocumentedBy texts (IsHeaderOf b.keyword b.name) b.documentation := by
  refine ⟨(Block.isFoundIn_of_ofLines h b hb).isDeclaredIn, ?_⟩
  rintro above line below rfl hheader
  -- The header leaves a block behind, and of one name there is no other.
  obtain ⟨c, hc, hkeyword, hname, hdoc⟩ := Block.exists_of_line
    (p := Block.IsDocumented b.keyword b.name (documentationAbove above))
    (fun c n doc e hc => hc.add n doc e)
    (fun r m n hrun hmove => hmove.keeps_of_isHeaderOf hrun hheader) h
  rw [hresolvable.eq_of_name_eq hb hc hkeyword.symm hsettings hname.symm, hdoc]

/-- **The documentation of a field** stands above its line. -/
theorem FieldDecl.isDocumentedBy_of_ofLines (hone : ∀ t ∈ texts, Text.IsOneLine t)
    (h : Block.ofLines texts = .ok bs) (hresolvable : Schema.IsResolvable bs) (hb : b ∈ bs)
    (hk : b.keyword.HasFields) {f : FieldDecl} (hf : f ∈ b.fields) :
    IsDocumentedBy texts (IsFieldOf b.keyword b.name f.name) f.documentation := by
  obtain ⟨pending, hrun⟩ := Block.ofLines_eq_ok_iff.mp h
  refine ⟨(BlockReader.hasFieldsIn_of_run hrun).1 b hb f hf, ?_⟩
  rintro above line below rfl hfield
  -- The line leaves a field behind in the block, in which field names are distinct as well.
  obtain ⟨c, hc, hkeyword, hname, g, hg, hgname, hdoc⟩ := Block.exists_of_line
    (p := Block.HasDocumentedField b.keyword b.name f.name (documentationAbove above))
    (fun c n doc e hc => hc.add n doc e)
    (fun r m n hrun hmove => hmove.keeps_of_isFieldOf hk hrun hfield) h
  obtain rfl := hresolvable.eq_of_name_eq hb hc hkeyword.symm
    (b.keyword.hasFields_iff.mp hk).1 hname.symm
  have hnodup := Block.nodup_of_ofLines hone h b hb
  rw [List.inj_on_of_nodup_map hnodup hf hg hgname.symm, hdoc]

theorem Block.isDocumentedBy_of_mem_resolved (hone : ∀ t ∈ texts, Text.IsOneLine t)
    (h : Block.ofLines texts = .ok bs) (hresolvable : Schema.IsResolvable bs) (hb : b ∈ bs)
    (hk : b.keyword.HasFields) {names : Names} :
    ∀ f ∈ b.resolved names,
      IsDocumentedBy texts (IsFieldOf b.keyword b.name f.name) f.documentation := by
  intro f hf
  obtain ⟨d, hd, rfl⟩ := List.mem_map.mp hf
  exact FieldDecl.isDocumentedBy_of_ofLines hone h hresolvable hb hk hd

namespace Schema

/-- **Where the documentation of a schema comes from.** The documentation of a model stands directly
above its header, and that of a field of a model or of a composite type directly above its line. So
no line of code passes anything on to what is declared below it, neither its own comment nor the
documentation above it, and a comment without a third slash makes no difference. -/
theorem documentation_of_parse {text : String} {s : Schema} (h : parse text = .ok s) :
    (∀ m ∈ s.models,
      IsDocumentedBy (linesOf text) (IsHeaderOf .model m.name) m.documentation ∧
        ∀ f ∈ m.fields,
          IsDocumentedBy (linesOf text) (IsFieldOf .model m.name f.name) f.documentation) ∧
    (∀ t ∈ s.compositeTypes, ∀ f ∈ t.fields,
      IsDocumentedBy (linesOf text) (IsFieldOf .type t.name f.name) f.documentation) ∧
    (∀ above line below, (SourceLine.ofText line).code ≠ [] →
      documentationAbove (above ++ line :: below) = documentationAbove below) ∧
    ∀ above line below comment, (SourceLine.ofText line).code = [] →
      (SourceLine.ofText line).comment = some comment → comment.head? ≠ some '/' →
        documentationAbove (above ++ line :: below) = documentationAbove (above ++ below) := by
  obtain ⟨bs, hbs, hresolvable, rfl⟩ := parse_eq_ok_iff.mp h
  have hone := Text.isOneLine_of_mem_lines (Text.dropMark text.toList)
  refine ⟨fun m hm => ?_, fun t ht => ?_,
    fun above line below hcode => documentationAbove_append_cons hcode above below,
    fun above line below comment hcode hcomment hslash =>
      documentationAbove_append_comment hcode hcomment hslash above below⟩
  · obtain ⟨b, hb, heq⟩ := List.mem_filterMap.mp hm
    rw [Block.model?, Option.ite_none_right_eq_some, Option.some.injEq] at heq
    obtain ⟨hk, rfl⟩ := heq
    rw [← hk]
    exact ⟨Block.isDocumentedBy_of_ofLines hbs hresolvable hb (by rw [hk]; rfl),
      Block.isDocumentedBy_of_mem_resolved hone hbs hresolvable hb (Or.inl hk)⟩
  · obtain ⟨b, hb, heq⟩ := List.mem_filterMap.mp ht
    rw [Block.compositeType?, Option.ite_none_right_eq_some, Option.some.injEq] at heq
    obtain ⟨hk, rfl⟩ := heq
    rw [← hk]
    exact Block.isDocumentedBy_of_mem_resolved hone hbs hresolvable hb (Or.inr (Or.inr hk))

/-- A model with documentation above a blank line, comments behind code, and documentation above the
bracket that closes it. -/
theorem documentation_of_parse_comments :
    ∃ s, parse "/// -\n\n/// A\n//\nmodel A \x7b /// -\n  /// b\n  b Int /// -\n  /// -\n\x7d" =
        .ok s ∧
      ∃ m ∈ s.models, m.documentation = some "A" ∧ ∃ f ∈ m.fields, f.documentation = some "b" ∧
        ∃ above line below,
          linesOf "/// -\n\n/// A\n//\nmodel A \x7b /// -\n  /// b\n  b Int /// -\n  /// -\n\x7d" =
            above ++ line :: below ∧ IsFieldOf .model m.name f.name above line ∧
              documentationAbove above = some "b" := by
  have h : parse "/// -\n\n/// A\n//\nmodel A \x7b /// -\n  /// b\n  b Int /// -\n  /// -\n\x7d" =
      .ok { models := [{
        name := "A", documentation := some "A"
        fields := [{
          name := "b", type := { name := "Int", kind := .scalar }
          documentation := some "b" }] }] } := by
    with_unfolding_all rfl
  obtain ⟨hmodels, -, -, -⟩ := documentation_of_parse h
  obtain ⟨⟨above, line, below, hlines, hfield⟩, hdoc⟩ :=
    (hmodels _ (List.mem_cons_self ..)).2 _ (List.mem_cons_self ..)
  exact ⟨_, h, _, List.mem_cons_self .., rfl, _, List.mem_cons_self .., rfl, above, line, below,
    hlines, hfield, (hdoc above line below hlines hfield).symm⟩

end Schema
end SchemaDiagram
