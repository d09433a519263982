import SchemaDiagram.Proofs.Grammar
import SchemaDiagram.Proofs.Resolution
import SchemaDiagram.Schema.Parser

/-!
# The texts that are schemas

A text is accepted exactly if its lines of code are spelled by blocks that agree with each other: no
block has two fields of one name, no name is declared twice or is that of a built-in type, and every
type that is written is known. None of this mentions an order of reading. The parser on the other
hand reads line by line, decides about the fields of a block while the block is open, and about
types after the last line.
-/

namespace SchemaDiagram

/-- The names that the blocks declare. Blocks of settings declare none. -/
def declaredNames (ws : List WrittenBlock) : List String :=
  (ws.filter fun w => !w.keyword.isSettings).map WrittenBlock.name

/-- Every field that was read from a text has its type looked up. -/
theorem Block.typedFields_of_ofLines {texts : List (List Char)} {bs : List Block}
    (hone : ∀ t ∈ texts, Text.IsOneLine t) (h : Block.ofLines texts = .ok bs) :
    ∀ b ∈ bs, b.typedFields = b.fields := by
  refine Block.forall_of_ofLines (p := fun b => b.typedFields = b.fields) ?_ ?_ hone h
  · intro n text k name isClosed doc _ _ _
    cases k <;> rfl
  · intro n text b e doc _ hb hreads _ _
    cases hreads with
    | setting _ => exact hb
    | attributes _ _ _ => exact hb
    | value _ _ _ => exact hb
    | field hk _ _ => exact Block.typedFields_eq_fields hk

/-- Blocks that agree but for the places where they stand declare the same. -/
theorem declared_of_map_bare {bs : List Block} {ws : List WrittenBlock}
    (h : bs.map Block.bare = ws.map WrittenBlock.block) :
    declared bs = declared (ws.map WrittenBlock.block) := by
  rw [← h, declared, declared, List.filterMap_map]
  rfl

theorem map_fst_declared_block (ws : List WrittenBlock) :
    (declared (ws.map WrittenBlock.block)).map Prod.fst = declaredNames ws := by
  rw [map_fst_declared, List.filter_map, List.map_map]
  rfl

/-- The types of blocks that agree but for the places where they stand are the same. -/
theorem forall_type_of_map_bare {bs : List Block} {ws : List WrittenBlock} {p : TypeExpr → Prop}
    (h : bs.map Block.bare = ws.map WrittenBlock.block) :
    (∀ b ∈ bs, ∀ f ∈ b.fields, p f.type) ↔ ∀ w ∈ ws, ∀ f ∈ w.fields, p f.type := by
  have hbare : (∀ b ∈ bs, ∀ f ∈ b.fields, p f.type) ↔
      ∀ b ∈ bs.map Block.bare, ∀ f ∈ b.fields, p f.type := by
    simp [Block.bare, FieldDecl.bare]
  rw [hbare, h]
  simp [WrittenBlock.block]

theorem isResolvable_iff_of_map_bare {bs : List Block} {ws : List WrittenBlock}
    (htyped : ∀ b ∈ bs, b.typedFields = b.fields)
    (h : bs.map Block.bare = ws.map WrittenBlock.block) :
    Schema.IsResolvable bs ↔
      (declaredNames ws).Nodup ∧ (∀ n ∈ declaredNames ws, isScalarName n = false) ∧
        ∀ w ∈ ws, ∀ f ∈ w.fields, (∃ raw, f.type = .unsupported raw) ∨
          ∃ n, f.type = .named n ∧ (isScalarName n = true ∨ n ∈ declaredNames ws) := by
  have hnames : (declared bs).map Prod.fst = declaredNames ws := by
    rw [declared_of_map_bare h, map_fst_declared_block]
  have hknown : (∀ b ∈ bs, ∀ f ∈ b.fields, ((declared bs).kindOf f.type).isSome = true) ↔
      ∀ w ∈ ws, ∀ f ∈ w.fields, (∃ raw, f.type = .unsupported raw) ∨
        ∃ n, f.type = .named n ∧ (isScalarName n = true ∨ n ∈ declaredNames ws) := by
    simp only [Names.isSome_kindOf_iff, hnames]
    exact forall_type_of_map_bare h (p := fun t => (∃ raw, t = .unsupported raw) ∨
      ∃ n, t = .named n ∧ (isScalarName n = true ∨ n ∈ declaredNames ws))
  rw [← hknown, ← hnames]
  constructor
  · rintro ⟨hnodup, hscalar, hknown⟩
    exact ⟨hnodup, hscalar, fun b hb f hf => hknown b hb f (by rwa [htyped b hb])⟩
  · rintro ⟨hnodup, hscalar, hknown⟩
    exact ⟨hnodup, hscalar, fun b hb f hf => hknown b hb f (by rwa [← htyped b hb])⟩

namespace Schema

/-- The lines of code of a text. -/
def codeOf (text : String) : List (List Char) :=
  codeLines (Text.lines (Text.dropMark text.toList))

theorem parse_eq_ok_iff {text : String} {s : Schema} :
    parse text = .ok s ↔
      ∃ bs, Block.ofLines (Text.lines (Text.dropMark text.toList)) = .ok bs ∧
        IsResolvable bs ∧ s = assemble (declared bs) bs := by
  rw [parse, parseChars]
  cases hbs : Block.ofLines (Text.lines (Text.dropMark text.toList)) with
  | error e => simp
  | ok bs => simp [ofBlocks_eq_ok_iff]

/-- **The texts that are accepted.** Their lines of code split completely into blocks, no block has
two fields of one name, the declared names are distinct and not built in, and every field has a type
that is unsupported, built in or declared. -/
theorem exists_parse_iff (text : String) :
    (∃ s, parse text = .ok s) ↔
      ∃ ws : List WrittenBlock, Spelled ws (codeOf text) ∧
        (∀ w ∈ ws, (w.fields.map FieldDecl.name).Nodup) ∧
        (declaredNames ws).Nodup ∧ (∀ n ∈ declaredNames ws, isScalarName n = false) ∧
        ∀ w ∈ ws, ∀ f ∈ w.fields, (∃ raw, f.type = .unsupported raw) ∨
          ∃ n, f.type = .named n ∧ (isScalarName n = true ∨ n ∈ declaredNames ws) := by
  constructor
  · rintro ⟨s, hs⟩
    obtain ⟨bs, hbs, hresolvable, -⟩ := parse_eq_ok_iff.mp hs
    obtain ⟨ws, hspelled, hbare⟩ := Block.ofLines_spelled hbs
    have hnodup := Block.nodup_of_ofLines (Text.isOneLine_of_mem_lines _) hbs
    have htyped := Block.typedFields_of_ofLines (Text.isOneLine_of_mem_lines _) hbs
    refine ⟨ws, hspelled, fun w hw => ?_,
      (isResolvable_iff_of_map_bare htyped hbare).mp hresolvable⟩
    have hmem : w.block ∈ bs.map Block.bare := by
      rw [hbare]
      exact List.mem_map_of_mem hw
    obtain ⟨b, hb, hblock⟩ := List.mem_map.mp hmem
    rw [← Block.fieldNames_of_bare hblock]
    exact hnodup b hb
  · rintro ⟨ws, hspelled, hnodup, hresolvable⟩
    obtain ⟨bs, hbs, hbare⟩ := Block.exists_ofLines_of_spelled hspelled hnodup
    have htyped := Block.typedFields_of_ofLines (Text.isOneLine_of_mem_lines _) hbs
    exact ⟨_, parse_eq_ok_iff.mpr
      ⟨bs, hbs, (isResolvable_iff_of_map_bare htyped hbare).mpr hresolvable, rfl⟩⟩

end Schema
end SchemaDiagram
