import SchemaDiagram.Proofs.Invariant

/-!
# The order of the blocks

Blocks may refer to each other in any direction, because all names are entered before the first type
is looked up. The order in which they are entered has no say in what a name stands for, as long as
no name is entered twice (`Names.lookup_eq_of_perm`). Hence blocks in another order make a schema
if and only if they do so in this one, and it has the same models, enums and composite types with
the same fields (`Schema.ofBlocks_perm`). The order shows in two places only: the parts of the
schema stand in the order of their blocks, and of several errors it is the first one that is
reported.
-/

namespace SchemaDiagram

namespace Names

variable {names names' : Names}

/-- In a table of distinct names the order of the entries has no say in what is found. -/
theorem lookup_eq_of_perm (h : names.Perm names') (hnodup : (names.map Prod.fst).Nodup)
    (n : String) : names.lookup n = names'.lookup n := by
  have hnodup' : (names'.map Prod.fst).Nodup := (h.map Prod.fst).nodup hnodup
  ext kind
  rw [lookup_eq_some_iff hnodup, lookup_eq_some_iff hnodup', h.mem_iff]

theorem kindOf_eq_of_perm (h : names.Perm names') (hnodup : (names.map Prod.fst).Nodup)
    (t : TypeExpr) : names.kindOf t = names'.kindOf t := by
  cases t with
  | unsupported raw => rfl
  | named n => rw [kindOf, kindOf, lookup_eq_of_perm h hnodup]

end Names

variable {bs bs' : List Block}

theorem declared_perm (h : bs.Perm bs') : (declared bs).Perm (declared bs') :=
  h.filterMap _

namespace Schema

/-- Blocks that agree with each other do so in any order. -/
theorem IsResolvable.perm (h : bs.Perm bs') (hresolvable : IsResolvable bs) : IsResolvable bs' := by
  have hnames := (declared_perm h).map Prod.fst
  refine ⟨hnames.nodup hresolvable.nodup, fun n hn => ?_, fun b hb f hf => ?_⟩
  · exact hresolvable.notScalar n (hnames.mem_iff.mpr hn)
  · rw [← Names.kindOf_eq_of_perm (declared_perm h) hresolvable.nodup]
    exact hresolvable.known b (h.mem_iff.mpr hb) f hf

theorem isResolvable_perm_iff (h : bs.Perm bs') : IsResolvable bs ↔ IsResolvable bs' :=
  ⟨IsResolvable.perm h, IsResolvable.perm h.symm⟩

/-- Against one table, blocks in another order make the same parts. -/
theorem assemble_perm (names : Names) (h : bs.Perm bs') :
    (assemble names bs).models.Perm (assemble names bs').models ∧
      (assemble names bs).enums.Perm (assemble names bs').enums ∧
      (assemble names bs).compositeTypes.Perm (assemble names bs').compositeTypes :=
  ⟨h.filterMap _, h.filterMap _, h.filterMap _⟩

/-- **The order of the blocks does not matter.** Blocks in another order make a schema if and only
if they make one in this order, and the two schemas have the same parts, each in the order of the
blocks that declare them. -/
theorem ofBlocks_perm (h : bs.Perm bs') :
    ((∃ s, ofBlocks bs = .ok s) ↔ ∃ s', ofBlocks bs' = .ok s') ∧
      ∀ s s', ofBlocks bs = .ok s → ofBlocks bs' = .ok s' →
        (s.models.Perm s'.models ∧ s.enums.Perm s'.enums ∧
          s.compositeTypes.Perm s'.compositeTypes) ∧
        s'.models.map Model.name =
          (bs'.filter fun b => b.keyword = .model).map Block.name ∧
        s'.enums.map Enum.name =
          (bs'.filter fun b => b.keyword = .enum).map Block.name ∧
        s'.compositeTypes.map CompositeType.name =
          (bs'.filter fun b => b.keyword = .type).map Block.name := by
  simp only [ofBlocks_eq_ok_iff, exists_and_left, exists_eq, and_true]
  refine ⟨isResolvable_perm_iff h, ?_⟩
  rintro _ _ ⟨hresolvable, rfl⟩ ⟨-, rfl⟩
  have hsame : assemble (declared bs') bs' = assemble (declared bs) bs' :=
    assemble_congr fun b hb f hf =>
      (Names.kindOf_eq_of_perm (declared_perm h) hresolvable.nodup f.type).symm
  refine ⟨?_, map_models_assemble _ bs', map_enums_assemble _ bs',
    map_compositeTypes_assemble _ bs'⟩
  rw [hsame]
  exact assemble_perm (declared bs) h

/-- Two models that refer to each other. -/
theorem ofBlocks_perm_swap :
    ∃ s s', ofBlocks
        [{ keyword := .model, name := "A", line := 1
           fields := [{ line := 2, name := "b", type := .named "B" }] },
         { keyword := .model, name := "B", line := 4
           fields := [{ line := 5, name := "a", type := .named "A" }] }] = .ok s ∧
      ofBlocks
        [{ keyword := .model, name := "B", line := 4
           fields := [{ line := 5, name := "a", type := .named "A" }] },
         { keyword := .model, name := "A", line := 1
           fields := [{ line := 2, name := "b", type := .named "B" }] }] = .ok s' ∧
      s.models.Perm s'.models ∧ s'.models.map Model.name = ["B", "A"] := by
  obtain ⟨hiff, hsame⟩ := ofBlocks_perm (List.Perm.swap
    { keyword := .model, name := "B", line := 4
      fields := [{ line := 5, name := "a", type := .named "A" }] }
    { keyword := .model, name := "A", line := 1
      fields := [{ line := 2, name := "b", type := .named "B" }] } [])
  obtain ⟨s, hs⟩ : ∃ s, ofBlocks
      [{ keyword := .model, name := "A", line := 1
         fields := [{ line := 2, name := "b", type := .named "B" }] },
       { keyword := .model, name := "B", line := 4
         fields := [{ line := 5, name := "a", type := .named "A" }] }] = .ok s :=
    ⟨_, rfl⟩
  obtain ⟨s', hs'⟩ := hiff.mp ⟨s, hs⟩
  obtain ⟨⟨hperm, -, -⟩, hnames, -, -⟩ := hsame s s' hs hs'
  exact ⟨s, s', hs, hs', hperm, hnames⟩

end Schema
end SchemaDiagram
