import SchemaDiagram.Proofs.Block.Resemblance

/-!
# Reading behind other blocks

The first pass keeps nothing of the blocks that are complete but the blocks themselves, so what it
makes of the lines of a text does not depend on the text above them. Behind other blocks, and on
lines that are further down by some number, a reader goes along with the reader without them, and
only the lines that the blocks and the fields remember are further down by that number
(`BlockReader.follows_add_iff`).

Between two texts the documentation that waits at the end of the first one must not get to the first
declaration of the second. An empty line is enough for that (`Block.ofLines_append`).
-/

namespace SchemaDiagram

/-- The field, declared the given number of lines further down. -/
def FieldDecl.shift (n : Nat) (f : FieldDecl) : FieldDecl :=
  { f with line := f.line + n }

/-- The block, declared the given number of lines further down. -/
def Block.shift (n : Nat) (b : Block) : Block :=
  { b with line := b.line + n, fields := b.fields.map (FieldDecl.shift n) }

@[simp] theorem Block.shift_keyword (n : Nat) (b : Block) : (b.shift n).keyword = b.keyword := rfl

/-! ## What is further down -/

theorem FieldDecl.resembles_add_iff (n : Nat) (f f' : FieldDecl) :
    f.Resembles {} (· + n) f' ↔ f' = f.shift n := by
  constructor
  · intro h
    cases f'
    obtain ⟨rfl, rfl, rfl, rfl, rfl, rfl, hdoc⟩ := h
    rw [shift, ← hdoc rfl]
  · rintro rfl
    exact ⟨rfl, rfl, rfl, rfl, rfl, rfl, fun _ => rfl⟩

/-- A block that resembles another one in everything, on lines that are further down, is that block
shifted. -/
theorem Block.resembles_add_iff (n : Nat) (b b' : Block) :
    b.Resembles {} (· + n) b' ↔ b' = b.shift n := by
  have hfields : ∀ fs, List.Forall₂ (FieldDecl.Resembles {} (· + n)) b.fields fs ↔
      fs = b.fields.map (FieldDecl.shift n) :=
    fun _ => forall₂_iff_eq_map (FieldDecl.resembles_add_iff n)
  constructor
  · intro h
    have hfs := (hfields _).mp h.fields
    cases b'
    obtain ⟨rfl, rfl, rfl, hdoc, -, rfl, hattributes⟩ := h
    obtain rfl := hfs
    rw [shift, ← hdoc rfl, ← hattributes rfl]
  · rintro rfl
    exact ⟨rfl, rfl, rfl, fun _ => rfl, (hfields _).mpr rfl, rfl, fun _ => rfl⟩

namespace BlockReader

/-- The reader as it would be if the given blocks stood above the text, which would be that number
of lines further down. -/
def behind (as : List Block) (n : Nat) (r : BlockReader) : BlockReader :=
  { blocks := as ++ r.blocks.map (Block.shift n)
    current := r.current.map (Block.shift n)
    pending := r.pending }

variable {as : List Block} {n : Nat} {r m : BlockReader}

/-- The reader behind other blocks is the only one that goes along with the reader without them. -/
theorem follows_add_iff {r' : BlockReader} :
    Follows {} (· + n) [] as r r' ↔ r' = r.behind as n := by
  have hblocks : ∀ bs, List.Forall₂ (Block.Resembles {} (· + n)) r.blocks bs ↔
      bs = r.blocks.map (Block.shift n) :=
    fun _ => forall₂_iff_eq_map (Block.resembles_add_iff n)
  constructor
  · intro h
    obtain ⟨bs, bs', hbs, hbs', hall⟩ := h.blocks
    rw [List.nil_append] at hbs
    subst hbs
    have hcurrent : r'.current = r.current.map (Block.shift n) := by
      have hrel := h.current
      generalize r.current = o at hrel ⊢
      generalize r'.current = o' at hrel ⊢
      cases hrel with
      | none => rfl
      | some hb => exact congrArg some ((Block.resembles_add_iff n _ _).mp hb)
    rw [(hblocks bs').mp hall] at hbs'
    rw [behind, ← hbs', ← hcurrent, ← h.pending rfl]
  · rintro rfl
    refine ⟨⟨r.blocks, _, rfl, rfl, (hblocks _).mpr rfl⟩, ?_, fun _ => rfl⟩
    rw [behind]
    cases r.current with
    | none => exact .none
    | some b => exact .some ((Block.resembles_add_iff n _ _).mpr rfl)

/-- **A run behind other blocks.** -/
theorem run_behind (as : List Block) (n : Nat) {line : Nat} {texts : List (List Char)}
    (h : r.run line texts = .ok m) :
    (r.behind as n).run (line + n) texts = .ok (m.behind as n) := by
  have hfollows : Follows {} (· + n) [] as r (r.behind as n) := follows_add_iff.mpr rfl
  have hrelated := hfollows.run (n := line) (fun k _ => Nat.add_right_comm k 1 n) texts
  rw [h] at hrelated
  obtain ⟨m', hm', hbehind⟩ := hrelated.exists_ok
  rw [hm', follows_add_iff.mp hbehind]

/-- Empty lines drop the documentation that waits, and do nothing else. -/
theorem run_empty_lines (r : BlockReader) (line k : Nat) :
    r.run line (List.replicate (k + 1) []) = .ok { r with pending := [] } := by
  have hstep : ∀ (r : BlockReader) (line : Nat), Move r line [] { r with pending := [] } :=
    fun _ _ => .layout rfl
  induction k generalizing r line with
  | zero => exact run_cons_eq_ok_iff.mpr ⟨_, hstep r line, rfl⟩
  | succ k ih => exact run_cons_eq_ok_iff.mpr ⟨_, hstep r line, ih _ (line + 1)⟩

end BlockReader

/-- **The blocks of two texts** that are kept apart by empty lines are those of the one and those of
the other, which are further down. -/
theorem Block.ofLines_append {texts texts' : List (List Char)} {as bs : List Block}
    (ha : ofLines texts = .ok as) (hb : ofLines texts' = .ok bs) (k : Nat) :
    ofLines (texts ++ List.replicate (k + 1) [] ++ texts') =
      .ok (as ++ bs.map (Block.shift (texts.length + (k + 1)))) := by
  obtain ⟨waiting, hrun⟩ := ofLines_eq_ok_iff.mp ha
  obtain ⟨pending, hrun'⟩ := ofLines_eq_ok_iff.mp hb
  have habove : BlockReader.run {} 1 (texts ++ List.replicate (k + 1) []) =
      .ok { blocks := as } :=
    BlockReader.run_append_of_ok hrun (BlockReader.run_empty_lines _ _ k)
  have hbehind := BlockReader.run_behind as (texts.length + (k + 1)) hrun'
  rw [BlockReader.behind, List.map_nil, List.append_nil] at hbehind
  refine ofLines_eq_ok_iff.mpr ⟨pending, BlockReader.run_append_of_ok habove ?_⟩
  rw [List.length_append, List.length_replicate]
  exact hbehind

end SchemaDiagram
