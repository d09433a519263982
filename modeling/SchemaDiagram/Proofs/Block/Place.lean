import SchemaDiagram.Proofs.Block.Run
import SchemaDiagram.Text.Decoding

/-!
# Where blocks stand

Blocks and fields remember the line that they were declared on. The first pass goes down the text,
and so these lines ascend in the order in which blocks and fields are kept: every line adds at most
its own number behind those that are there (`BlockReader.Move.places`). That is what makes the first
of several blocks or fields in the lists also the topmost one in the text
(`Block.pairwise_places_of_ofLines`).
-/

namespace SchemaDiagram

/-- The lines of a text. They are counted behind the mark that it may start with. -/
def Schema.linesOf (text : String) : List (List Char) :=
  Text.lines (Text.dropMark text.toList)

/-- The lines that the block and its fields stand on, in the order in which they are read. -/
def Block.places (b : Block) : List Nat :=
  b.line :: b.fields.map FieldDecl.line

namespace BlockReader

/-- The lines that all blocks stand on, the open one included. -/
def places (r : BlockReader) : List Nat :=
  (r.blocks ++ r.current.toList).flatMap Block.places

/-- **One line and the places.** The line adds its own number, or none. -/
theorem Move.places {r m : BlockReader} {n : Nat} {text : List Char} (h : Move r n text m) :
    m.places = r.places ∨ m.places = r.places ++ [n] := by
  cases h with
  | layout _ =>
    left
    simp [BlockReader.places]
  | opens hcurrent _ =>
    right
    simp [BlockReader.places, hcurrent, Block.places, Block.opened]
  | empty hcurrent _ =>
    right
    simp [BlockReader.places, hcurrent, Block.places, Block.opened]
  | closes hcurrent _ =>
    left
    simp [BlockReader.places, hcurrent]
  | @enters b e hcurrent _ _ _ _ =>
    cases e with
    | field f as =>
      right
      simp [BlockReader.places, hcurrent, Block.places, Block.add, FieldLine.decl]
    | _ =>
      left
      simp [BlockReader.places, hcurrent, Block.places, Block.add]

/-- Whether the places ascend, all of them above the line of the given number. -/
structure Ascends (n : Nat) (r : BlockReader) : Prop where
  pairwise : r.places.Pairwise (· < ·)
  lt : ∀ k ∈ r.places, k < n

theorem ascends_start (n : Nat) : Ascends n {} :=
  ⟨List.Pairwise.nil, by simp [places]⟩

theorem Ascends.move {r m : BlockReader} {n : Nat} {text : List Char} (hr : r.Ascends n)
    (h : Move r n text m) : m.Ascends (n + 1) := by
  rcases h.places with hsame | hsnoc
  · refine ⟨by rw [hsame]; exact hr.pairwise, fun k hk => ?_⟩
    rw [hsame] at hk
    exact Nat.lt_succ_of_lt (hr.lt k hk)
  · constructor
    · rw [hsnoc, List.pairwise_append]
      refine ⟨hr.pairwise, List.pairwise_singleton .., fun k hk l hl => ?_⟩
      rw [List.mem_singleton.mp hl]
      exact hr.lt k hk
    · intro k hk
      rw [hsnoc, List.mem_append, List.mem_singleton] at hk
      rcases hk with hk | rfl
      · exact Nat.lt_succ_of_lt (hr.lt k hk)
      · exact Nat.lt_succ_self k

/-- **The places ascend** after any number of lines. -/
theorem Ascends.run {r m : BlockReader} {n : Nat} {texts : List (List Char)} (hr : r.Ascends n)
    (h : r.run n texts = .ok m) : m.Ascends (n + texts.length) := by
  induction texts generalizing r n with
  | nil =>
    rw [run_nil, Except.ok.injEq] at h
    rwa [← h]
  | cons text texts ih =>
    obtain ⟨r', hmove, hrun⟩ := run_cons_eq_ok_iff.mp h
    have := ih (hr.move hmove) hrun
    rwa [List.length_cons, Nat.add_comm texts.length, ← Nat.add_assoc]

end BlockReader

namespace Block

variable {texts : List (List Char)} {bs : List Block}

/-- **The blocks of a text stand below each other**, and so do the fields of a block. -/
theorem pairwise_places_of_ofLines (h : ofLines texts = .ok bs) :
    (bs.flatMap places).Pairwise (· < ·) := by
  obtain ⟨pending, hrun⟩ := ofLines_eq_ok_iff.mp h
  have hascends := ((BlockReader.ascends_start 1).run hrun).pairwise
  rwa [BlockReader.places, Option.toList_none, List.append_nil] at hascends

theorem pairwise_line_of_ofLines (h : ofLines texts = .ok bs) :
    bs.Pairwise fun b b' => b.line < b'.line := by
  have hplaces := (List.pairwise_flatMap.mp (pairwise_places_of_ofLines h)).2
  exact hplaces.imp fun hb => hb _ (List.mem_cons_self ..) _ (List.mem_cons_self ..)

theorem pairwise_fields_of_ofLines (h : ofLines texts = .ok bs) :
    (bs.flatMap Block.fields).Pairwise fun f f' => f.line < f'.line := by
  obtain ⟨hinside, hbetween⟩ := List.pairwise_flatMap.mp (pairwise_places_of_ofLines h)
  refine List.pairwise_flatMap.mpr ⟨fun b hb => ?_, hbetween.imp fun hb f hf f' hf' => ?_⟩
  · exact List.pairwise_map.mp (List.pairwise_cons.mp (hinside b hb)).2
  · exact hb _ (List.mem_cons_of_mem _ (List.mem_map_of_mem hf))
      _ (List.mem_cons_of_mem _ (List.mem_map_of_mem hf'))

end Block

/-- Whether the line that the field remembers declares it. -/
def FieldDecl.IsWrittenIn (texts : List (List Char)) (f : FieldDecl) : Prop :=
  ∃ text written, IsLine texts f.line text ∧
    FieldLine.Spells written (SourceLine.ofText text).code ∧
    written.name = f.name ∧ written.type = f.type

/-- **Every field remembers the line that declares it.** -/
theorem FieldDecl.isWrittenIn_of_ofLines {texts : List (List Char)} {bs : List Block}
    (hone : ∀ t ∈ texts, Text.IsOneLine t) (h : Block.ofLines texts = .ok bs) :
    ∀ b ∈ bs, ∀ f ∈ b.fields, f.IsWrittenIn texts := by
  refine Block.forall_of_ofLines (p := fun b => ∀ f ∈ b.fields, f.IsWrittenIn texts) ?_ ?_ hone h
  · intro n text k name isClosed doc _ _ _
    simp [Block.opened]
  · intro n text b e doc hline hb hreads _ _ f hf
    cases hreads with
    | @field written as _ hspells _ =>
      rcases List.mem_append.mp hf with hf | hf
      · exact hb f hf
      · rw [List.mem_singleton.mp hf]
        exact ⟨text, written, hline, hspells, rfl, rfl⟩
    | _ => exact hb f hf

end SchemaDiagram
