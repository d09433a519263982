import Mathlib.Data.List.Nodup
import SchemaDiagram.Proofs.Block.Place

/-!
# The lines of a block

A block takes up the lines from its header to the first bracket below it that stands on a line of
its own, or the line of its header alone if that closes the block (`IsBlockOf`). Every block that is
read takes up such lines (`Block.isFoundIn_of_ofLines`). The other way round, wherever no block
is open the lines of a block are read as one block (`BlockReader.run_of_isBlockOf`). What stands
inside has no say in this, and in a block of settings it has no say at all
(`BlockReader.run_settings`).
-/

namespace SchemaDiagram

/-- Whether the line is no bracket that closes a block. -/
def IsInside (text : List Char) : Prop :=
  (SourceLine.ofText text).code ≠ ['}']

/-- The lines of a block with the given keyword and name. -/
inductive IsBlockOf (k : Keyword) (name : String) : List (List Char) → Prop where
  | empty {header : List Char} :
      HeaderLine.Spells ⟨k.word, name, true⟩ (SourceLine.ofText header).code →
        IsBlockOf k name [header]
  | whole {header close : List Char} {body : List (List Char)} :
      HeaderLine.Spells ⟨k.word, name, false⟩ (SourceLine.ofText header).code →
        (∀ text ∈ body, IsInside text) → (SourceLine.ofText close).code = ['}'] →
          IsBlockOf k name (header :: (body ++ [close]))

theorem isBlockOf_cons_iff {k : Keyword} {name : String} {header close : List Char}
    {body : List (List Char)} :
    IsBlockOf k name (header :: (body ++ [close])) ↔
      HeaderLine.Spells ⟨k.word, name, false⟩ (SourceLine.ofText header).code ∧
        (∀ text ∈ body, IsInside text) ∧ (SourceLine.ofText close).code = ['}'] := by
  constructor
  · intro h
    generalize hpart : header :: (body ++ [close]) = part at h
    cases h with
    | empty _ => simp at hpart
    | whole hspells hbody hclose =>
      obtain ⟨rfl, hrest⟩ := List.cons.inj hpart
      obtain ⟨rfl, hlast⟩ := List.append_inj' hrest rfl
      obtain rfl := List.singleton_inj.mp hlast
      exact ⟨hspells, hbody, hclose⟩
  · rintro ⟨hspells, hbody, hclose⟩
    exact .whole hspells hbody hclose

/-- Whether the block takes up the lines between the given ones. -/
structure Block.TakesUp (b : Block) (texts before part after : List (List Char)) : Prop where
  lines : texts = before ++ (part ++ after)
  line : b.line = before.length + 1
  isBlockOf : IsBlockOf b.keyword b.name part

/-- Whether all lines can be read and no block is open where they end. -/
def EndsOutside (texts : List (List Char)) : Prop :=
  ∃ r, BlockReader.run {} 1 texts = .ok r ∧ r.current = none

/-- Whether the block takes up some of the lines, and no block is open above these. -/
def Block.IsFoundIn (texts : List (List Char)) (b : Block) : Prop :=
  ∃ before part after, EndsOutside before ∧ b.TakesUp texts before part after

theorem Block.IsFoundIn.snoc {b : Block} {texts : List (List Char)} (h : b.IsFoundIn texts)
    (text : List Char) : b.IsFoundIn (texts ++ [text]) := by
  obtain ⟨before, part, after, hbefore, htakes⟩ := h
  refine ⟨before, part, after ++ [text], hbefore, ?_, htakes.line, htakes.isBlockOf⟩
  rw [htakes.lines, List.append_assoc, List.append_assoc]

namespace BlockReader

variable {r m : BlockReader} {n : Nat} {text : List Char}

/-! ## Every block takes up lines -/

/-- Whether the block was opened by one of the lines and is not closed by those behind it. -/
def OpenedIn (texts : List (List Char)) (b : Block) : Prop :=
  ∃ before header body, EndsOutside before ∧ texts = before ++ header :: body ∧
    b.line = before.length + 1 ∧
    HeaderLine.Spells ⟨b.keyword.word, b.name, false⟩ (SourceLine.ofText header).code ∧
    ∀ text ∈ body, IsInside text

/-- Whether every complete block takes up some of the lines, and the open one was opened by one of
them. -/
structure IsWrittenIn (texts : List (List Char)) (r : BlockReader) : Prop where
  blocks : ∀ b ∈ r.blocks, b.IsFoundIn texts
  current : ∀ b, r.current = some b → OpenedIn texts b

theorem OpenedIn.snoc {texts : List (List Char)} {b b' : Block} (h : OpenedIn texts b)
    (hkeyword : b'.keyword = b.keyword) (hname : b'.name = b.name) (hline : b'.line = b.line)
    (hinside : IsInside text) : OpenedIn (texts ++ [text]) b' := by
  obtain ⟨before, header, body, hbefore, rfl, hplace, hheader, hbody⟩ := h
  refine ⟨before, header, body ++ [text], hbefore, ?_, ?_, ?_, ?_⟩
  · rw [List.append_assoc, List.cons_append]
  · rw [hline, hplace]
  · rw [hkeyword, hname]
    exact hheader
  · exact List.forall_mem_append.mpr ⟨hbody, List.forall_mem_singleton.mpr hinside⟩

/-- **One more line.** -/
theorem IsWrittenIn.move {texts : List (List Char)} (hr : IsWrittenIn texts r)
    (hrun : BlockReader.run {} 1 texts = .ok r) (h : Move r (texts.length + 1) text m) :
    IsWrittenIn (texts ++ [text]) m := by
  have hkept : ∀ b ∈ r.blocks, b.IsFoundIn (texts ++ [text]) :=
    fun b hb => (hr.blocks b hb).snoc text
  have hsnoc : ∀ b, b.IsFoundIn (texts ++ [text]) →
      ∀ b' ∈ r.blocks ++ [b], b'.IsFoundIn (texts ++ [text]) :=
    fun b hb => List.forall_mem_append.mpr ⟨hkept, List.forall_mem_singleton.mpr hb⟩
  cases h with
  | layout hcode =>
    have hinside : IsInside text := by simp [IsInside, hcode]
    refine ⟨by rwa [blocks_stepLayout], fun b hb => ?_⟩
    rw [current_stepLayout] at hb
    exact (hr.current b hb).snoc rfl rfl rfl hinside
  | opens hnone hspells =>
    refine ⟨hkept, fun b hb => ?_⟩
    obtain rfl := Option.some.inj hb
    exact ⟨texts, text, [], ⟨r, hrun, hnone⟩, rfl, rfl, hspells, by simp⟩
  | empty hnone hspells =>
    exact ⟨hsnoc _ ⟨texts, [text], [], ⟨r, hrun, hnone⟩, by simp, rfl, .empty hspells⟩, by simp⟩
  | @closes b hb hclose =>
    obtain ⟨before, header, body, hbefore, rfl, hplace, hheader, hbody⟩ := hr.current b hb
    exact ⟨hsnoc _ ⟨before, header :: (body ++ [text]), [], hbefore, by simp, hplace,
      .whole hheader hbody hclose⟩, by simp⟩
  | @enters b e hb _ hclose _ _ =>
    refine ⟨hkept, fun b' hb' => ?_⟩
    obtain rfl := Option.some.inj hb'
    exact (hr.current b hb).snoc (by simp) (by simp) (by simp) hclose

theorem isWrittenIn_of_run {texts : List (List Char)} (h : BlockReader.run {} 1 texts = .ok r) :
    IsWrittenIn texts r :=
  run_induction (P := IsWrittenIn) ⟨by simp, by simp⟩
    (fun _ _ _ _ hrun hr hmove => hr.move hrun hmove) h

/-! ## The lines of a block are read as a block -/

/-- A line inside of a block leaves the block open. -/
theorem Move.inside {b : Block} (h : Move r n text m) (hb : r.current = some b)
    (hinside : IsInside text) : m.blocks = r.blocks ∧ ∃ b', m.current = some b' ∧
      b'.keyword = b.keyword ∧ b'.name = b.name ∧ b'.line = b.line := by
  cases h with
  | layout _ => exact ⟨blocks_stepLayout .., b, by rw [current_stepLayout, hb], rfl, rfl, rfl⟩
  | opens hnone _ => simp [hnone] at hb
  | empty hnone _ => simp [hnone] at hb
  | closes _ hclose => exact absurd hclose hinside
  | enters hb' _ _ _ _ =>
    obtain rfl := Option.some.inj (hb'.symm.trans hb)
    exact ⟨rfl, _, rfl, by simp, by simp, by simp⟩

theorem run_inside {b : Block} {body : List (List Char)} (hb : r.current = some b)
    (hinside : ∀ text ∈ body, IsInside text) (h : r.run n body = .ok m) :
    m.blocks = r.blocks ∧ ∃ b', m.current = some b' ∧
      b'.keyword = b.keyword ∧ b'.name = b.name ∧ b'.line = b.line := by
  induction body generalizing r b n with
  | nil =>
    rw [run_nil, Except.ok.injEq] at h
    subst h
    exact ⟨rfl, b, hb, rfl, rfl, rfl⟩
  | cons text body ih =>
    obtain ⟨r', hmove, hrun⟩ := run_cons_eq_ok_iff.mp h
    obtain ⟨hfirst, hrest⟩ := List.forall_mem_cons.mp hinside
    obtain ⟨hblocks, b', hb', hkeyword, hname, hline⟩ := hmove.inside hb hfirst
    obtain ⟨hblocks', b'', hb'', hkeyword', hname', hline'⟩ := ih hb' hrest hrun
    exact ⟨hblocks'.trans hblocks, b'', hb'', hkeyword'.trans hkeyword, hname'.trans hname,
      hline'.trans hline⟩

/-- **The lines of a block** add one block. -/
theorem run_of_isBlockOf {k : Keyword} {name : String} {part : List (List Char)}
    (hnone : r.current = none) (hpart : IsBlockOf k name part) (h : r.run n part = .ok m) :
    ∃ b, m = { blocks := r.blocks ++ [b] } ∧ b.keyword = k ∧ b.name = name ∧ b.line = n := by
  cases hpart with
  | empty hspells =>
    have hmove := run_singleton_eq_ok_iff.mp h
    exact ⟨_, hmove.unique (.empty hnone hspells), rfl, rfl, rfl⟩
  | @whole header close body hspells hbody hclose =>
    obtain ⟨r', hmove, hrun⟩ := run_cons_eq_ok_iff.mp h
    obtain rfl := hmove.unique (.opens hnone hspells)
    obtain ⟨m', hinside, hlast⟩ := run_append_eq_ok_iff.mp hrun
    obtain ⟨hblocks, b, hb, hkeyword, hname, hline⟩ := run_inside rfl hbody hinside
    have hmove' := run_singleton_eq_ok_iff.mp hlast
    exact ⟨b, by rw [hmove'.unique (.closes hb hclose), hblocks], hkeyword, hname, hline⟩

/-- The lines inside of a block of settings add nothing to it. -/
theorem exists_run_inside_settings {b : Block} {body : List (List Char)} (hb : r.current = some b)
    (hsettings : b.keyword.isSettings = true) (hinside : ∀ text ∈ body, IsInside text) :
    ∃ pending, r.run n body = .ok { blocks := r.blocks, current := some b, pending } := by
  induction body generalizing r n with
  | nil => exact ⟨r.pending, by rw [run_nil, ← hb]⟩
  | cons text body ih =>
    obtain ⟨hfirst, hrest⟩ := List.forall_mem_cons.mp hinside
    have hmove : ∃ r', Move r n text r' ∧ r'.blocks = r.blocks ∧ r'.current = some b := by
      by_cases hcode : (SourceLine.ofText text).code = []
      · exact ⟨_, .layout hcode, blocks_stepLayout .., by rw [current_stepLayout, hb]⟩
      · exact ⟨_, .enters hb hcode hfirst (.setting hsettings) trivial, rfl, rfl⟩
    obtain ⟨r', hmove, hblocks, hcurrent⟩ := hmove
    obtain ⟨pending, hrun⟩ := ih (n := n + 1) hcurrent hrest
    exact ⟨pending, run_cons_eq_ok_iff.mpr ⟨r', hmove, by rw [hrun, hblocks]⟩⟩

/-- **A block of settings** is what its header says, whatever stands inside. -/
theorem run_settings {b : Block} {close : List Char} {body : List (List Char)}
    (hb : r.current = some b) (hsettings : b.keyword.isSettings = true)
    (hinside : ∀ text ∈ body, IsInside text) (hclose : (SourceLine.ofText close).code = ['}']) :
    r.run n (body ++ [close]) = .ok { blocks := r.blocks ++ [b] } := by
  obtain ⟨pending, hrun⟩ := exists_run_inside_settings (n := n) hb hsettings hinside
  exact run_append_of_ok hrun (run_singleton_eq_ok_iff.mpr (.closes rfl hclose))

end BlockReader

namespace Block

variable {texts before part after : List (List Char)} {bs : List Block} {b c : Block}

/-- **Every block that is read takes up lines of the text**, and no block is open above them. -/
theorem isFoundIn_of_ofLines (h : ofLines texts = .ok bs) : ∀ b ∈ bs, b.IsFoundIn texts := by
  obtain ⟨pending, hrun⟩ := ofLines_eq_ok_iff.mp h
  exact (BlockReader.isWrittenIn_of_run hrun).blocks

/-- No block is open above the lines that a block takes up. -/
theorem TakesUp.endsOutside (htakes : b.TakesUp texts before part after)
    (h : ofLines texts = .ok bs) (hb : b ∈ bs) : EndsOutside before := by
  obtain ⟨before', part', after', houtside, htakes'⟩ := isFoundIn_of_ofLines h b hb
  have hlength : before'.length = before.length :=
    Nat.succ.inj (htakes'.line.symm.trans htakes.line)
  obtain ⟨rfl, -⟩ := List.append_inj (htakes'.lines.symm.trans htakes.lines) hlength
  exact houtside

/-- Blocks on one line are one block. -/
theorem eq_of_line_eq (h : ofLines texts = .ok bs) (hb : b ∈ bs) (hc : c ∈ bs)
    (hline : b.line = c.line) : b = c := by
  have hnodup : (bs.map Block.line).Nodup :=
    List.pairwise_map.mpr ((pairwise_line_of_ofLines h).imp fun hlt => hlt.ne)
  exact List.inj_on_of_nodup_map hnodup hb hc hline

end Block

end SchemaDiagram
