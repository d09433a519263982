import Mathlib.Data.List.Induction
import SchemaDiagram.Proofs.Block.Entry

/-!
# Runs over the lines

What holds of the blocks of a text is shown here once for all properties. A property of blocks holds
of every block that is read if it holds of a block that a header opens and is kept when an entry is
added (`Block.forall_of_ofLines`); both may use the line that is being read, its number, and the
form of the documentation above it. An error, on the other hand, always names a line of the text
(`Block.exists_line_of_ofLines`).
-/

namespace SchemaDiagram

/-- The form of a documentation text: it is not empty, and what stands between its line feeds is
stripped and has no line end of its own. -/
def IsDocumentation (d : String) : Prop :=
  d ≠ "" ∧ ∀ l ∈ Text.splitAtFeeds d.toList, Text.IsStripped l ∧ Text.IsOneLine l

/-- Whether the text is the line of the given number. The first line has number one. -/
def IsLine (texts : List (List Char)) (n : Nat) (text : List Char) : Prop :=
  1 ≤ n ∧ texts[n - 1]? = some text

theorem IsLine.mem {texts : List (List Char)} {n : Nat} {text : List Char}
    (h : IsLine texts n text) : text ∈ texts :=
  List.mem_of_getElem? h.2

theorem IsLine.le_length {texts : List (List Char)} {n : Nat} {text : List Char}
    (h : IsLine texts n text) : n ≤ texts.length := by
  obtain ⟨hn, hget⟩ := h
  obtain ⟨hlt, -⟩ := List.getElem?_eq_some_iff.mp hget
  omega

/-- The line after those that are done. -/
theorem isLine_append_cons (done : List (List Char)) (text : List Char)
    (rest : List (List Char)) : IsLine (done ++ text :: rest) (done.length + 1) text := by
  refine ⟨by omega, ?_⟩
  rw [Nat.add_sub_cancel, List.getElem?_append_right (le_refl _), Nat.sub_self]
  rfl

namespace BlockReader

/-! ## One line after the other -/

theorem run_cons_eq_ok_iff {r r' : BlockReader} {line : Nat} {text : List Char}
    {texts : List (List Char)} :
    r.run line (text :: texts) = .ok r' ↔
      ∃ m, Move r line text m ∧ m.run (line + 1) texts = .ok r' := by
  rw [run]
  cases hstep : r.step line text with
  | error cause =>
    refine iff_of_false (by simp) ?_
    rintro ⟨m, hmove, -⟩
    rw [step_eq_ok_iff.mpr hmove] at hstep
    simp at hstep
  | ok m =>
    constructor
    · intro h
      exact ⟨m, step_eq_ok_iff.mp hstep, h⟩
    · rintro ⟨m', hmove, h⟩
      rw [step_eq_ok_iff.mpr hmove, Except.ok.injEq] at hstep
      rwa [hstep] at h

theorem run_singleton_eq_ok_iff {r r' : BlockReader} {line : Nat} {text : List Char} :
    r.run line [text] = .ok r' ↔ Move r line text r' := by
  rw [run_cons_eq_ok_iff]
  simp

theorem run_append_eq_ok_iff {r r' : BlockReader} {line : Nat} {a b : List (List Char)} :
    r.run line (a ++ b) = .ok r' ↔
      ∃ m, r.run line a = .ok m ∧ m.run (line + a.length) b = .ok r' := by
  rw [run_append]
  cases r.run line a <;> simp

/-- Runs over two stretches of lines make a run over both. -/
theorem run_append_of_ok {r m r' : BlockReader} {line : Nat} {a b : List (List Char)}
    (ha : r.run line a = .ok m) (hb : m.run (line + a.length) b = .ok r') :
    r.run line (a ++ b) = .ok r' :=
  run_append_eq_ok_iff.mpr ⟨m, ha, hb⟩

/-- **Induction over the lines of a run.** The last of them meets the reader that the others leave
behind. -/
theorem run_induction {P : List (List Char) → BlockReader → Prop} (hstart : P [] {})
    (hmove : ∀ texts text r m, BlockReader.run {} 1 texts = .ok r → P texts r →
      Move r (texts.length + 1) text m → P (texts ++ [text]) m)
    {texts : List (List Char)} {r : BlockReader} (h : BlockReader.run {} 1 texts = .ok r) :
    P texts r := by
  induction texts using List.reverseRecOn generalizing r with
  | nil =>
    rw [run_nil, Except.ok.injEq] at h
    rwa [← h]
  | append_singleton texts text ih =>
    obtain ⟨r', hrun, hlast⟩ := run_append_eq_ok_iff.mp h
    have hlastMove := run_singleton_eq_ok_iff.mp hlast
    rw [Nat.add_comm] at hlastMove
    exact hmove texts text r' r hrun (ih hrun) hlastMove

/-- **Invariants of a run.** What every line keeps holds after all of them. The number of the line
is one more than the number of the lines before it. -/
theorem run_invariant {P : BlockReader → Prop} {texts : List (List Char)}
    (hmove : ∀ n text r r', IsLine texts n text → P r → Move r n text r' → P r')
    {r r' : BlockReader} (hr : P r) (h : r.run 1 texts = .ok r') : P r' := by
  have key : ∀ (rest done : List (List Char)) (r : BlockReader), texts = done ++ rest → P r →
      r.run (done.length + 1) rest = .ok r' → P r' := by
    intro rest
    induction rest with
    | nil =>
      rintro done r - hr h
      rw [run_nil, Except.ok.injEq] at h
      rwa [← h]
    | cons text rest ih =>
      rintro done r rfl hr h
      obtain ⟨m, hm, hrest⟩ := run_cons_eq_ok_iff.mp h
      have hlength : (done ++ [text]).length = done.length + 1 := by simp
      refine ih (done ++ [text]) m (by simp)
        (hmove _ _ _ _ (isLine_append_cons done text rest) hr hm) ?_
      rwa [hlength]
  exact key texts [] r rfl hr h

/-- A run fails on the first line that cannot be read. -/
theorem exists_step_of_run {r : BlockReader} {line : Nat} {texts : List (List Char)}
    {e : SchemaError} (h : r.run line texts = .error e) :
    ∃ before text after m cause, texts = before ++ text :: after ∧
      r.run line before = .ok m ∧ m.step (line + before.length) text = .error cause ∧
        e = .atLine (line + before.length) cause := by
  induction texts generalizing r line with
  | nil => simp at h
  | cons text texts ih =>
    rw [run] at h
    cases hstep : r.step line text with
    | error cause =>
      rw [hstep] at h
      exact ⟨[], text, texts, r, cause, rfl, rfl, hstep, (Except.error.inj h).symm⟩
    | ok r' =>
      rw [hstep] at h
      obtain ⟨before, text', after, m, cause, rfl, hrun, hfails, rfl⟩ := ih h
      refine ⟨text :: before, text', after, m, cause, rfl, ?_, ?_, ?_⟩
      · rw [run, hstep]
        exact hrun
      · rwa [List.length_cons, ← Nat.add_assoc, Nat.add_right_comm]
      · rw [List.length_cons, ← Nat.add_assoc, Nat.add_right_comm]

/-- A run fails on one of its lines. -/
theorem exists_line_of_run {r : BlockReader} {line : Nat} {texts : List (List Char)}
    {e : SchemaError} (h : r.run line texts = .error e) :
    ∃ n cause, e = .atLine n cause ∧ line ≤ n ∧ n < line + texts.length := by
  obtain ⟨before, text, after, m, cause, rfl, -, -, rfl⟩ := exists_step_of_run h
  refine ⟨line + before.length, cause, rfl, by omega, ?_⟩
  rw [List.length_append, List.length_cons]
  omega

/-! ## The documentation that waits -/

/-- Whether the waiting lines have the form of documentation lines. -/
def WaitsInForm (r : BlockReader) : Prop :=
  ∀ l ∈ r.pending, Text.IsStripped l ∧ Text.IsOneLine l

/-- What waits in form is documentation. -/
theorem WaitsInForm.isDocumentation {r : BlockReader} (hr : r.WaitsInForm) :
    ∀ d ∈ r.documentation, IsDocumentation d := by
  intro d hd
  rw [documentation] at hd
  split at hd
  · simp at hd
  · next hne =>
    rw [Option.mem_def, Option.some.injEq] at hd
    subst hd
    refine ⟨fun hempty => hne (by rw [hempty]; rfl), ?_⟩
    cases hp : r.pending with
    | nil =>
      rw [hp] at hne
      exact absurd rfl hne
    | cons l ls =>
      rw [WaitsInForm, hp] at hr
      have hfeeds : ∀ m ∈ (l :: ls).map String.ofList, '\n' ∉ m.toList := by
        intro m hm
        obtain ⟨k, hk, rfl⟩ := List.mem_map.mp hm
        rw [String.toList_ofList]
        exact Text.feed_not_mem_of_isOneLine (hr k hk).2
      have hsplit := Text.splitAtFeeds_joinLines hfeeds
      rw [← List.map_cons, List.map_map] at hsplit
      rw [hsplit]
      intro k hk
      obtain ⟨m, hm, rfl⟩ := List.mem_map.mp hk
      rw [Function.comp_apply, String.toList_ofList]
      exact hr m hm

theorem isOneLine_comment {line text : List Char} (h : Text.IsOneLine line)
    (hc : (SourceLine.ofText line).comment = some text) : Text.IsOneLine text := by
  have hcut : (SourceLine.cut .outside line).2 = some text := hc
  have hline := SourceLine.append_written_cut .outside line
  rw [hcut, SourceLine.written] at hline
  rw [← hline, Text.isOneLine_append] at h
  exact (Text.isOneLine_cons.mp (Text.isOneLine_cons.mp h.2).2).2

/-- A line without code keeps the waiting lines in form. -/
theorem WaitsInForm.stepLayout {r : BlockReader} (hr : r.WaitsInForm) {text : List Char}
    (htext : Text.IsOneLine text) :
    (r.stepLayout (SourceLine.ofText text).comment).WaitsInForm := by
  intro l hl
  rcases hc : (SourceLine.ofText text).comment with _ | comment
  · rw [hc] at hl
    simp [BlockReader.stepLayout] at hl
  · have hcomment := isOneLine_comment htext hc
    rw [hc] at hl
    unfold BlockReader.stepLayout at hl
    split at hl
    · simp at hl
    · next doc heq =>
      rw [Option.some.injEq] at heq
      subst heq
      rcases List.mem_append.mp hl with hl | hl
      · exact hr l hl
      · rw [List.mem_singleton] at hl
        subst hl
        refine ⟨Text.isStripped_strip doc, fun c hmem => ?_⟩
        exact (Text.isOneLine_cons.mp hcomment).2 c (Text.mem_of_mem_strip hmem)
    · exact hr l hl

/-! ## Properties of all blocks -/

/-- Whether the property holds of all blocks, the open one included. -/
def Forall (p : Block → Prop) (r : BlockReader) : Prop :=
  (∀ b ∈ r.blocks, p b) ∧ ∀ b ∈ r.current, p b

end BlockReader

section

variable {p : Block → Prop} {texts : List (List Char)}

/-- Whether every block that is opened by a line of the text has the property. -/
def HoldsWhenOpened (texts : List (List Char)) (p : Block → Prop) : Prop :=
  ∀ n text k name isClosed doc, IsLine texts n text →
    HeaderLine.Spells ⟨Keyword.word k, name, isClosed⟩ (SourceLine.ofText text).code →
      (∀ d ∈ doc, IsDocumentation d) → p (Block.opened k name n doc)

/-- Whether the property is kept by every entry that a line of the text adds. -/
def KeptByEntries (texts : List (List Char)) (p : Block → Prop) : Prop :=
  ∀ n text b e doc, IsLine texts n text → p b →
    Entry.Reads b.keyword (SourceLine.ofText text).code e → b.Admits e →
      (∀ d ∈ doc, IsDocumentation d) → p (b.add n doc e)

/-- One line keeps a property of all blocks. -/
theorem BlockReader.Move.forall {n : Nat} {text : List Char} {r r' : BlockReader}
    (hopen : HoldsWhenOpened texts p) (hadd : KeptByEntries texts p)
    (hone : ∀ t ∈ texts, Text.IsOneLine t) (hline : IsLine texts n text)
    (hr : r.Forall p ∧ r.WaitsInForm) (h : r.Move n text r') : r'.Forall p ∧ r'.WaitsInForm := by
  obtain ⟨⟨hblocks, hcurrent⟩, hwaits⟩ := hr
  have hdoc := hwaits.isDocumentation
  have hnone : ∀ blocks current, BlockReader.WaitsInForm ⟨blocks, current, []⟩ := by
    intro blocks current l hl
    simp at hl
  have hsnoc : ∀ b, p b → ∀ b' ∈ r.blocks ++ [b], p b' := by
    intro b hb b' hb'
    rcases List.mem_append.mp hb' with hb' | hb'
    · exact hblocks b' hb'
    · rwa [List.mem_singleton.mp hb']
  cases h with
  | layout hcode =>
    refine ⟨⟨?_, ?_⟩, hwaits.stepLayout (hone text hline.mem)⟩
    · rwa [BlockReader.blocks_stepLayout]
    · rwa [BlockReader.current_stepLayout]
  | opens _ hspells =>
    refine ⟨⟨hblocks, ?_⟩, hnone _ _⟩
    rintro b hb
    rw [Option.mem_def, Option.some.injEq] at hb
    subst hb
    exact hopen n text _ _ _ _ hline hspells hdoc
  | empty _ hspells =>
    exact ⟨⟨hsnoc _ (hopen n text _ _ _ _ hline hspells hdoc), by simp⟩, hnone _ _⟩
  | closes hb _ => exact ⟨⟨hsnoc _ (hcurrent _ hb), by simp⟩, hnone _ _⟩
  | enters hb _ _ hreads hadmits =>
    refine ⟨⟨hblocks, ?_⟩, hnone _ _⟩
    rintro b' hb'
    rw [Option.mem_def, Option.some.injEq] at hb'
    subst hb'
    exact hadd n text _ _ _ hline (hcurrent _ hb) hreads hadmits hdoc

/-- A property of all blocks, after any number of lines. -/
theorem BlockReader.forall_of_run {r : BlockReader} (hopen : HoldsWhenOpened texts p)
    (hadd : KeptByEntries texts p) (hone : ∀ t ∈ texts, Text.IsOneLine t)
    (h : BlockReader.run {} 1 texts = .ok r) : r.Forall p := by
  have hstart : BlockReader.Forall p {} ∧ BlockReader.WaitsInForm {} :=
    ⟨⟨by simp, by simp⟩, fun l hl => by simp at hl⟩
  refine (run_invariant (P := fun r => r.Forall p ∧ r.WaitsInForm) ?_ hstart h).1
  intro n text r r' hline hr hmove
  exact hmove.forall hopen hadd hone hline hr

theorem Block.ofLines_eq_ok_iff {bs : List Block} :
    Block.ofLines texts = .ok bs ↔
      ∃ pending, BlockReader.run {} 1 texts = .ok { blocks := bs, current := none, pending } := by
  rw [Block.ofLines]
  rcases hrun : BlockReader.run {} 1 texts with e | ⟨blocks, _ | b, pending⟩
  · simp
  · simp [BlockReader.finish]
  · simp [BlockReader.finish]

/-- **Properties of the blocks of a text.** -/
theorem Block.forall_of_ofLines {bs : List Block} (hopen : HoldsWhenOpened texts p)
    (hadd : KeptByEntries texts p) (hone : ∀ t ∈ texts, Text.IsOneLine t)
    (h : Block.ofLines texts = .ok bs) : ∀ b ∈ bs, p b := by
  obtain ⟨pending, hrun⟩ := Block.ofLines_eq_ok_iff.mp h
  exact (BlockReader.forall_of_run hopen hadd hone hrun).1

end

/-! ## Field names -/

/-- An admitted entry keeps the names of the fields distinct. -/
theorem Block.nodup_add {b : Block} {e : Entry} (hb : (b.fields.map FieldDecl.name).Nodup) (n : Nat)
    (doc : Option String) (hadmits : b.Admits e) :
    ((b.add n doc e).fields.map FieldDecl.name).Nodup := by
  cases e with
  | field f as =>
    rw [Block.add, List.map_append, List.nodup_append]
    refine ⟨hb, by simp, ?_⟩
    rintro name hname name' hname' rfl
    rw [List.map_singleton, List.mem_singleton] at hname'
    subst hname'
    exact hadmits hname
  | _ => exact hb

/-- **The fields of a block have distinct names.** -/
theorem Block.nodup_of_ofLines {texts : List (List Char)} {bs : List Block}
    (hone : ∀ t ∈ texts, Text.IsOneLine t) (h : Block.ofLines texts = .ok bs) :
    ∀ b ∈ bs, (b.fields.map FieldDecl.name).Nodup := by
  refine Block.forall_of_ofLines ?_ ?_ hone h
  · intro n text k name isClosed doc _ _ _
    simp [Block.opened]
  · intro n text b e doc _ hb _ hadmits _
    exact Block.nodup_add hb n doc hadmits

/-! ## Where a block stands -/

/-- Whether the line that the block remembers is its header. -/
def Block.IsHeadedIn (texts : List (List Char)) (b : Block) : Prop :=
  ∃ text isClosed, IsLine texts b.line text ∧
    HeaderLine.Spells ⟨b.keyword.word, b.name, isClosed⟩ (SourceLine.ofText text).code

theorem Block.holdsWhenOpened_isHeadedIn (texts : List (List Char)) :
    HoldsWhenOpened texts (Block.IsHeadedIn texts) := by
  intro n text k name isClosed doc hline hspells _
  exact ⟨text, isClosed, hline, hspells⟩

theorem Block.keptByEntries_isHeadedIn (texts : List (List Char)) :
    KeptByEntries texts (Block.IsHeadedIn texts) := by
  intro n text b e doc _ hb _ _ _
  rw [IsHeadedIn, add_line, add_keyword, add_name]
  exact hb

/-- **Every block remembers the line of its header.** -/
theorem Block.isHeadedIn_of_ofLines {texts : List (List Char)} {bs : List Block}
    (hone : ∀ t ∈ texts, Text.IsOneLine t) (h : Block.ofLines texts = .ok bs) :
    ∀ b ∈ bs, b.IsHeadedIn texts :=
  Block.forall_of_ofLines (Block.holdsWhenOpened_isHeadedIn texts)
    (Block.keptByEntries_isHeadedIn texts) hone h

/-! ## Where an error is met -/

/-- Whether the block stands on lines of the text, and its fields too. -/
structure Block.StandsIn (texts : List (List Char)) (b : Block) : Prop where
  line : 1 ≤ b.line ∧ b.line ≤ texts.length
  fields : ∀ f ∈ b.fields, 1 ≤ f.line ∧ f.line ≤ texts.length

theorem Block.holdsWhenOpened_standsIn (texts : List (List Char)) :
    HoldsWhenOpened texts (Block.StandsIn texts) := by
  intro n text k name isClosed doc hline _ _
  exact ⟨⟨hline.1, hline.le_length⟩, by simp [Block.opened]⟩

theorem Block.keptByEntries_standsIn (texts : List (List Char)) :
    KeptByEntries texts (Block.StandsIn texts) := by
  intro n text b e doc hline hb _ _ _
  refine ⟨by rw [Block.add_line]; exact hb.line, fun f hf => ?_⟩
  cases e with
  | setting => exact hb.fields f hf
  | attributes as => exact hb.fields f hf
  | value name => exact hb.fields f hf
  | field fl as =>
    rcases List.mem_append.mp hf with hf | hf
    · exact hb.fields f hf
    · rw [List.mem_singleton.mp hf]
      exact ⟨hline.1, hline.le_length⟩

/-- **Errors of the first pass.** Each of them is met on a line of the text. -/
theorem Block.exists_line_of_ofLines {texts : List (List Char)} {e : SchemaError}
    (hone : ∀ t ∈ texts, Text.IsOneLine t) (h : Block.ofLines texts = .error e) :
    ∃ n cause, e = .atLine n cause ∧ 1 ≤ n ∧ n ≤ texts.length := by
  rw [Block.ofLines] at h
  cases hrun : BlockReader.run {} 1 texts with
  | error e' =>
    rw [hrun] at h
    obtain ⟨n, cause, rfl, hle, hlt⟩ := BlockReader.exists_line_of_run hrun
    exact ⟨n, cause, (Except.error.inj h).symm, hle, by omega⟩
  | ok r =>
    have hstands := BlockReader.forall_of_run (Block.holdsWhenOpened_standsIn texts)
      (Block.keptByEntries_standsIn texts) hone hrun
    simp only [hrun, BlockReader.finish] at h
    split at h
    · simp at h
    · next b hcurrent =>
      obtain ⟨hle, hlt⟩ := (hstands.2 b hcurrent).line
      exact ⟨b.line, _, (Except.error.inj h).symm, hle, hlt⟩

end SchemaDiagram
