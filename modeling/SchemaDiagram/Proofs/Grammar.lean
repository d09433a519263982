import SchemaDiagram.Proofs.Block.Run

/-!
# The grammar of blocks

The form of a text is a matter of its lines of code alone: comments, documentation and empty lines
are no part of it. `Spelled ws codes` says that the lines of code split completely, in order, into
the given blocks, where a block is either one line or a header, a body and a closing line. It knows
neither a reader nor a state. That the first pass accepts a text exactly if its lines of code are
spelled by some blocks, none of which has two fields of one name, is `Block.ofLines_spelled` in one
direction and `Block.exists_ofLines_of_spelled` in the other, and both say which blocks were read.
-/

namespace SchemaDiagram

/-- The lines of code of a text, given by its lines. -/
def codeLines (texts : List (List Char)) : List (List Char) :=
  (texts.map fun text => (SourceLine.ofText text).code).filter (· ≠ [])

/-- A block as it is written: what its header says, and the entries of its body. -/
structure WrittenBlock where
  keyword : Keyword
  name : String
  entries : List Entry := []

/-- The block as lines of code. -/
inductive WrittenBlock.Spells : WrittenBlock → List (List Char) → Prop where
  /-- An empty block on one line. -/
  | empty {k : Keyword} {name : String} {code : List Char} :
      HeaderLine.Spells ⟨k.word, name, true⟩ code → Spells { keyword := k, name } [code]
  /-- A header, a body without a closing line, and a closing line. -/
  | block {k : Keyword} {name : String} {code : List Char} {body : List (List Char)}
      {entries : List Entry} :
      HeaderLine.Spells ⟨k.word, name, false⟩ code → ['}'] ∉ body →
        List.Forall₂ (Entry.Reads k) body entries →
          Spells { keyword := k, name, entries } (code :: (body ++ [['}']]))

/-- The lines of code split completely, in order, into the blocks. -/
def Spelled (ws : List WrittenBlock) (codes : List (List Char)) : Prop :=
  ∃ parts, List.Forall₂ WrittenBlock.Spells ws parts ∧ codes = parts.flatten

/-! ## What the entries of a block amount to -/

/-- The fields that the entry declares, without the place where it stands. -/
def Entry.fields : Entry → List FieldDecl
  | .field f as => [f.decl 0 none as]
  | _ => []

/-- The values that the entry declares. -/
def Entry.values : Entry → List String
  | .value name => [name]
  | _ => []

/-- The block attributes of the entry. -/
def Entry.blockAttributes : Entry → List Attribute
  | .attributes as => as
  | _ => []

namespace WrittenBlock

/-- The fields of the block, without the places where they stand. -/
def fields (w : WrittenBlock) : List FieldDecl :=
  w.entries.flatMap Entry.fields

/-- The block that is read, without the places where it and its fields stand. -/
def block (w : WrittenBlock) : Block :=
  { keyword := w.keyword, name := w.name, line := 0, fields := w.fields,
    values := w.entries.flatMap Entry.values,
    attributes := w.entries.flatMap Entry.blockAttributes }

/-- The block with one more entry. -/
def snoc (w : WrittenBlock) (e : Entry) : WrittenBlock :=
  { w with entries := w.entries ++ [e] }

@[simp] theorem snoc_keyword (w : WrittenBlock) (e : Entry) : (w.snoc e).keyword = w.keyword := rfl

@[simp] theorem snoc_name (w : WrittenBlock) (e : Entry) : (w.snoc e).name = w.name := rfl

end WrittenBlock

/-- The field without the place where it stands: its line and the documentation above it. -/
def FieldDecl.bare (f : FieldDecl) : FieldDecl :=
  { f with line := 0, documentation := none }

/-- The block without the places where it and its fields stand. -/
def Block.bare (b : Block) : Block :=
  { b with line := 0, documentation := none, fields := b.fields.map FieldDecl.bare }

@[simp] theorem Block.bare_opened (k : Keyword) (name : String) (line : Nat)
    (doc : Option String) :
    (Block.opened k name line doc).bare = WrittenBlock.block { keyword := k, name } := rfl

theorem Block.bare_add {b : Block} {w : WrittenBlock} (h : b.bare = w.block) (line : Nat)
    (doc : Option String) (e : Entry) : (b.add line doc e).bare = (w.snoc e).block := by
  obtain ⟨k, name, n, d, fields, values, attributes⟩ := b
  obtain ⟨hk, hname, -, -, hfields, hvalues, hattributes⟩ := Block.mk.inj h
  simp only at hk hname hvalues hattributes
  subst hk hname hvalues hattributes
  cases e <;>
    simp [Block.add, Block.bare, WrittenBlock.block, WrittenBlock.snoc, WrittenBlock.fields,
      Entry.fields, Entry.values, Entry.blockAttributes, hfields, FieldLine.decl, FieldDecl.bare]

theorem Block.keyword_of_bare {b : Block} {w : WrittenBlock} (h : b.bare = w.block) :
    b.keyword = w.keyword :=
  congrArg Block.keyword h

/-- Field names do not depend on where the fields stand. -/
theorem Block.fieldNames_of_bare {b : Block} {w : WrittenBlock} (h : b.bare = w.block) :
    b.fields.map FieldDecl.name = w.fields.map FieldDecl.name := by
  have hfields : b.fields.map FieldDecl.bare = w.fields := congrArg Block.fields h
  rw [← hfields, List.map_map]
  rfl

/-! ## What is left of a text -/

/-- What the rest of a text spells when the given block is open: the rest of its body and the
closing line, and then further blocks. -/
def Remaining : Option WrittenBlock → List (List Char) → List WrittenBlock → Prop
  | none, codes, ws => Spelled ws codes
  | some w, codes, ws =>
    ∃ body entries rest ws', codes = body ++ ['}'] :: rest ∧ ['}'] ∉ body ∧
      List.Forall₂ (Entry.Reads w.keyword) body entries ∧ Spelled ws' rest ∧
        ws = { w with entries := w.entries ++ entries } :: ws'

theorem spelled_nil_iff {ws : List WrittenBlock} : Spelled ws [] ↔ ws = [] := by
  constructor
  · rintro ⟨parts, hparts, hcodes⟩
    cases hparts with
    | nil => rfl
    | cons hw _ =>
      rw [List.flatten_cons, eq_comm, List.append_eq_nil_iff] at hcodes
      cases hw <;> simp at hcodes
  · rintro rfl
    exact ⟨[], .nil, rfl⟩

theorem Spelled.cons {w : WrittenBlock} {ws : List WrittenBlock} {part codes : List (List Char)}
    (hw : w.Spells part) (h : Spelled ws codes) : Spelled (w :: ws) (part ++ codes) := by
  obtain ⟨parts, hparts, rfl⟩ := h
  exact ⟨part :: parts, .cons hw hparts, rfl⟩

namespace Remaining

theorem none_cons_iff {code : List Char} {codes : List (List Char)} {ws : List WrittenBlock} :
    Remaining none (code :: codes) ws ↔
      (∃ k : Keyword, ∃ name ws', HeaderLine.Spells ⟨k.word, name, true⟩ code ∧
        Remaining none codes ws' ∧ ws = { keyword := k, name } :: ws') ∨
      ∃ k : Keyword, ∃ name, HeaderLine.Spells ⟨k.word, name, false⟩ code ∧
        Remaining (some { keyword := k, name }) codes ws := by
  constructor
  · rintro ⟨parts, hparts, hcodes⟩
    cases hparts with
    | nil => simp at hcodes
    | @cons w part ws' parts' hw hrest =>
      rw [List.flatten_cons] at hcodes
      cases hw with
      | @empty k name header hspells =>
        obtain ⟨rfl, rfl⟩ := List.cons.inj hcodes
        exact Or.inl ⟨k, name, ws', hspells, ⟨parts', hrest, rfl⟩, rfl⟩
      | @block k name header body entries hspells hbody hreads =>
        rw [List.cons_append, List.append_assoc, List.singleton_append] at hcodes
        obtain ⟨rfl, rfl⟩ := List.cons.inj hcodes
        exact Or.inr ⟨k, name, hspells, body, entries, parts'.flatten, ws', rfl, hbody, hreads,
          ⟨parts', hrest, rfl⟩, rfl⟩
  · rintro (⟨k, name, ws', hspells, hrest, rfl⟩ | ⟨k, name, hspells, hrest⟩)
    · exact Spelled.cons (.empty hspells) hrest
    · obtain ⟨body, entries, rest, ws', rfl, hbody, hreads, hrest, rfl⟩ := hrest
      have := Spelled.cons (.block hspells hbody hreads) hrest
      rwa [List.cons_append, List.append_assoc, List.singleton_append] at this

theorem not_some_nil {w : WrittenBlock} {ws : List WrittenBlock} : ¬ Remaining (some w) [] ws := by
  rintro ⟨body, entries, rest, ws', hcodes, -⟩
  simp at hcodes

theorem some_close_iff {w : WrittenBlock} {codes : List (List Char)} {ws : List WrittenBlock} :
    Remaining (some w) (['}'] :: codes) ws ↔ ∃ ws', Remaining none codes ws' ∧ ws = w :: ws' := by
  constructor
  · rintro ⟨body, entries, rest, ws', hcodes, hbody, hreads, hrest, rfl⟩
    cases hreads with
    | nil =>
      obtain ⟨-, rfl⟩ := List.cons.inj hcodes
      exact ⟨ws', hrest, by rw [List.append_nil]⟩
    | cons _ _ =>
      obtain ⟨rfl, -⟩ := List.cons.inj hcodes
      simp at hbody
  · rintro ⟨ws', hrest, rfl⟩
    exact ⟨[], [], codes, ws', rfl, by simp, .nil, hrest, by rw [List.append_nil]⟩

theorem some_cons_iff {w : WrittenBlock} {code : List Char} {codes : List (List Char)}
    {ws : List WrittenBlock} (hcode : code ≠ ['}']) :
    Remaining (some w) (code :: codes) ws ↔
      ∃ e, Entry.Reads w.keyword code e ∧ Remaining (some (w.snoc e)) codes ws := by
  constructor
  · rintro ⟨body, entries, rest, ws', hcodes, hbody, hreads, hrest, rfl⟩
    cases hreads with
    | nil =>
      obtain ⟨rfl, -⟩ := List.cons.inj hcodes
      exact absurd rfl hcode
    | @cons c e body' entries' he hreads =>
      obtain ⟨rfl, rfl⟩ := List.cons.inj hcodes
      refine ⟨e, he, body', entries', rest, ws', rfl, ?_, hreads, hrest, ?_⟩
      · exact fun hmem => hbody (List.mem_cons_of_mem _ hmem)
      · simp [WrittenBlock.snoc]
  · rintro ⟨e, he, body, entries, rest, ws', rfl, hbody, hreads, hrest, rfl⟩
    refine ⟨code :: body, e :: entries, rest, ws', rfl, ?_, .cons he hreads, hrest, ?_⟩
    · simp only [List.mem_cons, not_or]
      exact ⟨Ne.symm hcode, hbody⟩
    · simp [WrittenBlock.snoc]

/-- The block that is open is the first one of the rest, with the entries it has already. -/
theorem exists_head {w : WrittenBlock} {codes : List (List Char)} {ws : List WrittenBlock}
    (h : Remaining (some w) codes ws) :
    ∃ entries, { w with entries := w.entries ++ entries } ∈ ws := by
  obtain ⟨body, entries, rest, ws', -, -, -, -, rfl⟩ := h
  exact ⟨entries, List.mem_cons_self ..⟩

end Remaining

/-! ## The reader and the grammar -/

theorem codeLines_cons_of_nil {text : List Char} {texts : List (List Char)}
    (h : (SourceLine.ofText text).code = []) : codeLines (text :: texts) = codeLines texts := by
  simp [codeLines, h]

theorem codeLines_cons_of_ne_nil {text : List Char} {texts : List (List Char)}
    (h : (SourceLine.ofText text).code ≠ []) :
    codeLines (text :: texts) = (SourceLine.ofText text).code :: codeLines texts := by
  simp [codeLines, h]

namespace BlockReader

/-- Whether the block that is open is the given one, but for the places where it stands. -/
def Shows (r : BlockReader) (o : Option WrittenBlock) : Prop :=
  r.current.map Block.bare = o.map WrittenBlock.block

theorem shows_none {r : BlockReader} {o : Option WrittenBlock} (h : r.Shows o)
    (hr : r.current = none) : o = none := by
  rw [Shows, hr] at h
  simpa using h.symm

theorem shows_some {r : BlockReader} {o : Option WrittenBlock} {b : Block} (h : r.Shows o)
    (hr : r.current = some b) : ∃ w, o = some w ∧ b.bare = w.block := by
  rw [Shows, hr, Option.map_some] at h
  obtain ⟨w, rfl, hw⟩ := Option.map_eq_some_iff.mp h.symm
  exact ⟨w, rfl, hw.symm⟩

theorem shows_closed (blocks : List Block) : Shows { blocks } none := rfl

theorem shows_opened (blocks : List Block) (k : Keyword) (name : String) (line : Nat)
    (doc : Option String) :
    Shows { blocks, current := some (Block.opened k name line doc) }
      (some { keyword := k, name }) := rfl

theorem shows_add (blocks : List Block) {b : Block} {w : WrittenBlock} (hw : b.bare = w.block)
    (line : Nat) (doc : Option String) (e : Entry) :
    Shows { blocks, current := some (b.add line doc e) } (some (w.snoc e)) :=
  congrArg some (Block.bare_add hw line doc e)

/-- The blocks that have been read, and those that the rest of the text spells. -/
def total (r : BlockReader) (ws : List WrittenBlock) : List Block :=
  r.blocks.map Block.bare ++ ws.map WrittenBlock.block

/-- **A move and the grammar.** What the rest spells after a move, the line and the rest spell
before it. -/
theorem Move.spelled {r m : BlockReader} {o : Option WrittenBlock} {line : Nat} {text : List Char}
    (ho : r.Shows o) (hmove : Move r line text m) (texts : List (List Char)) :
    ∃ o', m.Shows o' ∧ ∀ ws', Remaining o' (codeLines texts) ws' →
      ∃ ws, Remaining o (codeLines (text :: texts)) ws ∧ m.total ws' = r.total ws := by
  cases hmove with
  | layout hcode =>
    refine ⟨o, by rw [Shows, current_stepLayout]; exact ho, fun ws' hrest => ⟨ws', ?_, ?_⟩⟩
    · rwa [codeLines_cons_of_nil hcode]
    · rw [total, total, blocks_stepLayout]
  | @opens k name hcurrent hspells =>
    refine ⟨_, shows_opened _ k name _ _, fun ws' hrest => ⟨ws', ?_, rfl⟩⟩
    rw [shows_none ho hcurrent, codeLines_cons_of_ne_nil hspells.ne_nil]
    exact Remaining.none_cons_iff.mpr (Or.inr ⟨k, name, hspells, hrest⟩)
  | @empty k name hcurrent hspells =>
    refine ⟨_, shows_closed _, fun ws' hrest => ⟨{ keyword := k, name } :: ws', ?_, ?_⟩⟩
    · rw [shows_none ho hcurrent, codeLines_cons_of_ne_nil hspells.ne_nil]
      exact Remaining.none_cons_iff.mpr (Or.inl ⟨k, name, ws', hspells, hrest, rfl⟩)
    · simp [total]
  | @closes b hcurrent hclose =>
    obtain ⟨w, rfl, hw⟩ := shows_some ho hcurrent
    refine ⟨_, shows_closed _, fun ws' hrest => ⟨w :: ws', ?_, by simp [total, hw]⟩⟩
    rw [codeLines_cons_of_ne_nil (by simp [hclose]), hclose]
    exact Remaining.some_close_iff.mpr ⟨ws', hrest, rfl⟩
  | @enters b e hcurrent hne hclose hreads hadmits =>
    obtain ⟨w, rfl, hw⟩ := shows_some ho hcurrent
    refine ⟨_, shows_add _ hw line r.documentation e, fun ws' hrest => ⟨ws', ?_, rfl⟩⟩
    rw [codeLines_cons_of_ne_nil hne]
    rw [Block.keyword_of_bare hw] at hreads
    exact (Remaining.some_cons_iff hclose).mpr ⟨e, hreads, hrest⟩

/-- **What is read is spelled.** -/
theorem spelled_of_run {texts : List (List Char)} {r : BlockReader} {o : Option WrittenBlock}
    {line : Nat} {bs : List Block} {pending : List (List Char)} (ho : r.Shows o)
    (h : r.run line texts = .ok { blocks := bs, current := none, pending }) :
    ∃ ws, Remaining o (codeLines texts) ws ∧ bs.map Block.bare = r.total ws := by
  induction texts generalizing r o line with
  | nil =>
    rw [run_nil, Except.ok.injEq] at h
    subst h
    rw [shows_none ho rfl]
    exact ⟨[], spelled_nil_iff.mpr rfl, by simp [total]⟩
  | cons text texts ih =>
    obtain ⟨m, hmove, hrun⟩ := run_cons_eq_ok_iff.mp h
    obtain ⟨o', ho', hback⟩ := hmove.spelled ho texts
    obtain ⟨ws', hrest, hbs⟩ := ih ho' hrun
    obtain ⟨ws, hws, htotal⟩ := hback ws' hrest
    exact ⟨ws, hws, hbs.trans htotal⟩

/-- The entries of a block without two fields of one name are admitted one after the other. -/
theorem admits_of_nodup {b : Block} {w : WrittenBlock} {e : Entry} {entries : List Entry}
    (hw : b.bare = w.block)
    (h : (WrittenBlock.fields { w.snoc e with entries := (w.snoc e).entries ++ entries }).map
      FieldDecl.name |>.Nodup) : b.Admits e := by
  cases e with
  | field f as =>
    rw [Block.Admits, Block.fieldNames_of_bare hw]
    intro hmem
    simp only [WrittenBlock.fields, WrittenBlock.snoc, List.append_assoc, List.flatMap_append,
      List.map_append, List.flatMap_cons, List.cons_append, Entry.fields, List.map_cons] at h hmem
    exact (List.nodup_append.mp h).2.2 _ hmem _ (List.mem_cons_self ..) rfl
  | _ => trivial

/-- **The grammar and a move.** Where a line and the rest of a text spell blocks, there is a move
over the line after which the rest spells what is left of them. -/
theorem exists_move_of_remaining {r : BlockReader} {o : Option WrittenBlock} {text : List Char}
    {texts : List (List Char)} {ws : List WrittenBlock} (line : Nat) (ho : r.Shows o)
    (hnodup : ∀ w ∈ ws, (w.fields.map FieldDecl.name).Nodup)
    (h : Remaining o (codeLines (text :: texts)) ws) :
    ∃ m o' ws', Move r line text m ∧ m.Shows o' ∧ Remaining o' (codeLines texts) ws' ∧
      (∀ w ∈ ws', w ∈ ws) ∧ m.total ws' = r.total ws := by
  by_cases hcode : (SourceLine.ofText text).code = []
  · rw [codeLines_cons_of_nil hcode] at h
    refine ⟨_, o, ws, .layout hcode, ?_, h, fun _ hw => hw, ?_⟩
    · rw [Shows, current_stepLayout]
      exact ho
    · rw [total, total, blocks_stepLayout]
  · rw [codeLines_cons_of_ne_nil hcode] at h
    cases o with
    | none =>
      have hcurrent : r.current = none := by simpa [Shows] using ho
      rcases Remaining.none_cons_iff.mp h with
        ⟨k, name, ws', hspells, hrest, rfl⟩ | ⟨k, name, hspells, hrest⟩
      · exact ⟨_, none, ws', .empty hcurrent hspells, shows_closed _, hrest,
          fun _ hw => List.mem_cons_of_mem _ hw, by simp [total]⟩
      · exact ⟨_, _, ws, .opens hcurrent hspells, shows_opened _ k name _ _, hrest,
          fun _ hw => hw, rfl⟩
    | some w =>
      obtain ⟨b, hcurrent, hw⟩ := Option.map_eq_some_iff.mp ho
      by_cases hclose : (SourceLine.ofText text).code = ['}']
      · rw [hclose] at h
        obtain ⟨ws', hrest, rfl⟩ := Remaining.some_close_iff.mp h
        exact ⟨_, none, ws', .closes hcurrent hclose, shows_closed _, hrest,
          fun _ hw => List.mem_cons_of_mem _ hw, by simp [total, hw]⟩
      · obtain ⟨e, hreads, hrest⟩ := (Remaining.some_cons_iff hclose).mp h
        obtain ⟨entries, hmem⟩ := hrest.exists_head
        have hadmits : b.Admits e := admits_of_nodup hw (hnodup _ hmem)
        rw [← Block.keyword_of_bare hw] at hreads
        exact ⟨_, _, ws, .enters hcurrent hcode hclose hreads hadmits, shows_add _ hw _ _ e, hrest,
          fun _ hw => hw, rfl⟩

/-- **What is spelled is read.** -/
theorem run_of_spelled {texts : List (List Char)} {r : BlockReader} {o : Option WrittenBlock}
    {ws : List WrittenBlock} (line : Nat) (ho : r.Shows o)
    (hnodup : ∀ w ∈ ws, (w.fields.map FieldDecl.name).Nodup)
    (h : Remaining o (codeLines texts) ws) :
    ∃ bs pending, r.run line texts = .ok { blocks := bs, current := none, pending } ∧
      bs.map Block.bare = r.total ws := by
  induction texts generalizing r o line ws with
  | nil =>
    cases o with
    | none =>
      rw [spelled_nil_iff.mp h]
      have hcurrent : r.current = none := by simpa [Shows] using ho
      obtain ⟨blocks, current, pending⟩ := r
      subst hcurrent
      exact ⟨blocks, pending, rfl, by simp [total]⟩
    | some w => exact absurd h Remaining.not_some_nil
  | cons text texts ih =>
    obtain ⟨m, o', ws', hmove, ho', hrest, hsub, htotal⟩ :=
      exists_move_of_remaining line ho hnodup h
    obtain ⟨bs, pending, hrun, hbs⟩ :=
      ih (line + 1) ho' (fun w hw => hnodup w (hsub w hw)) hrest
    exact ⟨bs, pending, run_cons_eq_ok_iff.mpr ⟨m, hmove, hrun⟩, hbs.trans htotal⟩

end BlockReader

namespace Block

/-- **The blocks of a text spell its lines of code.** -/
theorem ofLines_spelled {texts : List (List Char)} {bs : List Block}
    (h : ofLines texts = .ok bs) :
    ∃ ws, Spelled ws (codeLines texts) ∧ bs.map bare = ws.map WrittenBlock.block := by
  obtain ⟨pending, hrun⟩ := ofLines_eq_ok_iff.mp h
  exact BlockReader.spelled_of_run (BlockReader.shows_closed []) hrun

/-- **Every text whose lines of code are spelled by blocks is read as those blocks.** -/
theorem exists_ofLines_of_spelled {texts : List (List Char)} {ws : List WrittenBlock}
    (h : Spelled ws (codeLines texts)) (hnodup : ∀ w ∈ ws, (w.fields.map FieldDecl.name).Nodup) :
    ∃ bs, ofLines texts = .ok bs ∧ bs.map bare = ws.map WrittenBlock.block := by
  obtain ⟨bs, pending, hrun, hbs⟩ :=
    BlockReader.run_of_spelled 1 (BlockReader.shows_closed []) hnodup h
  exact ⟨bs, ofLines_eq_ok_iff.mpr ⟨pending, hrun⟩, hbs⟩

end Block
end SchemaDiagram
