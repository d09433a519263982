import SchemaDiagram.Proofs.Form
import SchemaDiagram.Proofs.Outcome
import SchemaDiagram.Schema.Block

/-!
# What a line does to a block

A line of code inside of a block adds one entry to it: a run of block attributes, a value, a field,
or, in a block of settings, nothing. `Entry.Reads` says which texts give which entry in a block of a
given keyword, `Block.add` what the entry does to the block, and `Block.addLine_eq_ok_iff` that the
reader adds exactly the entries that its line reads as. From there one step of the reader over the
lines has five forms, which `BlockReader.Move` lists (`BlockReader.step_eq_ok_iff`). Everything that
is shown about a run of the reader starts from that list.
-/

namespace SchemaDiagram

/-- What one line of the body of a block adds to it. -/
inductive Entry where
  /-- A line of settings, which adds nothing. -/
  | setting
  /-- A run of block attributes. -/
  | attributes (as : List Attribute)
  /-- A value of an enum. -/
  | value (name : String)
  /-- A field, with its attributes read. -/
  | field (f : FieldLine) (as : List Attribute)

/-- Whether the lines of a block of this keyword declare fields. -/
def Keyword.HasFields (k : Keyword) : Prop :=
  k = .model ∨ k = .view ∨ k = .type

/-- The code that gives an entry in a block of the given keyword. -/
inductive Entry.Reads (k : Keyword) (code : List Char) : Entry → Prop where
  | setting : k.isSettings = true → Reads k code .setting
  | attributes {run : List Char} {as : List Attribute} :
      k.isSettings = false → code = '@' :: '@' :: run →
        Attribute.parseRun ('@' :: run) = .ok as → Reads k code (.attributes as)
  | value {v : ValueLine} {as : List Attribute} :
      k = .enum → v.Spells code → Attribute.parseRun v.attributes = .ok as →
        Reads k code (.value v.name)
  | field {f : FieldLine} {as : List Attribute} :
      k.HasFields → f.Spells code → Attribute.parseRun f.attributes = .ok as →
        Reads k code (.field f as)

theorem Keyword.hasFields_iff (k : Keyword) :
    k.HasFields ↔ k.isSettings = false ∧ k ≠ .enum := by
  cases k <;> simp [HasFields, isSettings]

/-- The declaration of a field on the given line. -/
def FieldLine.decl (f : FieldLine) (line : Nat) (documentation : Option String)
    (as : List Attribute) : FieldDecl :=
  { line, name := f.name, type := f.type, isList := f.isList, isOptional := f.isOptional,
    attributes := as, documentation }

namespace Block

/-- The block with one more entry, which was read on the given line. -/
def add (b : Block) (line : Nat) (documentation : Option String) : Entry → Block
  | .setting => b
  | .attributes as => { b with attributes := b.attributes ++ as }
  | .value name => { b with values := b.values ++ [name] }
  | .field f as => { b with fields := b.fields ++ [f.decl line documentation as] }

/-- Whether the entry may be added to the block: the name of a field has to be a new one. -/
def Admits (b : Block) : Entry → Prop
  | .field f _ => f.name ∉ b.fields.map FieldDecl.name
  | _ => True

@[simp] theorem add_keyword (b : Block) (line : Nat) (doc : Option String) (e : Entry) :
    (b.add line doc e).keyword = b.keyword := by
  cases e <;> rfl

@[simp] theorem add_name (b : Block) (line : Nat) (doc : Option String) (e : Entry) :
    (b.add line doc e).name = b.name := by
  cases e <;> rfl

@[simp] theorem add_line (b : Block) (line : Nat) (doc : Option String) (e : Entry) :
    (b.add line doc e).line = b.line := by
  cases e <;> rfl

@[simp] theorem add_documentation (b : Block) (line : Nat) (doc : Option String) (e : Entry) :
    (b.add line doc e).documentation = b.documentation := by
  cases e <;> rfl

/-! ## Reading one line of a block -/

theorem addAttributes_eq_ok_iff {b b' : Block} {run : List Char} :
    b.addAttributes run = .ok b' ↔
      ∃ as, Attribute.parseRun run = .ok as ∧ b' = { b with attributes := b.attributes ++ as } := by
  rw [addAttributes, map_eq_ok_iff]
  simp only [eq_comm]

theorem addValue_eq_ok_iff {b b' : Block} {code : List Char} :
    b.addValue code = .ok b' ↔
      ∃ v : ValueLine, ∃ as, v.Spells code ∧ Attribute.parseRun v.attributes = .ok as ∧
        b' = { b with values := b.values ++ [v.name] } := by
  constructor
  · intro h
    rw [addValue] at h
    split at h
    · simp at h
    · next v hread =>
      obtain ⟨as, has, rfl⟩ := map_eq_ok_iff.mp h
      exact ⟨v, as, ValueLine.read_eq_some_iff.mp hread, has, rfl⟩
  · rintro ⟨v, as, hv, has, rfl⟩
    rw [addValue, ValueLine.read_eq_some_iff.mpr hv]
    exact map_eq_ok_iff.mpr ⟨as, has, rfl⟩

theorem addField_eq_ok_iff {b b' : Block} {line : Nat} {doc : Option String} {code : List Char} :
    b.addField line doc code = .ok b' ↔
      ∃ f : FieldLine, ∃ as, f.Spells code ∧ Attribute.parseRun f.attributes = .ok as ∧
        f.name ∉ b.fields.map FieldDecl.name ∧
        b' = { b with fields := b.fields ++ [f.decl line doc as] } := by
  have hany : ∀ f : FieldLine,
      b.fields.any (·.name == f.name) = true ↔ f.name ∈ b.fields.map FieldDecl.name := by
    intro f
    simp [List.any_eq_true, List.mem_map]
  constructor
  · intro h
    rw [addField] at h
    split at h
    · simp at h
    · next f hread =>
      split at h
      · simp at h
      · next hnew =>
        obtain ⟨as, has, rfl⟩ := map_eq_ok_iff.mp h
        exact ⟨f, as, FieldLine.read_eq_some_iff.mp hread, has,
          fun hmem => hnew ((hany f).mpr hmem), rfl⟩
  · rintro ⟨f, as, hf, has, hnew, rfl⟩
    rw [addField, FieldLine.read_eq_some_iff.mpr hf]
    simp only [if_neg (fun hmem => hnew ((hany f).mp hmem))]
    exact map_eq_ok_iff.mpr ⟨as, has, rfl⟩

/-- A name does not start with an `@`, so a line is never both a run of attributes and something
else. -/
theorem ne_attributes_of_isName {name rest : List Char} (hname : Text.isName name = true) :
    ∀ run, name ++ rest ≠ '@' :: '@' :: run := by
  intro run h
  cases name with
  | nil => exact absurd hname (by decide)
  | cons c name =>
    obtain ⟨rfl, -⟩ := List.cons.inj h
    have hc := Text.isWord_of_mem_isName hname (List.mem_cons_self ..)
    exact absurd hc (by decide)

/-- **Reading a line of a block.** The line is added as the entry it reads as. -/
theorem addLine_eq_ok_iff {b b' : Block} {line : Nat} {doc : Option String} {code : List Char} :
    b.addLine line doc code = .ok b' ↔
      ∃ e, Entry.Reads b.keyword code e ∧ b.Admits e ∧ b' = b.add line doc e := by
  constructor
  · intro h
    unfold addLine at h
    split at h
    · next hsettings =>
      exact ⟨.setting, .setting hsettings, trivial, (Except.ok.inj h).symm⟩
    · next hsettings =>
      rw [Bool.not_eq_true] at hsettings
      split at h
      · next run =>
        obtain ⟨as, has, rfl⟩ := addAttributes_eq_ok_iff.mp h
        exact ⟨.attributes as, .attributes hsettings rfl has, trivial, rfl⟩
      · split at h
        · next henum =>
          obtain ⟨v, as, hv, has, rfl⟩ := addValue_eq_ok_iff.mp h
          exact ⟨.value v.name, .value henum hv has, trivial, rfl⟩
        · next henum =>
          obtain ⟨f, as, hf, has, hnew, rfl⟩ := addField_eq_ok_iff.mp h
          exact ⟨.field f as, .field (b.keyword.hasFields_iff.mpr ⟨hsettings, henum⟩) hf has, hnew,
            rfl⟩
  · rintro ⟨e, hreads, hadmits, rfl⟩
    unfold addLine
    cases hreads with
    | setting hsettings => simp only [hsettings, if_true, add]
    | @attributes run as hsettings hcode has =>
      subst hcode
      simp only [hsettings, Bool.false_eq_true, if_false]
      exact addAttributes_eq_ok_iff.mpr ⟨as, has, rfl⟩
    | @value v as henum hv has =>
      have hsettings : b.keyword.isSettings = false := by rw [henum]; rfl
      simp only [hsettings, Bool.false_eq_true, if_false]
      split
      · next run =>
        obtain ⟨hname, -, hcode⟩ := hv
        exact absurd hcode.symm (ne_attributes_of_isName hname run)
      · rw [if_pos henum]
        exact addValue_eq_ok_iff.mpr ⟨v, as, hv, has, rfl⟩
    | @field f as hk hf has =>
      obtain ⟨hsettings, henum⟩ := b.keyword.hasFields_iff.mp hk
      simp only [hsettings, Bool.false_eq_true, if_false]
      split
      · next run =>
        obtain ⟨hname, -, gap, type, -, -, -, hcode⟩ := hf
        exact absurd hcode.symm (ne_attributes_of_isName hname run)
      · rw [if_neg henum]
        exact addField_eq_ok_iff.mpr ⟨f, as, hf, has, hadmits, rfl⟩

/-- The block that a header opens. -/
def opened (k : Keyword) (name : String) (line : Nat) (doc : Option String) : Block :=
  { keyword := k, name, line, documentation := doc }

theorem ofHeader_eq_ok_iff {line : Nat} {doc : Option String} {code : List Char} {b : Block}
    {isClosed : Bool} :
    ofHeader line doc code = .ok (b, isClosed) ↔
      ∃ k : Keyword, ∃ name, HeaderLine.Spells { keyword := k.word, name, isClosed } code ∧
        b = opened k name line doc := by
  constructor
  · intro h
    rw [ofHeader] at h
    split at h
    · simp at h
    · next hl hread =>
      split at h
      · simp at h
      · next k hk =>
        obtain ⟨rfl, rfl⟩ := Prod.mk.inj (Except.ok.inj h)
        have hword : k.word = hl.keyword := by
          have := List.find?_some hk
          simpa using this
        refine ⟨k, hl.name, ?_, rfl⟩
        rw [hword]
        exact HeaderLine.read_eq_some_iff.mp hread
  · rintro ⟨k, name, hspells, rfl⟩
    rw [ofHeader, HeaderLine.read_eq_some_iff.mpr hspells]
    simp only [Keyword.ofWord?_word, opened]

end Block

/-! ## One step over the lines -/

namespace BlockReader

/-- A line without code leaves the blocks alone, the open one included. -/
@[simp] theorem blocks_stepLayout (r : BlockReader) (comment : Option (List Char)) :
    (r.stepLayout comment).blocks = r.blocks := by
  unfold stepLayout
  split <;> rfl

@[simp] theorem current_stepLayout (r : BlockReader) (comment : Option (List Char)) :
    (r.stepLayout comment).current = r.current := by
  unfold stepLayout
  split <;> rfl

/-- What one line makes of the reader. -/
inductive Move (r : BlockReader) (line : Nat) (text : List Char) : BlockReader → Prop where
  /-- A line without code only affects the documentation that waits. -/
  | layout : (SourceLine.ofText text).code = [] →
      Move r line text (r.stepLayout (SourceLine.ofText text).comment)
  /-- A header opens a block. -/
  | opens {k : Keyword} {name : String} : r.current = none →
      HeaderLine.Spells ⟨k.word, name, false⟩ (SourceLine.ofText text).code →
        Move r line text
          { blocks := r.blocks, current := some (Block.opened k name line r.documentation) }
  /-- The header of an empty block is all of it. -/
  | empty {k : Keyword} {name : String} : r.current = none →
      HeaderLine.Spells ⟨k.word, name, true⟩ (SourceLine.ofText text).code →
        Move r line text { blocks := r.blocks ++ [Block.opened k name line r.documentation] }
  /-- A closing bracket completes the block. -/
  | closes {b : Block} : r.current = some b → (SourceLine.ofText text).code = ['}'] →
      Move r line text { blocks := r.blocks ++ [b] }
  /-- Every other line adds an entry to the block. -/
  | enters {b : Block} {e : Entry} : r.current = some b → (SourceLine.ofText text).code ≠ [] →
      (SourceLine.ofText text).code ≠ ['}'] →
        Entry.Reads b.keyword (SourceLine.ofText text).code e → b.Admits e →
          Move r line text
            { blocks := r.blocks, current := some (b.add line r.documentation e) }

/-- **One step of the reader.** -/
theorem step_eq_ok_iff {r r' : BlockReader} {line : Nat} {text : List Char} :
    r.step line text = .ok r' ↔ Move r line text r' := by
  constructor
  · intro h
    rw [step] at h
    split at h
    · next hcode =>
      rw [Except.ok.injEq] at h
      subst h
      exact .layout (List.isEmpty_iff.mp hcode)
    · next hcode =>
      rw [stepCode] at h
      split at h
      · next hcurrent =>
        obtain ⟨⟨b, isClosed⟩, hheader, hr'⟩ := map_eq_ok_iff.mp h
        obtain ⟨k, name, hspells, rfl⟩ := Block.ofHeader_eq_ok_iff.mp hheader
        cases isClosed with
        | true => exact hr' ▸ .empty hcurrent hspells
        | false => exact hr' ▸ .opens hcurrent hspells
      · next b hcurrent =>
        split at h
        · next hclose =>
          rw [Except.ok.injEq] at h
          subst h
          exact .closes hcurrent hclose
        · next hclose =>
          obtain ⟨b', hadd, rfl⟩ := map_eq_ok_iff.mp h
          obtain ⟨e, hreads, hadmits, rfl⟩ := Block.addLine_eq_ok_iff.mp hadd
          refine .enters hcurrent ?_ hclose hreads hadmits
          exact fun hnil => hcode (List.isEmpty_iff.mpr hnil)
  · intro h
    rw [step]
    cases h with
    | layout hcode => simp only [hcode, List.isEmpty_nil, if_true]
    | @opens k name hcurrent hspells =>
      rw [if_neg (fun hnil => hspells.ne_nil (List.isEmpty_iff.mp hnil)), stepCode, hcurrent]
      exact map_eq_ok_iff.mpr ⟨_, Block.ofHeader_eq_ok_iff.mpr ⟨k, name, hspells, rfl⟩, rfl⟩
    | @empty k name hcurrent hspells =>
      rw [if_neg (fun hnil => hspells.ne_nil (List.isEmpty_iff.mp hnil)), stepCode, hcurrent]
      exact map_eq_ok_iff.mpr ⟨_, Block.ofHeader_eq_ok_iff.mpr ⟨k, name, hspells, rfl⟩, rfl⟩
    | closes hcurrent hclose =>
      simp only [hclose, List.isEmpty_cons, Bool.false_eq_true, if_false, stepCode, hcurrent,
        if_true]
    | @enters b e hcurrent hne hclose hreads hadmits =>
      rw [if_neg (fun hnil => hne (List.isEmpty_iff.mp hnil)), stepCode, hcurrent]
      simp only [if_neg hclose]
      exact map_eq_ok_iff.mpr
        ⟨_, Block.addLine_eq_ok_iff.mpr ⟨e, hreads, hadmits, rfl⟩, rfl⟩

/-- A line does one thing only. -/
theorem Move.unique {r m m' : BlockReader} {line : Nat} {text : List Char}
    (h : Move r line text m) (h' : Move r line text m') : m = m' :=
  Except.ok.inj ((step_eq_ok_iff.mpr h).symm.trans (step_eq_ok_iff.mpr h'))

end BlockReader
end SchemaDiagram
