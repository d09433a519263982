import SchemaDiagram.Proofs.Block.Place
import SchemaDiagram.Proofs.Building

/-!
# Blocks that are read alike

Two texts can differ in what a diagram does not show: in the lines on which their blocks stand, in
documentation, in the attributes of blocks. This module says that the first pass treats such texts
alike. `Aspect` says what is compared, and a map of line numbers says which line of the one text
takes the place of which line of the other. Blocks that resemble each other still do so after both
have got the same line (`Block.Resembles.addLine`), hence two readers that have such blocks go on
side by side (`BlockReader.Follows.step`, `BlockReader.Follows.run`): they fail together, for the
same cause and on corresponding lines, or both go on.
-/

namespace SchemaDiagram

/-- What is compared of two declarations, besides what a diagram shows. -/
structure Aspect where
  /-- Whether their documentation is compared. -/
  documentation : Bool := true
  /-- Whether the attributes of blocks are compared. -/
  blockAttributes : Bool := true

/-- Whether the two errors have one cause, on lines that correspond to each other. -/
def SchemaError.Moves (φ : Nat → Nat) (e e' : SchemaError) : Prop :=
  ∃ n cause, e = .atLine n cause ∧ e' = .atLine (φ n) cause

/-- Whether the second field is the first one as it is declared in the other text. -/
structure FieldDecl.Resembles (a : Aspect) (φ : Nat → Nat) (f f' : FieldDecl) : Prop where
  line : f'.line = φ f.line
  name : f'.name = f.name
  type : f'.type = f.type
  isList : f'.isList = f.isList
  isOptional : f'.isOptional = f.isOptional
  attributes : f'.attributes = f.attributes
  documentation : a.documentation = true → f'.documentation = f.documentation

/-- Whether the second block is the first one as it is declared in the other text. -/
structure Block.Resembles (a : Aspect) (φ : Nat → Nat) (b b' : Block) : Prop where
  keyword : b'.keyword = b.keyword
  name : b'.name = b.name
  line : b'.line = φ b.line
  documentation : a.documentation = true → b'.documentation = b.documentation
  fields : List.Forall₂ (FieldDecl.Resembles a φ) b.fields b'.fields
  values : b'.values = b.values
  attributes : a.blockAttributes = true → b'.attributes = b.attributes

variable {a : Aspect} {φ : Nat → Nat}

/-! ## Blocks -/

theorem FieldLine.resembles_decl {doc doc' : Option String} (f : FieldLine) (n : Nat)
    (as : List Attribute) (hdoc : a.documentation = true → doc' = doc) :
    (f.decl n doc as).Resembles a φ (f.decl (φ n) doc' as) :=
  ⟨rfl, rfl, rfl, rfl, rfl, rfl, hdoc⟩

namespace Block

variable {b b' : Block} {doc doc' : Option String} {n : Nat}

theorem resembles_opened (k : Keyword) (name : String) (n : Nat)
    (hdoc : a.documentation = true → doc' = doc) :
    (opened k name n doc).Resembles a φ (opened k name (φ n) doc') :=
  ⟨rfl, rfl, rfl, hdoc, .nil, rfl, fun _ => rfl⟩

/-- A block resembles itself if its lines stay where they are. -/
theorem resembles_self (h : ∀ k ∈ b.places, φ k = k) : b.Resembles a φ b := by
  refine ⟨rfl, rfl, (h _ (List.mem_cons_self ..)).symm, fun _ => rfl, ?_, rfl, fun _ => rfl⟩
  refine List.forall₂_same.mpr fun f hf => ⟨?_, rfl, rfl, rfl, rfl, rfl, fun _ => rfl⟩
  exact (h _ (List.mem_cons_of_mem _ (List.mem_map_of_mem hf))).symm

namespace Resembles

theorem fieldNames (h : b.Resembles a φ b') :
    b'.fields.map FieldDecl.name = b.fields.map FieldDecl.name :=
  map_eq_map_of_forall₂ (h.fields.flip.imp fun _ _ hf => hf.name)

/-- Blocks that resemble each other do so with one more entry. -/
theorem add (h : b.Resembles a φ b') (n : Nat) (e : Entry)
    (hdoc : a.documentation = true → doc' = doc) :
    (b.add n doc e).Resembles a φ (b'.add (φ n) doc' e) := by
  cases e with
  | setting => exact h
  | attributes as =>
    exact { h with attributes := fun ha => congrArg (· ++ as) (h.attributes ha) }
  | value name => exact { h with values := congrArg (· ++ [name]) h.values }
  | field f as =>
    have hfield : List.Forall₂ (FieldDecl.Resembles a φ) [f.decl n doc as] [f.decl (φ n) doc' as] :=
      .cons (f.resembles_decl n as hdoc) .nil
    exact { h with fields := List.rel_append h.fields hfield }

/-- **One more line.** It is read in both blocks or in neither, and if it is not, then for the same
cause. -/
theorem addLine (h : b.Resembles a φ b') (n : Nat) (code : List Char)
    (hdoc : a.documentation = true → doc' = doc) :
    Related Eq (Resembles a φ) (b.addLine n doc code) (b'.addLine (φ n) doc' code) := by
  unfold Block.addLine
  rw [h.keyword]
  split
  · exact .ok h
  · split
    · next run => exact Related.map_same _ fun as => h.add n (.attributes as) hdoc
    · split
      · unfold addValue
        cases ValueLine.read code with
        | none => exact .error rfl
        | some v => exact Related.map_same _ fun _ => h.add n (.value v.name) hdoc
      · unfold addField
        cases FieldLine.read code with
        | none => exact .error rfl
        | some f =>
          have htaken : b'.fields.any (·.name == f.name) = b.fields.any (·.name == f.name) := by
            have := congrArg (List.any · (· == f.name)) h.fieldNames
            simpa only [List.any_map, Function.comp_def] using this
          simp only [htaken]
          split
          · exact .error (by rw [h.name])
          · exact Related.map_same _ fun as => h.add n (.field f as) hdoc

end Resembles

/-- A header is read the same way on either line. -/
theorem related_ofHeader (n : Nat) (code : List Char) (hdoc : a.documentation = true → doc' = doc) :
    Related Eq (fun h h' => h.1.Resembles a φ h'.1 ∧ h'.2 = h.2) (ofHeader n doc code)
      (ofHeader (φ n) doc' code) := by
  unfold ofHeader
  cases HeaderLine.read code with
  | none => exact .error rfl
  | some header =>
    cases hword : Keyword.ofWord? header.keyword with
    | none =>
      simp only [hword]
      exact .error rfl
    | some k =>
      simp only [hword]
      exact .ok ⟨resembles_opened k header.name n hdoc, rfl⟩

end Block

/-! ## Two readers side by side -/

namespace BlockReader

/-- Whether the second reader goes along with the first one: behind the blocks that are given for
each of them they have read blocks that resemble each other, and so do the blocks that are open. -/
structure Follows (a : Aspect) (φ : Nat → Nat) (as as' : List Block) (r r' : BlockReader) :
    Prop where
  blocks : ∃ bs bs', r.blocks = as ++ bs ∧ r'.blocks = as' ++ bs' ∧
    List.Forall₂ (Block.Resembles a φ) bs bs'
  current : Option.Rel (Block.Resembles a φ) r.current r'.current
  pending : a.documentation = true → r'.pending = r.pending

namespace Follows

variable {as as' : List Block} {r r' : BlockReader} {n : Nat}

/-- A reader goes along with itself if the lines of its blocks stay where they are. -/
theorem refl (h : ∀ k ∈ r.places, φ k = k) : Follows a φ [] [] r r := by
  have hself : ∀ b ∈ r.blocks ++ r.current.toList, b.Resembles a φ b := fun b hb =>
    Block.resembles_self fun k hk => h k (List.mem_flatMap.mpr ⟨b, hb, hk⟩)
  refine ⟨⟨r.blocks, r.blocks, rfl, rfl, List.forall₂_same.mpr fun b hb => ?_⟩, ?_, fun _ => rfl⟩
  · exact hself b (List.mem_append_left _ hb)
  · cases hcurrent : r.current with
    | none => exact .none
    | some b => exact .some (hself b (by simp [hcurrent]))

theorem documentation (h : Follows a φ as as' r r') :
    a.documentation = true → r'.documentation = r.documentation := by
  intro ha
  rw [BlockReader.documentation, BlockReader.documentation, h.pending ha]

theorem stepLayout (h : Follows a φ as as' r r') (comment : Option (List Char)) :
    Follows a φ as as' (r.stepLayout comment) (r'.stepLayout comment) := by
  refine ⟨by simpa using h.blocks, by simpa using h.current, fun ha => ?_⟩
  unfold BlockReader.stepLayout
  split
  · rfl
  · exact congrArg (· ++ _) (h.pending ha)
  · exact h.pending ha

/-- One more block on either side. -/
theorem snoc (h : Follows a φ as as' r r') {b b' : Block} (hb : b.Resembles a φ b') :
    Follows a φ as as' { blocks := r.blocks ++ [b] } { blocks := r'.blocks ++ [b'] } := by
  obtain ⟨bs, bs', hbs, hbs', hall⟩ := h.blocks
  refine ⟨⟨bs ++ [b], bs' ++ [b'], ?_, ?_, List.rel_append hall (.cons hb .nil)⟩, .none,
    fun _ => rfl⟩
  · rw [hbs, List.append_assoc]
  · rw [hbs', List.append_assoc]

theorem opened (h : Follows a φ as as' r r') {b b' : Block} (hb : b.Resembles a φ b') :
    Follows a φ as as' { blocks := r.blocks, current := some b }
      { blocks := r'.blocks, current := some b' } :=
  ⟨h.blocks, .some hb, fun _ => rfl⟩

theorem stepCode (h : Follows a φ as as' r r') (n : Nat) (code : List Char) :
    Related Eq (Follows a φ as as') (r.stepCode n code) (r'.stepCode (φ n) code) := by
  have hdoc := h.documentation
  have hcurrent := h.current
  unfold BlockReader.stepCode
  generalize r.current = o at hcurrent ⊢
  generalize r'.current = o' at hcurrent ⊢
  cases hcurrent with
  | none =>
    refine (Block.related_ofHeader n code hdoc).map ?_
    rintro ⟨b, isClosed⟩ ⟨b', isClosed'⟩ ⟨hb, hsame⟩
    obtain rfl : isClosed' = isClosed := hsame
    cases isClosed' with
    | true => exact h.snoc hb
    | false => exact h.opened hb
  | some hb =>
    simp only
    split
    · exact .ok (h.snoc hb)
    · exact (hb.addLine n code hdoc).map fun _ _ hadded => h.opened hadded

/-- **One line.** -/
theorem step (h : Follows a φ as as' r r') (n : Nat) (text : List Char) :
    Related Eq (Follows a φ as as') (r.step n text) (r'.step (φ n) text) := by
  unfold BlockReader.step
  simp only
  split
  · exact .ok (h.stepLayout _)
  · exact h.stepCode n _

/-- **Any number of lines**, which are counted on together. -/
theorem run (h : Follows a φ as as' r r') {n : Nat} (hφ : ∀ k, n ≤ k → φ (k + 1) = φ k + 1)
    (texts : List (List Char)) :
    Related (SchemaError.Moves φ) (Follows a φ as as') (r.run n texts) (r'.run (φ n) texts) := by
  induction texts generalizing r r' n with
  | nil => exact .ok h
  | cons text texts ih =>
    rw [BlockReader.run, BlockReader.run]
    obtain ⟨cause, _, hstep, hstep', rfl⟩ | ⟨m, m', hstep, hstep', hm⟩ := (h.step n text).outcomes
    · rw [hstep, hstep']
      exact .error ⟨n, cause, rfl, rfl⟩
    · rw [hstep, hstep']
      have := ih hm (n := n + 1) fun k hk => hφ k (by omega)
      rwa [hφ n (le_refl n)] at this

/-- **The end of the text.** -/
theorem finish (h : Follows a φ as as' r r') :
    Related (SchemaError.Moves φ)
      (fun bs bs' => ∃ xs xs', bs = as ++ xs ∧ bs' = as' ++ xs' ∧
        List.Forall₂ (Block.Resembles a φ) xs xs') r.finish r'.finish := by
  have hcurrent := h.current
  unfold BlockReader.finish
  generalize r.current = o at hcurrent ⊢
  generalize r'.current = o' at hcurrent ⊢
  cases hcurrent with
  | none => exact .ok h.blocks
  | some hb =>
    simp only [hb.line, hb.keyword, hb.name]
    exact .error ⟨_, _, rfl, rfl⟩

end Follows
end BlockReader

end SchemaDiagram
