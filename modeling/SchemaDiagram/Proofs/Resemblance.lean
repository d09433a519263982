import SchemaDiagram.Proofs.Block.Resemblance
import SchemaDiagram.Proofs.Failure

/-!
# Texts that are read alike

Blocks that resemble each other are treated alike by the second pass: it fails for the same cause
and on corresponding lines, or it makes schemas in which everything that is compared is the same
(`Schema.related_ofBlocks`). Such schemas have the same drawing (`exists_draw_of_seen`).

In particular this holds for two texts that differ in a stretch of lines only, provided that behind
it the one reader goes along with the other (`Schema.related_parse`).
-/

namespace SchemaDiagram

variable {a : Aspect} {φ : Nat → Nat}

/-! ## What is compared of a schema -/

/-- What is compared of a field. -/
def Field.seen (a : Aspect) (f : Field) : Field :=
  { f with documentation := if a.documentation then f.documentation else none }

/-- What is compared of a model. -/
def Model.seen (a : Aspect) (m : Model) : Model :=
  { m with
    fields := m.fields.map (Field.seen a)
    attributes := if a.blockAttributes then m.attributes else []
    documentation := if a.documentation then m.documentation else none }

/-- What is compared of a composite type. -/
def CompositeType.seen (a : Aspect) (t : CompositeType) : CompositeType :=
  { t with fields := t.fields.map (Field.seen a) }

/-- What is compared of a schema. -/
def Schema.seen (a : Aspect) (s : Schema) : Schema :=
  { s with
    models := s.models.map (Model.seen a)
    compositeTypes := s.compositeTypes.map (CompositeType.seen a) }

namespace Schema

/-- The schema without its documentation. -/
def undocumented (s : Schema) : Schema :=
  s.seen { documentation := false }

/-- Where everything is compared, schemas that compare equal are equal. -/
theorem seen_all (s : Schema) : s.seen {} = s := by
  have hfields : ∀ fs : List Field, fs.map (Field.seen {}) = fs := fun fs => List.map_id fs
  have hmodels : s.models.map (Model.seen {}) = s.models := by
    refine (List.map_congr_left fun m _ => ?_).trans (List.map_id _)
    rw [Model.seen, hfields]
    rfl
  have htypes : s.compositeTypes.map (CompositeType.seen {}) = s.compositeTypes := by
    refine (List.map_congr_left fun t _ => ?_).trans (List.map_id _)
    rw [CompositeType.seen, hfields]
    rfl
  rw [seen, hmodels, htypes]

/-- The outline of a schema is compared in any case. -/
theorem outline_seen (a : Aspect) (s : Schema) : (s.seen a).outline = s.outline := by
  rw [outline, seen, outline, List.map_map]
  refine List.map_congr_left fun m _ => ?_
  rw [Function.comp_apply, Model.outline, Model.seen, Model.outline, List.map_map]
  rfl

end Schema

/-! ## The second pass over blocks that resemble each other -/

section

variable {b b' : Block} {bs bs' : List Block}

theorem Names.related_enter (names : Names) (h : b.Resembles a φ b') :
    Related (SchemaError.Moves φ) Eq (names.enter b) (names.enter b') := by
  unfold enter
  rw [h.keyword, h.name, h.line]
  cases b.keyword.declares with
  | none => exact .ok rfl
  | some kind =>
    simp only
    split
    · exact .error ⟨_, _, rfl, rfl⟩
    · exact .ok rfl

theorem Names.related_enterAll (names : Names) (h : List.Forall₂ (Block.Resembles a φ) bs bs') :
    Related (SchemaError.Moves φ) Eq (names.enterAll bs) (names.enterAll bs') := by
  induction h generalizing names with
  | nil => exact .ok rfl
  | @cons b b' bs bs' hb _ ih =>
    rw [enterAll, enterAll]
    obtain ⟨_, _, henter, henter', he⟩ | ⟨entered, _, henter, henter', rfl⟩ :=
      (names.related_enter hb).outcomes
    · rw [henter, henter']
      exact .error he
    · rw [henter, henter']
      exact ih entered

theorem FieldDecl.related_resolve (names : Names) {f f' : FieldDecl} (h : f.Resembles a φ f') :
    Related (SchemaError.Moves φ) (fun x x' => x'.seen a = x.seen a) (f.resolve names)
      (f'.resolve names) := by
  unfold resolve
  rw [h.type, h.name, h.line, h.isList, h.isOptional, h.attributes]
  cases names.kindOf f.type with
  | none => exact .error ⟨_, _, rfl, rfl⟩
  | some kind =>
    refine .ok ?_
    rw [Field.seen, Field.seen]
    cases hdoc : a.documentation with
    | true => rw [h.documentation hdoc]
    | false => rfl

theorem FieldDecl.related_resolveAll (names : Names) {fs fs' : List FieldDecl}
    (h : List.Forall₂ (FieldDecl.Resembles a φ) fs fs') :
    Related (SchemaError.Moves φ) (fun xs xs' => xs'.map (Field.seen a) = xs.map (Field.seen a))
      (resolveAll names fs) (resolveAll names fs') := by
  induction h with
  | nil => exact .ok rfl
  | @cons f f' fs fs' hf _ ih =>
    rw [resolveAll, resolveAll]
    obtain ⟨_, _, hresolve, hresolve', he⟩ | ⟨x, x', hresolve, hresolve', hx⟩ :=
      (related_resolve names hf).outcomes
    · rw [hresolve, hresolve']
      exact .error he
    · rw [hresolve, hresolve']
      refine ih.map fun xs xs' hxs => ?_
      rw [List.map_cons, List.map_cons, hx, hxs]

theorem Block.Resembles.typedFields (h : b.Resembles a φ b') :
    List.Forall₂ (FieldDecl.Resembles a φ) b.typedFields b'.typedFields := by
  rw [Block.typedFields, Block.typedFields, h.keyword]
  split
  · exact h.fields
  · exact h.fields
  · exact h.fields
  · exact .nil
  · exact .nil
  · exact .nil

namespace Schema

/-- Schemas that compare equal do so with one more block. -/
theorem seen_consBlock (h : b.Resembles a φ b') {xs xs' : List Field} {s s' : Schema}
    (hxs : xs'.map (Field.seen a) = xs.map (Field.seen a)) (hs : s'.seen a = s.seen a) :
    (consBlock b' xs' s').seen a = (consBlock b xs s).seen a := by
  obtain ⟨hmodels, henums, htypes⟩ := Schema.mk.inj hs
  have hattributes : (if a.blockAttributes then b'.attributes else []) =
      if a.blockAttributes then b.attributes else [] := by
    cases ha : a.blockAttributes with
    | true => rw [h.attributes ha]
    | false => rfl
  have hdoc : (if a.documentation then b'.documentation else none) =
      if a.documentation then b.documentation else none := by
    cases ha : a.documentation with
    | true => rw [h.documentation ha]
    | false => rfl
  rw [consBlock, consBlock, h.keyword]
  cases b.keyword <;>
    simp [seen, Model.seen, CompositeType.seen, h.name, h.values, hxs, hattributes, hdoc, hmodels,
      henums, htypes]

theorem related_ofBlocksIn (names : Names) (h : List.Forall₂ (Block.Resembles a φ) bs bs') :
    Related (SchemaError.Moves φ) (fun s s' => s'.seen a = s.seen a) (ofBlocksIn names bs)
      (ofBlocksIn names bs') := by
  induction h with
  | nil => exact .ok rfl
  | @cons b b' bs bs' hb _ ih =>
    rw [ofBlocksIn, ofBlocksIn]
    obtain ⟨_, _, hresolve, hresolve', he⟩ | ⟨xs, xs', hresolve, hresolve', hxs⟩ :=
      (FieldDecl.related_resolveAll names hb.typedFields).outcomes
    · rw [hresolve, hresolve']
      exact .error he
    · rw [hresolve, hresolve']
      exact ih.map fun s s' hs => seen_consBlock hb hxs hs

/-- **The second pass** over blocks that resemble each other fails for the same cause on
corresponding lines, or makes schemas that compare equal. -/
theorem related_ofBlocks (h : List.Forall₂ (Block.Resembles a φ) bs bs') :
    Related (SchemaError.Moves φ) (fun s s' => s'.seen a = s.seen a) (ofBlocks bs)
      (ofBlocks bs') := by
  rw [ofBlocks, ofBlocks]
  obtain ⟨_, _, henter, henter', he⟩ | ⟨names, _, henter, henter', rfl⟩ :=
    (Names.related_enterAll [] h).outcomes
  · rw [henter, henter']
    exact .error he
  · rw [henter, henter']
    exact related_ofBlocksIn names h

end Schema

end

/-! ## Texts that differ in a stretch of lines -/

/-- The number that a line has after the `p` lines behind the first `i` ones gave way to `q`
lines. -/
def numberAfter (i p q n : Nat) : Nat :=
  if i < n then n + q - p else n

theorem numberAfter_of_le {i n : Nat} (h : n ≤ i) (p q : Nat) : numberAfter i p q n = n :=
  if_neg (by omega)

theorem numberAfter_first (i p q : Nat) : numberAfter i p q (1 + (i + p)) = 1 + (i + q) := by
  rw [numberAfter, if_pos (by omega)]
  omega

theorem numberAfter_succ {i p n : Nat} (h : 1 + (i + p) ≤ n) (q : Nat) :
    numberAfter i p q (n + 1) = numberAfter i p q n + 1 := by
  rw [numberAfter, numberAfter, if_pos (by omega), if_pos (by omega)]
  omega

/-- The blocks above the stretch stay where they are. -/
theorem BlockReader.Ascends.numberAfter_of_mem_places {i : Nat} {r : BlockReader}
    (h : r.Ascends (1 + i)) (p q : Nat) : ∀ k ∈ r.places, numberAfter i p q k = k :=
  fun k hk => numberAfter_of_le (by have := h.lt k hk; omega) p q

section

variable {before part part' : List (List Char)} {r r' : BlockReader}

/-- **The first pass** over texts that differ in a stretch of lines, if behind that stretch the one
reader goes along with the other. -/
theorem Block.related_ofLines {as as' : List Block}
    (h : BlockReader.Follows a (numberAfter before.length part.length part'.length) as as' r r')
    (hrun : BlockReader.run {} 1 (before ++ part) = .ok r)
    (hrun' : BlockReader.run {} 1 (before ++ part') = .ok r') (after : List (List Char)) :
    Related (SchemaError.Moves (numberAfter before.length part.length part'.length))
      (fun bs bs' => ∃ xs xs', bs = as ++ xs ∧ bs' = as' ++ xs' ∧
        List.Forall₂
          (Block.Resembles a (numberAfter before.length part.length part'.length)) xs xs')
      (ofLines (before ++ (part ++ after))) (ofLines (before ++ (part' ++ after))) := by
  have hafter := h.run (n := 1 + (before ++ part).length)
    (fun k hk => numberAfter_succ (by rwa [← List.length_append]) _) after
  rw [List.length_append, numberAfter_first, ← List.length_append, ← List.length_append] at hafter
  rw [← List.append_assoc, ← List.append_assoc, ofLines, ofLines,
    BlockReader.run_append {} 1 (before ++ part), BlockReader.run_append {} 1 (before ++ part'),
    hrun, hrun']
  obtain ⟨_, _, herror, herror', he⟩ | ⟨m, m', hm, hm', hfollows⟩ := hafter.outcomes
  · simp only [herror, herror']
    exact .error he
  · simp only [hm, hm']
    exact hfollows.finish

/-- **Both passes.** -/
theorem Schema.related_parse {text text' : String} {after : List (List Char)}
    (hlines : linesOf text = before ++ (part ++ after))
    (hlines' : linesOf text' = before ++ (part' ++ after))
    (hrun : BlockReader.run {} 1 (before ++ part) = .ok r)
    (hrun' : BlockReader.run {} 1 (before ++ part') = .ok r')
    (h : BlockReader.Follows a (numberAfter before.length part.length part'.length) [] [] r r') :
    Related (SchemaError.Moves (numberAfter before.length part.length part'.length))
      (fun s s' => s'.seen a = s.seen a) (parse text) (parse text') := by
  rw [parse, parse, parseChars, parseChars, ← linesOf, ← linesOf, hlines, hlines']
  obtain ⟨_, _, hblocks, hblocks', he⟩ | ⟨_, _, hblocks, hblocks', bs, bs', rfl, rfl, hbs⟩ :=
    (Block.related_ofLines h hrun hrun' after).outcomes
  · rw [hblocks, hblocks']
    exact .error he
  · rw [hblocks, hblocks']
    exact related_ofBlocks hbs

end

/-- Texts whose schemas compare equal are drawn alike. -/
theorem exists_draw_of_seen {text text' : String} {s s' : Schema} (h : Schema.parse text = .ok s)
    (h' : Schema.parse text' = .ok s') (hsame : s'.seen a = s.seen a) :
    ∃ out, draw text = .ok out ∧ draw text' = .ok out := by
  obtain ⟨d, hd⟩ := Schema.exists_diagram_of_parse h
  have houtline : s'.outline = s.outline := by
    rw [← Schema.outline_seen a s', hsame, Schema.outline_seen]
  have hd' : s'.diagram? = some d := by rw [Schema.diagram?_congr houtline, hd]
  refine ⟨d.render, ?_, ?_⟩
  · rw [draw, diagramOf_eq_ok_iff.mpr ⟨s, h, hd⟩]
    rfl
  · rw [draw, diagramOf_eq_ok_iff.mpr ⟨s', h', hd'⟩]
    rfl

end SchemaDiagram
