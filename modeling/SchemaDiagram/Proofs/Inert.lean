import SchemaDiagram.Proofs.Block.Extent
import SchemaDiagram.Proofs.Concatenation
import SchemaDiagram.Proofs.Resemblance

/-!
# Blocks without effect

A block of settings declares nothing, and nothing of it gets into the schema. A view declares its
name, but it is no model either, so it can be missed only by a field that has it as its type. Hence
such blocks may give way to a blank line, which drops the documentation above them as they do, and
then the schema and the drawing are what they were (`Schema.parse_eraseBlock`). And since the
lines of settings are not read at all, they may be exchanged for any others
(`Schema.parse_replaceSettings`).
-/

namespace SchemaDiagram

/-! ## The first pass without the block -/

/-- If the block gives way to a blank line, the other blocks are read as they were before. -/
theorem Block.TakesUp.exists_ofLines_blank {texts before part after : List (List Char)}
    {bs : List Block} {b : Block} {blank : List Char}
    (htakes : b.TakesUp texts before part after) (h : ofLines texts = .ok bs) (hb : b ∈ bs)
    (hblank : SourceLine.ofText blank = { code := [], comment := none }) :
    ∃ as xs bs', bs = as ++ b :: xs ∧ ofLines (before ++ blank :: after) = .ok bs' ∧
      List.Forall₂ (Block.Resembles {} (numberAfter before.length part.length 1))
        (as ++ xs) bs' := by
  obtain ⟨r, hrun, hnone⟩ := htakes.endsOutside h hb
  obtain rfl := htakes.lines
  obtain ⟨pending, hall⟩ := ofLines_eq_ok_iff.mp h
  obtain ⟨r', hrun', hrest⟩ := BlockReader.run_append_eq_ok_iff.mp hall
  obtain rfl := Except.ok.inj (hrun.symm.trans hrun')
  obtain ⟨m, hpart, -⟩ := BlockReader.run_append_eq_ok_iff.mp hrest
  obtain ⟨c, rfl, -, -, hline⟩ := BlockReader.run_of_isBlockOf hnone htakes.isBlockOf hpart
  have hempty : BlockReader.Move r (1 + before.length) blank { blocks := r.blocks } := by
    have hlayout : BlockReader.Move r (1 + before.length) blank _ := .layout (by rw [hblank])
    rwa [hblank, BlockReader.stepLayout, hnone] at hlayout
  -- behind the block the one reader has one block more than the other, and nothing else
  have hfollows : BlockReader.Follows {} (numberAfter before.length part.length [blank].length)
      (r.blocks ++ [c]) r.blocks { blocks := r.blocks ++ [c] } { blocks := r.blocks } :=
    ⟨⟨[], [], by simp, by simp, .nil⟩, .none, fun _ => rfl⟩
  have hrelated := related_ofLines hfollows
    (BlockReader.run_append_of_ok hrun hpart)
    (BlockReader.run_append_of_ok hrun (BlockReader.run_singleton_eq_ok_iff.mpr hempty)) after
  rw [h] at hrelated
  obtain ⟨_, hbs', xs, xs', rfl, rfl, hxs⟩ := hrelated.exists_ok
  obtain rfl : b = c := eq_of_line_eq h hb (by simp) (by rw [hline, htakes.line, Nat.add_comm])
  have hplaces := ((BlockReader.ascends_start 1).run hrun).numberAfter_of_mem_places part.length 1
  refine ⟨r.blocks, xs, _, by simp, hbs', List.rel_append (List.forall₂_same.mpr ?_) hxs⟩
  exact fun d hd => resembles_self fun k hk =>
    hplaces k (List.mem_flatMap.mpr ⟨d, List.mem_append_left _ hd, hk⟩)

/-! ## The second pass without the block -/

/-- A type does not depend on names that it is not. -/
theorem Names.kindOf_append_of_ne {names names' names'' : Names} {t : TypeExpr}
    (h : ∀ n ∈ names'.map Prod.fst, t ≠ .named n) :
    kindOf (names ++ (names' ++ names'')) t = kindOf (names ++ names'') t := by
  cases t with
  | unsupported raw => rfl
  | named n =>
    have hnone : names'.lookup n = none := by
      rw [← Option.not_isSome_iff_eq_none, isSome_lookup_iff]
      exact fun hn => h n hn rfl
    simp only [kindOf, List.lookup_append, hnone, Option.none_or]

/-- Whether nothing of the block gets into the schema: it holds settings, or it is a view. -/
def Keyword.IsSkipped (k : Keyword) : Prop :=
  k.isSettings = true ∨ k = .view

namespace Schema

variable {as bs : List Block} {b : Block} {s : Schema}

theorem assemble_of_isSkipped (h : b.keyword.IsSkipped) (names : Names) :
    assemble names [b] = {} := by
  rw [assemble]
  cases hk : b.keyword <;>
    simp_all [Keyword.IsSkipped, Keyword.isSettings, Block.model?, Block.enum?,
      Block.compositeType?]

/-- **A block that is skipped and not referred to** may be missing. -/
theorem ofBlocks_erase (h : ofBlocks (as ++ b :: bs) = .ok s) (hskipped : b.keyword.IsSkipped)
    (hunused : ∀ n ∈ (declared [b]).map Prod.fst, ∀ c ∈ as ++ bs, ∀ f ∈ c.typedFields,
      f.type ≠ .named n) : ofBlocks (as ++ bs) = .ok s := by
  obtain ⟨hresolvable, rfl⟩ := ofBlocks_eq_ok_iff.mp h
  have hdeclared : declared (as ++ b :: bs) = declared as ++ (declared [b] ++ declared bs) := by
    rw [← declared_append, ← declared_append, List.singleton_append]
  have hsublist : ((declared (as ++ bs)).map Prod.fst).Sublist
      ((declared (as ++ b :: bs)).map Prod.fst) :=
    (((List.sublist_cons_self b bs).append_left as).filterMap _).map _
  have hkind : ∀ c ∈ as ++ bs, ∀ f ∈ c.typedFields,
      (declared (as ++ b :: bs)).kindOf f.type = (declared (as ++ bs)).kindOf f.type := by
    intro c hc f hf
    rw [hdeclared, declared_append,
      Names.kindOf_append_of_ne fun n hn => hunused n hn c hc f hf]
  refine ofBlocks_eq_ok_iff.mpr ⟨⟨hresolvable.nodup.sublist hsublist,
    fun n hn => hresolvable.notScalar n (hsublist.subset hn), fun c hc f hf => ?_⟩, ?_⟩
  · rw [← hkind c hc f hf]
    refine hresolvable.known c ?_ f hf
    exact ((List.sublist_cons_self b bs).append_left as).subset hc
  · rw [← assemble_congr hkind, ← List.singleton_append, assemble_append, assemble_append,
      assemble_append, assemble_of_isSkipped hskipped]
    rfl

/-! ## Both passes -/

variable {text text' : String} {before part after : List (List Char)}

/-- **The block gives way to a blank line.** -/
theorem parse_eraseBlock {blank : List Char} (h : parse text = .ok s) (hbs : blocksOf text = .ok bs)
    (hb : b ∈ bs) (htakes : b.TakesUp (linesOf text) before part after)
    (hskipped : b.keyword.IsSkipped)
    (hunused : ∀ n ∈ (declared [b]).map Prod.fst, ∀ c ∈ bs, c ≠ b → ∀ f ∈ c.fields,
      f.type ≠ .named n)
    (hblank : SourceLine.ofText blank = { code := [], comment := none })
    (hlines' : linesOf text' = before ++ blank :: after) : parse text' = .ok s := by
  obtain ⟨as, xs, bs', rfl, hbs', hall⟩ := htakes.exists_ofLines_blank hbs hb hblank
  have hnodup := (Block.pairwise_line_of_ofLines hbs).imp fun hlt => ne_of_apply_ne _ hlt.ne
  have hother : ∀ c ∈ as ++ xs, c ∈ as ++ b :: xs ∧ c ≠ b := fun c hc =>
    ⟨((List.sublist_cons_self b xs).append_left as).subset hc,
      (ne_of_mem_of_not_mem hc (List.nodup_cons.mp (List.nodup_middle.mp hnodup)).1)⟩
  have herased : ofBlocks (as ++ xs) = .ok s :=
    ofBlocks_erase ((parse_eq_ofBlocks hbs).symm.trans h) hskipped fun n hn c hc f hf =>
      hunused n hn c (hother c hc).1 (hother c hc).2 f (Block.mem_fields_of_mem_typedFields hf)
  have hsecond := related_ofBlocks hall
  rw [herased] at hsecond
  obtain ⟨s', hs', hsame⟩ := hsecond.exists_ok
  rw [seen_all, seen_all] at hsame
  have hblocks : blocksOf text' = .ok bs' := by
    rw [blocksOf, ← linesOf, hlines']
    exact hbs'
  rw [parse_eq_ofBlocks hblocks, hs', hsame]

/-- **Other lines in a block of settings.** -/
theorem parse_replaceSettings {header close : List Char} {body body' : List (List Char)}
    (h : parse text = .ok s) (hbs : blocksOf text = .ok bs) (hb : b ∈ bs)
    (htakes : b.TakesUp (linesOf text) before (header :: (body ++ [close])) after)
    (hsettings : b.keyword.isSettings = true) (hbody' : ∀ line ∈ body', IsInside line)
    (hlines' : linesOf text' = before ++ (header :: (body' ++ [close]) ++ after)) :
    parse text' = .ok s := by
  obtain ⟨r, hrun, hnone⟩ := htakes.endsOutside hbs hb
  obtain ⟨hspells, hbody, hclose⟩ := isBlockOf_cons_iff.mp htakes.isBlockOf
  have hopened : BlockReader.Move r (1 + before.length) header _ := .opens hnone hspells
  have hheader :=
    BlockReader.run_append_of_ok hrun (BlockReader.run_singleton_eq_ok_iff.mpr hopened)
  have hclosed : ∀ ls, (∀ line ∈ ls, IsInside line) →
      BlockReader.run {} 1 (before ++ [header] ++ (ls ++ [close])) = .ok
        { blocks := r.blocks ++
            [Block.opened b.keyword b.name (1 + before.length) r.documentation] } :=
    fun ls hls => BlockReader.run_append_of_ok hheader
      (BlockReader.run_settings rfl hsettings hls hclose)
  have hplaces := ((BlockReader.ascends_start 1).run hheader).numberAfter_of_mem_places
    (body ++ [close]).length (body' ++ [close]).length
  have hlines : linesOf text = before ++ [header] ++ (body ++ [close] ++ after) := by
    rw [htakes.lines]
    simp
  have hlines'' : linesOf text' = before ++ [header] ++ (body' ++ [close] ++ after) := by
    rw [hlines']
    simp
  -- the block has no fields, so the lines that it stands on are those of its header
  have hrelated := related_parse (a := {}) hlines hlines'' (hclosed body hbody)
    (hclosed body' hbody') (.refl fun n hn => hplaces n (by simpa [BlockReader.places] using hn))
  rw [h] at hrelated
  obtain ⟨s', h', hsame⟩ := hrelated.exists_ok
  rw [seen_all, seen_all] at hsame
  rw [h', hsame]

/-- **Blocks without effect.** Every block takes up lines of the text. If it is a block of settings,
they may give way to a blank line, and those inside of it to any lines that do not close it; if it
is a view, they may give way to a blank line unless a field of another block has the name of the
view as its type. In either case the text is accepted still, with the same schema and the same
drawing. -/
theorem inert_of_parse (h : parse text = .ok s) :
    ∃ bs out, blocksOf text = .ok bs ∧ draw text = .ok out ∧ ∀ b ∈ bs,
      (∃ before part after, b.TakesUp (linesOf text) before part after) ∧
      ∀ before part after, b.TakesUp (linesOf text) before part after →
        (b.keyword.isSettings = true →
          (∀ text' blank, SourceLine.ofText blank = { code := [], comment := none } →
            linesOf text' = before ++ blank :: after →
              parse text' = .ok s ∧ draw text' = .ok out) ∧
          ∀ text' header body body' close, part = header :: (body ++ [close]) →
            (∀ line ∈ body', IsInside line) →
            linesOf text' = before ++ (header :: (body' ++ [close]) ++ after) →
              parse text' = .ok s ∧ draw text' = .ok out) ∧
        (b.keyword = .view →
          (∀ c ∈ bs, c ≠ b → ∀ f ∈ c.fields, f.type ≠ .named b.name) →
          ∀ text' blank, SourceLine.ofText blank = { code := [], comment := none } →
            linesOf text' = before ++ blank :: after →
              parse text' = .ok s ∧ draw text' = .ok out) := by
  obtain ⟨bs, hbs, -, -⟩ := parse_eq_ok_iff.mp h
  obtain ⟨out, hout, -⟩ := exists_draw_of_seen (a := {}) h h rfl
  have hdraw : ∀ text', parse text' = .ok s → parse text' = .ok s ∧ draw text' = .ok out :=
    fun text' h' => ⟨h', by rw [← hout, draw, draw, diagramOf, diagramOf, h, h']⟩
  refine ⟨bs, out, hbs, hout, fun b hb => ⟨?_, fun before part after htakes => ⟨fun hsettings =>
    ⟨fun text' blank hblank hlines' => ?_,
      fun text' header body body' close hpart hbody' hlines' => ?_⟩,
    fun hview hunused text' blank hblank hlines' => ?_⟩⟩⟩
  · obtain ⟨before, part, after, -, htakes⟩ := Block.isFoundIn_of_ofLines hbs b hb
    exact ⟨before, part, after, htakes⟩
  · have hdeclared : ∀ n, n ∉ (declared [b]).map Prod.fst := by
      simp [map_fst_declared, hsettings]
    exact hdraw _ (parse_eraseBlock h hbs hb htakes (.inl hsettings)
      (fun n hn => absurd hn (hdeclared n)) hblank hlines')
  · subst hpart
    exact hdraw _ (parse_replaceSettings h hbs hb htakes hsettings hbody' hlines')
  · have hdeclared : ∀ n ∈ (declared [b]).map Prod.fst, n = b.name := by
      simp [map_fst_declared, hview, Keyword.isSettings]
    refine hdraw _ (parse_eraseBlock h hbs hb htakes (.inr hview) (fun n hn => ?_) hblank hlines')
    rw [hdeclared n hn]
    exact hunused

/-- A data source that gives way to a blank line and one that holds the header of a model, and a
view that gives way to a blank line. -/
theorem inert_of_parse_view :
    ∃ s out, parse "datasource d \x7b\n x\n\x7d\nview V \x7b\x7d\nmodel A \x7b\x7d" = .ok s ∧
      draw "datasource d \x7b\n x\n\x7d\nview V \x7b\x7d\nmodel A \x7b\x7d" = .ok out ∧
      (parse "\nview V \x7b\x7d\nmodel A \x7b\x7d" = .ok s ∧
        draw "\nview V \x7b\x7d\nmodel A \x7b\x7d" = .ok out) ∧
      (parse "datasource d \x7b\nmodel A \x7b\n\x7d\nview V \x7b\x7d\nmodel A \x7b\x7d" = .ok s ∧
        draw "datasource d \x7b\nmodel A \x7b\n\x7d\nview V \x7b\x7d\nmodel A \x7b\x7d" = .ok out) ∧
      parse "datasource d \x7b\n x\n\x7d\n\nmodel A \x7b\x7d" = .ok s ∧
        draw "datasource d \x7b\n x\n\x7d\n\nmodel A \x7b\x7d" = .ok out := by
  have h : parse "datasource d \x7b\n x\n\x7d\nview V \x7b\x7d\nmodel A \x7b\x7d" =
      .ok { models := [{ name := "A" }] } := by
    with_unfolding_all rfl
  have hblocks : blocksOf "datasource d \x7b\n x\n\x7d\nview V \x7b\x7d\nmodel A \x7b\x7d" = .ok
      [{ keyword := .datasource, name := "d", line := 1 },
       { keyword := .view, name := "V", line := 4 },
       { keyword := .model, name := "A", line := 5 }] := by
    with_unfolding_all rfl
  obtain ⟨bs, out, hbs, hout, hinert⟩ := inert_of_parse h
  obtain rfl := Except.ok.inj (hblocks.symm.trans hbs)
  have hsource : Block.TakesUp { keyword := .datasource, name := "d", line := 1 }
      (linesOf "datasource d \x7b\n x\n\x7d\nview V \x7b\x7d\nmodel A \x7b\x7d") []
      ("datasource d \x7b".toList :: ([" x".toList] ++ ["\x7d".toList]))
      ["view V \x7b\x7d".toList, "model A \x7b\x7d".toList] :=
    ⟨by with_unfolding_all rfl, rfl, isBlockOf_cons_iff.mpr
      ⟨HeaderLine.read_eq_some_iff.mp (by with_unfolding_all rfl), by simp [IsInside]; decide,
        by with_unfolding_all rfl⟩⟩
  have hview : Block.TakesUp { keyword := .view, name := "V", line := 4 }
      (linesOf "datasource d \x7b\n x\n\x7d\nview V \x7b\x7d\nmodel A \x7b\x7d")
      ["datasource d \x7b".toList, " x".toList, "\x7d".toList] ["view V \x7b\x7d".toList]
      ["model A \x7b\x7d".toList] :=
    ⟨by with_unfolding_all rfl, rfl,
      .empty (HeaderLine.read_eq_some_iff.mp (by with_unfolding_all rfl))⟩
  obtain ⟨hblank, hreplaced⟩ := ((hinert _ (by simp)).2 _ _ _ hsource).1 rfl
  refine ⟨_, out, h, hout, ?_, ?_, ?_⟩
  · exact hblank _ [] rfl (by with_unfolding_all rfl)
  · exact hreplaced _ _ _ ["model A \x7b".toList] _ rfl (by simp [IsInside]; decide)
      (by with_unfolding_all rfl)
  · exact ((hinert _ (by simp)).2 _ _ _ hview).2 rfl (by simp) _ [] rfl
      (by with_unfolding_all rfl)

end Schema
end SchemaDiagram
