import SchemaDiagram.Proofs.Block.Shift
import SchemaDiagram.Proofs.Failure

/-!
# Schemas one after the other

Two texts that are schemas, with a blank line between them, are a schema again, unless the second
one declares a name that the first one declares as well. What they declare together is what each of
them declares alone: a type that is known to one of them is looked up in the table of both as it was
in its own, so no field changes its kind, and the diagram has the tables and the relations of the
one and then those of the other. If a name is declared by both, the first block of the second text
that declares such a name is reported, on its line in the whole text (`Schema.parse_append`).

The second text must not start with a byte order mark. Only the mark of a whole text is dropped, and
in the middle of one it is a character like any other.
-/

namespace SchemaDiagram

/-! ## The text of both -/

namespace Text

theorem dropMark_append_feed (s t : List Char) :
    dropMark (s ++ '\n' :: t) = dropMark s ++ '\n' :: t := by
  cases s with
  | nil =>
    rw [List.nil_append, dropMark_cons, if_neg (by decide)]
    rfl
  | cons c s =>
    rw [List.cons_append, dropMark_cons, dropMark_cons]
    split <;> rfl

theorem dropMark_eq_self {s : List Char} (h : s.head? ≠ some byteOrderMark) : dropMark s = s := by
  cases s with
  | nil => rfl
  | cons c s =>
    rw [List.head?_cons, Ne, Option.some.injEq] at h
    rw [dropMark_cons, if_neg h]

/-- A mark is no line of its own in front of a line. -/
theorem length_lines_dropMark_append (s t : List Char) :
    (lines (dropMark s ++ '\n' :: t)).length = (lines (s ++ '\n' :: t)).length := by
  cases s with
  | nil => rfl
  | cons c s =>
    rw [dropMark_cons]
    split
    · next hc =>
      have hmark : isTerminator c = false := by
        rw [hc]
        decide
      rw [List.cons_append, lines_cons hmark]
      cases hlines : lines (s ++ '\n' :: t) with
      | nil => exact absurd hlines (lines_ne_nil (by simp))
      | cons l ls => rfl
    · rfl

end Text

namespace Schema

/-- The blocks of a text, before any type is looked up. -/
def blocksOf (text : String) : Except SchemaError (List Block) :=
  Block.ofLines (Text.lines (Text.dropMark text.toList))

theorem parse_eq_ofBlocks {text : String} {bs : List Block} (h : blocksOf text = .ok bs) :
    parse text = ofBlocks bs := by
  rw [parse, parseChars]
  rw [blocksOf] at h
  rw [h]

/-- **The blocks of both texts.** -/
theorem blocksOf_append {a b : String} {as bs : List Block} (ha : blocksOf a = .ok as)
    (hb : blocksOf b = .ok bs) (hmark : b.toList.head? ≠ some Text.byteOrderMark) :
    blocksOf (a ++ "\n\n" ++ b) =
      .ok (as ++ bs.map (Block.shift (Text.lines (a ++ "\n\n").toList).length)) := by
  have hgap : ∀ t, (a ++ "\n\n").toList ++ t = a.toList ++ '\n' :: '\n' :: t := by
    intro t
    simp [String.toList_append]
  obtain ⟨n, hlines⟩ := Text.exists_lines_append (Text.dropMark a.toList)
  have hlength : (Text.lines (a ++ "\n\n").toList).length =
      (Text.lines (Text.dropMark a.toList)).length + (n + 1) := by
    rw [← List.append_nil (a ++ "\n\n").toList, hgap, ← Text.length_lines_dropMark_append, hlines]
    simp
  rw [blocksOf, Text.dropMark_eq_self hmark] at hb
  rw [blocksOf, String.toList_append, hgap, Text.dropMark_append_feed, hlines, hlength]
  exact Block.ofLines_append ha hb n

end Schema

/-! ## The table of both -/

theorem declared_append (as bs : List Block) : declared (as ++ bs) = declared as ++ declared bs :=
  List.filterMap_append

theorem declared_map_shift (n : Nat) (bs : List Block) :
    declared (bs.map (Block.shift n)) = declared bs := by
  rw [declared, List.filterMap_map]
  rfl

theorem Block.typedFields_shift (n : Nat) (b : Block) :
    (b.shift n).typedFields = b.typedFields.map (FieldDecl.shift n) := by
  rw [typedFields, typedFields, shift_keyword]
  cases b.keyword <;> rfl

namespace Names

variable {names names' : Names} {t : TypeExpr}

/-- A type that is known stays what it is when further names are entered. -/
theorem kindOf_append_left (h : (names.kindOf t).isSome = true) :
    kindOf (names ++ names') t = names.kindOf t := by
  cases t with
  | unsupported raw => rfl
  | named n =>
    rw [kindOf] at h ⊢
    split at h
    · next hscalar => simp [kindOf, hscalar]
    · next hscalar =>
      obtain ⟨kind, hkind⟩ := Option.isSome_iff_exists.mp h
      simp [kindOf, hscalar, List.lookup_append, hkind]

/-- A type that is known stays what it is when other names were entered before. -/
theorem kindOf_append_right (hdisjoint : ∀ n ∈ names.map Prod.fst, n ∉ names'.map Prod.fst)
    (h : (names'.kindOf t).isSome = true) : kindOf (names ++ names') t = names'.kindOf t := by
  cases t with
  | unsupported raw => rfl
  | named n =>
    rw [kindOf] at h ⊢
    split at h
    · next hscalar => simp [kindOf, hscalar]
    · next hscalar =>
      have hnone : names.lookup n = none := by
        rw [← Option.not_isSome_iff_eq_none, isSome_lookup_iff]
        exact fun hn => hdisjoint n hn (isSome_lookup_iff.mp h)
      simp [kindOf, hscalar, List.lookup_append, hnone]

theorem enterAll_append (names : Names) (as bs : List Block) :
    names.enterAll (as ++ bs) = match names.enterAll as with
      | .error e => .error e
      | .ok names' => names'.enterAll bs := by
  induction as generalizing names with
  | nil => rfl
  | cons a as ih =>
    rw [List.cons_append, enterAll, enterAll]
    cases names.enter a with
    | error e => rfl
    | ok entered => exact ih entered

end Names

/-- Whether the block declares a name that is in the table already. -/
def Block.clashesWith (names : Names) (b : Block) : Bool :=
  !b.keyword.isSettings && (names.lookup b.name).isSome

theorem mem_map_fst_declared_iff {bs : List Block} {n : String} :
    n ∈ (declared bs).map Prod.fst ↔ ∃ b ∈ bs, b.keyword.isSettings = false ∧ b.name = n := by
  rw [map_fst_declared, List.mem_map]
  simp [and_assoc]

/-- Blocks clash with a table exactly if they declare a name that is in it. -/
theorem exists_clashesWith_iff {names : Names} {bs : List Block} :
    (∃ b ∈ bs, b.clashesWith names = true) ↔
      ∃ n ∈ names.map Prod.fst, n ∈ (declared bs).map Prod.fst := by
  simp only [Block.clashesWith, Bool.and_eq_true, Bool.not_eq_true', Names.isSome_lookup_iff,
    mem_map_fst_declared_iff]
  constructor
  · rintro ⟨b, hb, hsettings, hn⟩
    exact ⟨b.name, hn, b, hb, hsettings, rfl⟩
  · rintro ⟨n, hn, b, hb, hsettings, rfl⟩
    exact ⟨b, hb, hsettings, hn⟩

/-- **The first block that clashes** is reported, if the blocks agree with each other. -/
theorem Names.enterAll_eq_error {names : Names} {bs : List Block} {c : Block}
    (hnodup : ((declared bs).map Prod.fst).Nodup)
    (hscalar : ∀ n ∈ (declared bs).map Prod.fst, isScalarName n = false)
    (h : bs.find? (Block.clashesWith names) = some c) :
    names.enterAll bs = .error (.atLine c.line (.duplicateName c.name)) := by
  obtain ⟨hclash, before, after, rfl, hbefore⟩ := List.find?_eq_some_iff_append.mp h
  rw [declared_append, List.map_append] at hnodup hscalar
  have hfree : ∀ n ∈ (declared before).map Prod.fst, n ∉ names.map Prod.fst := by
    intro n hn htaken
    obtain ⟨b, hb, hb'⟩ := exists_clashesWith_iff.mpr ⟨n, htaken, hn⟩
    simpa [hb'] using hbefore b hb
  have hentered : names.enterAll before = .ok (names ++ declared before) :=
    enterAll_eq_ok_iff.mpr ⟨rfl, (List.nodup_append.mp hnodup).1,
      fun n hn => ⟨hfree n hn, hscalar n (List.mem_append_left _ hn)⟩⟩
  rw [Block.clashesWith, Bool.and_eq_true, ← Keyword.isSome_declares] at hclash
  obtain ⟨hdeclares, htaken⟩ := hclash
  obtain ⟨kind, hkind⟩ := Option.isSome_iff_exists.mp hdeclares
  have htaken' : (List.lookup c.name (names ++ declared before)).isSome = true := by
    rw [List.lookup_append, Option.isSome_or, htaken]
    rfl
  have henter : Names.enter (names ++ declared before) c =
      .error (.atLine c.line (.duplicateName c.name)) := by
    simp [enter, hkind, htaken']
  rw [enterAll_append, hentered]
  simp only [enterAll, henter]

/-! ## The schema of both -/

instance : Append Schema where
  append s t :=
    { models := s.models ++ t.models
      enums := s.enums ++ t.enums
      compositeTypes := s.compositeTypes ++ t.compositeTypes }

instance : Append Diagram where
  append d e := { tables := d.tables ++ e.tables, relations := d.relations ++ e.relations }

namespace Schema

variable {as bs : List Block}

theorem assemble_append (names : Names) (as bs : List Block) :
    assemble names (as ++ bs) = assemble names as ++ assemble names bs := by
  simp only [assemble, List.filterMap_append]
  rfl

/-- The schema does not tell on which lines its parts were declared. -/
theorem assemble_map_shift (names : Names) (n : Nat) (bs : List Block) :
    assemble names (bs.map (Block.shift n)) = assemble names bs := by
  have hresolved : ∀ b : Block, (b.shift n).resolved names = b.resolved names := by
    intro b
    rw [Block.resolved, Block.resolved, Block.shift, List.map_map]
    rfl
  simp only [assemble, List.filterMap_map, mk.injEq]
  refine ⟨List.filterMap_congr fun b _ => ?_, rfl, List.filterMap_congr fun b _ => ?_⟩
  · rw [Function.comp_apply, Block.model?, hresolved]
    rfl
  · rw [Function.comp_apply, Block.compositeType?, hresolved]
    rfl

/-- **The schema of both.** -/
theorem ofBlocks_append {s t : Schema} (ha : ofBlocks as = .ok s) (hb : ofBlocks bs = .ok t)
    (hdisjoint : ∀ n ∈ (declared as).map Prod.fst, n ∉ (declared bs).map Prod.fst) (n : Nat) :
    ofBlocks (as ++ bs.map (Block.shift n)) = .ok (s ++ t) := by
  obtain ⟨hresolvable, rfl⟩ := ofBlocks_eq_ok_iff.mp ha
  obtain ⟨hresolvable', rfl⟩ := ofBlocks_eq_ok_iff.mp hb
  have hdeclared : declared (as ++ bs.map (Block.shift n)) = declared as ++ declared bs := by
    rw [declared_append, declared_map_shift]
  have hleft : ∀ b ∈ as, ∀ f ∈ b.typedFields,
      Names.kindOf (declared as ++ declared bs) f.type = (declared as).kindOf f.type :=
    fun b hb f hf => Names.kindOf_append_left (hresolvable.known b hb f hf)
  have hright : ∀ b ∈ bs, ∀ f ∈ b.typedFields,
      Names.kindOf (declared as ++ declared bs) f.type = (declared bs).kindOf f.type :=
    fun b hb f hf => Names.kindOf_append_right hdisjoint (hresolvable'.known b hb f hf)
  refine ofBlocks_eq_ok_iff.mpr ⟨⟨?_, ?_, ?_⟩, ?_⟩
  · rw [hdeclared, List.map_append, List.nodup_append]
    refine ⟨hresolvable.nodup, hresolvable'.nodup, ?_⟩
    rintro m hm _ hm' rfl
    exact hdisjoint m hm hm'
  · rw [hdeclared, List.map_append, List.forall_mem_append]
    exact ⟨hresolvable.notScalar, hresolvable'.notScalar⟩
  · rw [hdeclared, List.forall_mem_append]
    refine ⟨fun b hb f hf => ?_, fun b' hb' f hf => ?_⟩
    · rw [hleft b hb f hf]
      exact hresolvable.known b hb f hf
    · obtain ⟨b, hb, rfl⟩ := List.mem_map.mp hb'
      rw [Block.typedFields_shift] at hf
      obtain ⟨g, hg, rfl⟩ := List.mem_map.mp hf
      exact (congrArg Option.isSome (hright b hb g hg)).trans (hresolvable'.known b hb g hg)
  · rw [hdeclared, assemble_append, assemble_map_shift, assemble_congr hleft,
      assemble_congr hright]

/-- **The clash of both.** -/
theorem ofBlocks_append_eq_error {s t : Schema} {c : Block} (ha : ofBlocks as = .ok s)
    (hb : ofBlocks bs = .ok t) (hc : bs.find? (Block.clashesWith (declared as)) = some c)
    (n : Nat) : ofBlocks (as ++ bs.map (Block.shift n)) =
      .error (.atLine (c.line + n) (.duplicateName c.name)) := by
  obtain ⟨hresolvable, -⟩ := ofBlocks_eq_ok_iff.mp ha
  obtain ⟨hresolvable', -⟩ := ofBlocks_eq_ok_iff.mp hb
  have hentered : Names.enterAll [] as = .ok (declared as) :=
    Names.enterAll_eq_ok_iff.mpr ⟨rfl, hresolvable.nodup,
      fun m hm => ⟨by simp, hresolvable.notScalar m hm⟩⟩
  have hfind : (bs.map (Block.shift n)).find? (Block.clashesWith (declared as)) =
      some (c.shift n) := by
    rw [List.find?_map]
    exact congrArg (Option.map (Block.shift n)) hc
  have herror : (declared as).enterAll (bs.map (Block.shift n)) =
      .error (.atLine (c.line + n) (.duplicateName c.name)) :=
    Names.enterAll_eq_error (by rw [declared_map_shift]; exact hresolvable'.nodup)
      (by rw [declared_map_shift]; exact hresolvable'.notScalar) hfind
  rw [ofBlocks, Names.enterAll_append, hentered]
  simp only [herror]

/-! ## The diagram of both -/

theorem diagram?_append {s t : Schema} {d e : Diagram} (hs : s.diagram? = some d)
    (ht : t.diagram? = some e) : (s ++ t).diagram? = some (d ++ e) := by
  obtain ⟨tables, htables, rfl⟩ := Option.map_eq_some_iff.mp hs
  obtain ⟨tables', htables', rfl⟩ := Option.map_eq_some_iff.mp ht
  have hmodels : (s ++ t).models.mapM Model.table? = some (tables ++ tables') := by
    change (s.models ++ t.models).mapM Model.table? = _
    rw [List.mapM_append, htables, htables']
    rfl
  have hrelations : (s ++ t).models.flatMap Model.relations =
      s.models.flatMap Model.relations ++ t.models.flatMap Model.relations :=
    List.flatMap_append
  rw [diagram?, hmodels, hrelations]
  rfl

/-- **Schemas one after the other.** If no name is declared by both texts, the text of both declares
what the one declares and then what the other declares, and its diagram is drawn from those of the
two. Otherwise the first block of the second text that declares a name of the first one is reported
on its line in the text of both. -/
theorem parse_append {a b : String} {s t : Schema} (ha : parse a = .ok s) (hb : parse b = .ok t)
    (hmark : b.toList.head? ≠ some Text.byteOrderMark) :
    ∃ as bs d e, blocksOf a = .ok as ∧ blocksOf b = .ok bs ∧
      diagramOf a = .ok d ∧ diagramOf b = .ok e ∧
      ((∀ n ∈ (declared as).map Prod.fst, n ∉ (declared bs).map Prod.fst) →
        parse (a ++ "\n\n" ++ b) = .ok (s ++ t) ∧
          diagramOf (a ++ "\n\n" ++ b) = .ok (d ++ e)) ∧
      ((∃ n ∈ (declared as).map Prod.fst, n ∈ (declared bs).map Prod.fst) →
        ∃ c, bs.find? (Block.clashesWith (declared as)) = some c ∧
          c.IsHeadedIn (Text.lines b.toList) ∧
          parse (a ++ "\n\n" ++ b) =
            .error (.atLine (c.line + (Text.lines (a ++ "\n\n").toList).length)
              (.duplicateName c.name))) := by
  obtain ⟨as, has, hresolvable, hs⟩ := parse_eq_ok_iff.mp ha
  obtain ⟨bs, hbs, hresolvable', ht⟩ := parse_eq_ok_iff.mp hb
  have hofa : ofBlocks as = .ok s := ofBlocks_eq_ok_iff.mpr ⟨hresolvable, hs⟩
  have hofb : ofBlocks bs = .ok t := ofBlocks_eq_ok_iff.mpr ⟨hresolvable', ht⟩
  obtain ⟨d, hd⟩ := exists_diagram_of_parse ha
  obtain ⟨e, he⟩ := exists_diagram_of_parse hb
  have hboth := parse_eq_ofBlocks (blocksOf_append has hbs hmark)
  refine ⟨as, bs, d, e, has, hbs, diagramOf_eq_ok_iff.mpr ⟨s, ha, hd⟩,
    diagramOf_eq_ok_iff.mpr ⟨t, hb, he⟩, fun hdisjoint => ?_, fun hshared => ?_⟩
  · have hparse := hboth.trans (ofBlocks_append hofa hofb hdisjoint _)
    exact ⟨hparse, diagramOf_eq_ok_iff.mpr ⟨s ++ t, hparse, diagram?_append hd he⟩⟩
  · obtain ⟨b', hb', hclash⟩ := exists_clashesWith_iff.mpr hshared
    obtain ⟨c, hc⟩ := Option.isSome_iff_exists.mp (List.find?_isSome.mpr ⟨b', hb', hclash⟩)
    have hheaded := Block.isHeadedIn_of_ofLines (Text.isOneLine_of_mem_lines _) hbs c
      (List.mem_of_find?_eq_some hc)
    rw [Text.dropMark_eq_self hmark] at hheaded
    exact ⟨c, hc, hheaded, hboth.trans (ofBlocks_append_eq_error hofa hofb hc _)⟩

/-- A model behind an enum, and the enum behind itself. The comment at the end of the first text is
not taken for documentation of the model. -/
theorem parse_append_enum :
    (∃ s t d e, parse "enum E \x7b\x7d\n/// end" = .ok s ∧ parse "model A \x7b\x7d" = .ok t ∧
      parse ("enum E \x7b\x7d\n/// end" ++ "\n\n" ++ "model A \x7b\x7d") = .ok (s ++ t) ∧
        diagramOf ("enum E \x7b\x7d\n/// end" ++ "\n\n" ++ "model A \x7b\x7d") = .ok (d ++ e)) ∧
    parse ("enum E \x7b\x7d\n/// end" ++ "\n\n" ++ "enum E \x7b\x7d\n/// end") =
      .error (.atLine 4 (.duplicateName "E")) := by
  have ha : parse "enum E \x7b\x7d\n/// end" = .ok { enums := [{ name := "E" }] } := by
    with_unfolding_all rfl
  have hb : parse "model A \x7b\x7d" = .ok { models := [{ name := "A" }] } := by
    with_unfolding_all rfl
  have hblocks : blocksOf "enum E \x7b\x7d\n/// end" =
      .ok [{ keyword := .enum, name := "E", line := 1 }] := by
    with_unfolding_all rfl
  have hblocks' : blocksOf "model A \x7b\x7d" =
      .ok [{ keyword := .model, name := "A", line := 1 }] := by
    with_unfolding_all rfl
  constructor
  · obtain ⟨as, bs, d, e, has, hbs, -, -, hdisjoint, -⟩ := parse_append ha hb (by decide)
    obtain rfl := Except.ok.inj (hblocks.symm.trans has)
    obtain rfl := Except.ok.inj (hblocks'.symm.trans hbs)
    exact ⟨_, _, d, e, ha, hb, hdisjoint (by decide)⟩
  · obtain ⟨as, bs, d, e, has, hbs, -, -, -, hshared⟩ := parse_append ha ha (by decide)
    obtain rfl := Except.ok.inj (hblocks.symm.trans has)
    obtain rfl := Except.ok.inj (hblocks.symm.trans hbs)
    obtain ⟨c, hc, -, herror⟩ := hshared (by decide)
    obtain rfl := Option.some.inj ((rfl : _ = some _).symm.trans hc)
    exact herror

end Schema
end SchemaDiagram
