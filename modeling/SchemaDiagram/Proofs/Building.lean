import Mathlib.Algebra.GroupWithZero.Nat
import Mathlib.Data.List.Forall2
import SchemaDiagram.Diagram.Render
import SchemaDiagram.Drawing
import SchemaDiagram.Proofs.Contribution

/-!
# What the diagram of a schema holds

A schema has a diagram exactly if every model of it has a name. The diagram then has a table for
each model and a column for each field, in order, and `Column.Shows` says what a column shows of its
field. It has an edge for each attribute that means a relation, and not for each field that has such
an attribute: these are the same edges exactly if no field is marked as a relation twice
(`Schema.relations_of_build`).

A diagram is drawn from the outline of the schema alone. Whatever the outline leaves out can be
changed without changing the diagram.
-/

namespace SchemaDiagram

/-! ## Lists -/

section Lists

variable {α β γ : Type}

theorem mapM_eq_some_iff {g : α → Option β} {as : List α} {bs : List β} :
    as.mapM g = some bs ↔ List.Forall₂ (fun b a => g a = some b) bs as := by
  induction as generalizing bs with
  | nil => simp [eq_comm]
  | cons a as ih =>
    rw [List.mapM_cons]
    constructor
    · intro h
      obtain ⟨b, hb, h⟩ := Option.bind_eq_some_iff.mp h
      obtain ⟨rest, hrest, h⟩ := Option.bind_eq_some_iff.mp h
      obtain rfl := Option.some.inj h
      exact .cons hb (ih.mp hrest)
    · rintro (_ | ⟨hb, hrest⟩)
      rw [hb, ih.mpr hrest]
      rfl

theorem mapM_eq_none_iff {g : α → Option β} {as : List α} :
    as.mapM g = none ↔ ∃ a ∈ as, g a = none := by
  induction as with
  | nil => simp
  | cons a as ih =>
    cases ha : g a with
    | none => simp [List.mapM_cons, ha]
    | some b => cases hrest : as.mapM g <;> simp [List.mapM_cons, ha, hrest, ← ih]

/-- Lists with the same images have the same images under what depends on these only. -/
theorem map_eq_map_of_factors {g : α → β} {k : α → γ} (hk : ∀ a b, g a = g b → k a = k b)
    {as bs : List α} (h : as.map g = bs.map g) : as.map k = bs.map k := by
  induction as generalizing bs with
  | nil =>
    obtain rfl := List.map_eq_nil_iff.mp h.symm
    rfl
  | cons a as ih =>
    obtain ⟨b, bs, rfl, hb, hbs⟩ := List.map_eq_cons_iff.mp h.symm
    rw [List.map_cons, List.map_cons, hk a b hb.symm, ih hbs.symm]

theorem map_eq_map_of_forall₂ {f : α → γ} {g : β → γ} {as : List α} {bs : List β}
    (h : List.Forall₂ (fun a b => f a = g b) as bs) : as.map f = bs.map g := by
  rwa [← List.forall₂_eq_eq_eq, List.forall₂_map_left_iff, List.forall₂_map_right_iff]

/-- A list that is related to another one by a function is its image. -/
theorem forall₂_iff_eq_map {R : α → β → Prop} {g : α → β}
    (hR : ∀ a b, R a b ↔ b = g a) {as : List α} {bs : List β} :
    List.Forall₂ R as bs ↔ bs = as.map g := by
  constructor
  · intro h
    have := map_eq_map_of_forall₂ (f := g) (g := id) (h.imp fun a b hab => ((hR a b).mp hab).symm)
    rw [this, List.map_id]
  · rintro rfl
    exact List.forall₂_map_right_iff.mpr (List.forall₂_same.mpr fun a _ => (hR a _).mpr rfl)

theorem exists_of_mem_of_forall₂ {R : α → β → Prop} {as : List α} {bs : List β}
    (h : List.Forall₂ R as bs) {b : β} (hb : b ∈ bs) : ∃ a ∈ as, R a b := by
  induction h with
  | nil => simp at hb
  | @cons a c as bs hac _ ih =>
    rcases List.mem_cons.mp hb with rfl | hb
    · exact ⟨a, List.mem_cons_self .., hac⟩
    · obtain ⟨a', ha', hr⟩ := ih hb
      exact ⟨a', List.mem_cons_of_mem _ ha', hr⟩

theorem length_filter_pos_le_sum (n : α → Nat) (as : List α) :
    (as.filter (0 < n ·)).length ≤ (as.map n).sum := by
  induction as with
  | nil => simp
  | cons a as ih =>
    rw [List.filter_cons, List.map_cons, List.sum_cons]
    split
    · next ha =>
      have := of_decide_eq_true ha
      rw [List.length_cons]
      omega
    · omega

/-- Copies of the images of a list are the images themselves, of those that are copied at all,
exactly if none is copied twice. -/
theorem flatMap_replicate_eq_iff {n : α → Nat} {g : α → β} {as : List α} :
    (as.flatMap fun a => List.replicate (n a) (g a)) = (as.filter (0 < n ·)).map g ↔
      ∀ a ∈ as, n a ≤ 1 := by
  constructor
  · intro h
    have hlength : (as.map n).sum ≤ (as.filter (0 < n ·)).length := by
      simpa [List.length_flatMap] using Nat.le_of_eq (congrArg List.length h)
    clear h
    -- neither the head nor the tail may have fewer images than copies
    induction as with
    | nil => simp
    | cons a as ih =>
      have hle := length_filter_pos_le_sum n as
      rw [List.filter_cons, List.map_cons, List.sum_cons] at hlength
      by_cases ha : 0 < n a
      · rw [if_pos (decide_eq_true ha), List.length_cons] at hlength
        exact List.forall_mem_cons.mpr ⟨by omega, ih (by omega)⟩
      · rw [if_neg (by simpa using ha)] at hlength
        exact List.forall_mem_cons.mpr ⟨by omega, ih (by omega)⟩
  · intro h
    induction as with
    | nil => rfl
    | cons a as ih =>
      obtain ⟨ha, has⟩ := List.forall_mem_cons.mp h
      rw [List.flatMap_cons, ih has, List.filter_cons]
      obtain hzero | hone : n a = 0 ∨ n a = 1 := by omega
      · simp [hzero]
      · simp [hone]

end Lists

/-! ## Tables of models -/

theorem Table.ofName?_eq_some_iff {name : String} {columns : List Column} {t : Table} :
    Table.ofName? name columns = some t ↔ t.name = name ∧ t.columns = columns := by
  unfold Table.ofName?
  split
  · next hname =>
    refine iff_of_false (by simp) ?_
    rintro ⟨rfl, -⟩
    exact t.name_ne hname
  · rw [Option.some.injEq]
    constructor
    · rintro rfl
      exact ⟨rfl, rfl⟩
    · rintro ⟨rfl, rfl⟩
      rfl

theorem Model.table?_eq_none_iff {m : Model} : m.table? = none ↔ m.name = "" := by
  unfold Model.table? Table.ofName?
  split <;> simp_all

namespace Schema

theorem diagram?_eq_none_iff {s : Schema} : s.diagram? = none ↔ ∃ m ∈ s.models, m.name = "" := by
  rw [diagram?, Option.map_eq_none_iff, mapM_eq_none_iff]
  simp only [Model.table?_eq_none_iff]

theorem exists_diagram_iff {s : Schema} :
    (∃ d, s.diagram? = some d) ↔ ∀ m ∈ s.models, m.name ≠ "" := by
  rw [← Option.ne_none_iff_exists', ne_eq, diagram?_eq_none_iff]
  simp

/-- The tables of a diagram are those of the models, and its relations are the edges of all fields
in order. -/
theorem diagram?_eq_some_iff {s : Schema} {d : Diagram} :
    s.diagram? = some d ↔
      List.Forall₂ (fun t m => t.name = m.name ∧ t.columns = m.columns) d.tables s.models ∧
        d.relations = s.models.flatMap Model.relations := by
  rw [diagram?, Option.map_eq_some_iff]
  simp only [mapM_eq_some_iff, Model.table?, Table.ofName?_eq_some_iff]
  constructor
  · rintro ⟨tables, htables, rfl⟩
    exact ⟨htables, rfl⟩
  · rintro ⟨htables, hrelations⟩
    exact ⟨d.tables, htables, by rw [← hrelations]⟩

/-- Building reports the diagram, or the one thing that can be wrong. -/
theorem outcome_buildTraced (s : Schema) :
    s.buildTraced.outcome = s.diagram?.elim (.error .unnamedTable) .ok := by
  rw [buildTraced]
  cases s.diagram? <;> rfl

end Schema

/-! ## Columns of fields -/

/-- What a column shows of a field. The constraints are those that are asked for, each listed once
and behind those that are asked for earlier, and they are drawn behind the type if there are any. -/
structure Column.Shows (c : Column) (f : Field) : Prop where
  name : c.name = f.name
  datatype : c.datatype = f.type.name
  primaryKey : .primaryKey ∈ c.constraints ↔ ∃ a ∈ f.attributes, a.name = "id"
  unique : .unique ∈ c.constraints ↔ ∃ a ∈ f.attributes, a.name = "unique"
  foreignKey : .foreignKey ∉ c.constraints
  nodup : c.constraints.Nodup
  ordered : c.constraints.Pairwise fun k l =>
    f.attributes.findIdx (fun a => k.attributeName? = some a.name) <
      f.attributes.findIdx (fun a => l.attributeName? = some a.name)
  render : c.render = f.name ++ ": " ++ f.type.name ++
    if c.constraints = [] then ""
    else " \x7b constraint: [" ++ "; ".intercalate (c.constraints.map Constraint.word) ++ "] \x7d"

/-- **The column of a field** shows the field. -/
theorem Column.shows_ofField (table : String) (f : Field) : (ofField table f).Shows f where
  name := rfl
  datatype := rfl
  primaryKey := by
    rw [Contribution.constraints_column, Contribution.mem_constraints_ofField]
    simp [Constraint.attributeName?, eq_comm]
  unique := by
    rw [Contribution.constraints_column, Contribution.mem_constraints_ofField]
    simp [Constraint.attributeName?, eq_comm]
  foreignKey := by
    rw [Contribution.constraints_column, Contribution.mem_constraints_ofField]
    simp [Constraint.attributeName?]
  nodup := (ofField table f).nodup
  ordered := by
    rw [Contribution.constraints_column]
    exact Contribution.pairwise_constraints_ofField table f
  render := by
    rw [Column.render, annotation]
    simp only [List.isEmpty_iff]
    rfl

/-- What a table shows of a model: its name and its fields, column by column. -/
structure Table.Shows (t : Table) (m : Model) : Prop where
  name : t.name = m.name
  columns : List.Forall₂ Column.Shows t.columns m.fields

/-- **The table of a model** shows the model. -/
theorem Table.shows_of_columns {t : Table} {m : Model} (hname : t.name = m.name)
    (hcolumns : t.columns = m.columns) : t.Shows m := by
  refine ⟨hname, ?_⟩
  rw [hcolumns, Model.columns, List.forall₂_map_left_iff, List.forall₂_same]
  exact fun f _ => Column.shows_ofField m.name f

/-! ## Outlines of schemas -/

/-- What a diagram takes from a model. -/
structure Model.Outline where
  name : String
  fields : List Field.Outline
  deriving DecidableEq, Repr

/-- The outline of a model. -/
def Model.outline (m : Model) : Model.Outline :=
  { name := m.name, fields := m.fields.map Field.outline }

/-- The outline of a schema: its models are all that a diagram takes from it. -/
def Schema.outline (s : Schema) : List Model.Outline :=
  s.models.map Model.outline

theorem Model.table?_congr {m m' : Model} (h : m.outline = m'.outline) : m.table? = m'.table? := by
  obtain ⟨hname, hfields⟩ := Model.Outline.mk.inj h
  have hcolumns : m.columns = m'.columns := by
    rw [columns, columns, ← hname]
    exact map_eq_map_of_factors (fun _ _ => Column.ofField_congr m.name) hfields
  rw [table?, table?, hname, hcolumns]

theorem Model.relations_congr {m m' : Model} (h : m.outline = m'.outline) :
    m.relations = m'.relations := by
  obtain ⟨hname, hfields⟩ := Model.Outline.mk.inj h
  rw [relations, relations, ← hname, List.flatMap_def, List.flatMap_def]
  congr 1
  exact map_eq_map_of_factors
    (fun _ _ hf => congrArg Contribution.relations (Contribution.ofField_congr m.name hf)) hfields

namespace Schema

/-- **Schemas of one outline** have the same diagram. -/
theorem diagram?_congr {s t : Schema} (h : s.outline = t.outline) : s.diagram? = t.diagram? := by
  have htables : s.models.mapM Model.table? = t.models.mapM Model.table? := by
    have := map_eq_map_of_factors (fun _ _ => Model.table?_congr) h
    simpa [List.mapM_map] using congrArg (List.mapM id) this
  have hrelations : s.models.flatMap Model.relations = t.models.flatMap Model.relations := by
    rw [List.flatMap_def, List.flatMap_def,
      map_eq_map_of_factors (fun _ _ => Model.relations_congr) h]
  rw [diagram?, diagram?, htables, hrelations]

/-! ## What is built -/

/-- **Tables and columns.** Building fails exactly if a model has no name. Otherwise there is one
table per model and one column per field, in order, and the column shows the field. Nothing that the
outline of the schema leaves out has any influence on the outcome. -/
theorem columns_of_build (s : Schema) :
    (s.buildTraced.outcome = .error .unnamedTable ↔ ∃ m ∈ s.models, m.name = "") ∧
      ((∀ m ∈ s.models, m.name ≠ "") →
        ∃ d, s.buildTraced.outcome = .ok d ∧ List.Forall₂ Table.Shows d.tables s.models) ∧
      ∀ t : Schema, t.outline = s.outline → t.buildTraced.outcome = s.buildTraced.outcome := by
  refine ⟨?_, fun hnamed => ?_, fun t h => ?_⟩
  · rw [outcome_buildTraced, ← diagram?_eq_none_iff]
    cases s.diagram? <;> simp
  · obtain ⟨d, hd⟩ := exists_diagram_iff.mpr hnamed
    obtain ⟨htables, -⟩ := diagram?_eq_some_iff.mp hd
    exact ⟨d, by rw [outcome_buildTraced, hd]; rfl,
      htables.imp fun t m h => Table.shows_of_columns h.1 h.2⟩
  · rw [outcome_buildTraced, outcome_buildTraced, diagram?_congr h]

/-- A column with constraints that are asked for twice, in a schema that is changed where it does
not matter. -/
theorem columns_of_build_twice :
    ∃ (s t : Schema) (d : Diagram), t ≠ s ∧ t.outline = s.outline ∧
      (∀ m ∈ s.models, m.name ≠ "") ∧ s.buildTraced.outcome = .ok d ∧
        t.buildTraced.outcome = .ok d ∧ List.Forall₂ Table.Shows d.tables s.models ∧
        (d.tables.flatMap fun t => t.columns.map Column.render) =
          ["a: Int \x7b constraint: [unique; primary_key] \x7d"] := by
  let s : Schema := { models := [{
    name := "A"
    fields := [{
      name := "a", type := { name := "Int", kind := .scalar }
      attributes := [{ name := "unique" }, { name := "id" }, { name := "unique" }] }] }] }
  let t : Schema := { models := [{
    name := "A"
    fields := [{
      name := "a", type := { name := "Int", kind := .enum, isList := true }
      attributes := [{ name := "db.id" }, { name := "unique", arguments := [{ value := "id" }] },
        { name := "id" }, { name := "unique" }] }] }], enums := [{ name := "Int" }] }
  obtain ⟨-, hok, hsame⟩ := columns_of_build s
  obtain ⟨d, hd, htables⟩ := hok (by decide)
  have hrender : (d.tables.flatMap fun t => t.columns.map Column.render) =
      ["a: Int \x7b constraint: [unique; primary_key] \x7d"] := by
    obtain rfl := Except.ok.inj hd
    decide
  exact ⟨s, t, d, by decide, by decide, by decide, hd, (hsame t (by decide)).trans hd, htables,
    hrender⟩

/-! ## The edges of a diagram -/

/-- The fields of the models, each with the name of its model, in order of declaration. -/
def tableFields (s : Schema) : List (String × Field) :=
  s.models.flatMap fun m => m.fields.map (m.name, ·)

/-- There is one edge for each attribute that means a relation, in order of declaration. -/
theorem flatMap_relations (s : Schema) :
    s.models.flatMap Model.relations = s.tableFields.flatMap fun p =>
      List.replicate (p.2.attributes.countP (·.name = "relation"))
        { source := p.1, target := p.2.type.name } := by
  rw [tableFields, List.flatMap_assoc]
  refine List.flatMap_congr fun m _ => ?_
  rw [Model.relations, List.flatMap_map]
  refine List.flatMap_congr fun f _ => ?_
  simp only [Contribution.relations_ofField, Meaning.ofName_eq_relation_iff]

/-- No edge has a label, so it is drawn as its two ends. -/
theorem flatMap_render_relations {s : Schema} {d : Diagram} (h : s.diagram? = some d) :
    (d.relations.flatMap fun r => [r.render, ""]) =
      d.relations.flatMap fun r => [r.source ++ " -> " ++ r.target, ""] := by
  refine List.flatMap_congr fun r hr => ?_
  rw [(diagram?_eq_some_iff.mp h).2, flatMap_relations] at hr
  obtain ⟨p, -, hr⟩ := List.mem_flatMap.mp hr
  rw [List.eq_of_mem_replicate hr, Relation.render, String.append_empty]

/-- **The edges of a diagram.** There is one for each attribute named `relation`, in order of
declaration and without a label, and so there is one for each field with such an attribute exactly
if no field has two of them. Each edge is drawn on one line. -/
theorem relations_of_build {s : Schema} (hnamed : ∀ m ∈ s.models, m.name ≠ "") :
    ∃ d, s.buildTraced.outcome = .ok d ∧
      d.relations = (s.tableFields.flatMap fun p =>
        List.replicate (p.2.attributes.countP (·.name = "relation"))
          { source := p.1, target := p.2.type.name, label := none }) ∧
      (d.relations = (s.tableFields.filter fun p => p.2.attributes.any (·.name = "relation")).map
          (fun p => { source := p.1, target := p.2.type.name, label := none }) ↔
        ∀ p ∈ s.tableFields, p.2.attributes.countP (·.name = "relation") ≤ 1) ∧
      d.lines = (d.tables.flatMap fun t => t.lines ++ [""]) ++
        d.relations.flatMap fun r => [r.source ++ " -> " ++ r.target, ""] := by
  obtain ⟨d, hd⟩ := exists_diagram_iff.mpr hnamed
  have hrelations := (diagram?_eq_some_iff.mp hd).2.trans (flatMap_relations s)
  have hfilter : (s.tableFields.filter fun p => p.2.attributes.any (·.name = "relation")) =
      s.tableFields.filter fun p => 0 < p.2.attributes.countP (·.name = "relation") := by
    refine List.filter_congr fun p _ => ?_
    rw [Bool.eq_iff_iff, List.any_eq_true, decide_eq_true_iff, List.countP_pos_iff]
  refine ⟨d, by rw [outcome_buildTraced, hd]; rfl, hrelations, ?_, ?_⟩
  · rw [hfilter, hrelations, flatMap_replicate_eq_iff]
  · rw [Diagram.lines, flatMap_render_relations hd]

/-- A field that is marked as a relation twice has two edges. -/
theorem relations_of_build_twice :
    ∃ (s : Schema) (d : Diagram), (∀ m ∈ s.models, m.name ≠ "") ∧
      s.buildTraced.outcome = .ok d ∧
      (∃ p, s.tableFields = [p] ∧ p.2.attributes.any (·.name = "relation")) ∧
        d.relations = [{ source := "A", target := "A" }, { source := "A", target := "A" }] := by
  let s : Schema := { models := [{
    name := "A"
    fields := [{
      name := "a", type := { name := "A", kind := .model }
      attributes := [{ name := "relation" }, { name := "id" }, { name := "relation" }] }] }] }
  obtain ⟨d, hd, hrelations, -, -⟩ := relations_of_build (s := s) (by decide)
  exact ⟨s, d, by decide, hd, ⟨_, rfl, by decide⟩, hrelations⟩

end Schema
end SchemaDiagram
