import SchemaDiagram.Proofs.Failure

/-!
# What the edges of a diagram lead to

An edge starts at the table of the model whose field draws it and leads to the type of the field
(`Contribution.relations_ofField`). If the field is of the kind of a model, its type is a model or a
view of the text. A model has a table, and the edge leads to it. A view has none, although a field
that refers to it is of the same kind, so an edge to a view leads to no table of the diagram. These
are all cases there are (`Schema.edges_of_parse`): the edges of such fields have both ends in the
diagram exactly if they do not lead to a view.
-/

namespace SchemaDiagram

/-! ## The tables of a diagram -/

namespace Schema

/-- There is one table per model, and it has its name. -/
theorem map_name_tables {s : Schema} {d : Diagram} (h : s.diagram? = some d) :
    d.tables.map Table.name = s.models.map Model.name :=
  map_eq_map_of_forall₂ ((diagram?_eq_some_iff.mp h).1.imp fun _ _ ht => ht.1)

theorem mem_relations_of_mem_fields {s : Schema} {d : Diagram} (h : s.diagram? = some d) {m : Model}
    (hm : m ∈ s.models) {f : Field} (hf : f ∈ m.fields) :
    ∀ r ∈ (Contribution.ofField m.name f).relations, r ∈ d.relations := by
  rw [(diagram?_eq_some_iff.mp h).2]
  exact fun r hr => List.mem_flatMap.mpr ⟨m, hm, List.mem_flatMap.mpr ⟨f, hf, hr⟩⟩

end Schema

/-! ## The fields of the kind of a model -/

/-- A field of the kind of a model names a model or a view. -/
theorem FieldDecl.Becomes.exists_of_kind_eq_model {ws : List WrittenBlock} {s : Schema}
    {f : FieldDecl} {field : Field} (h : f.Becomes ws s field) (hkind : field.type.kind = .model) :
    ∃ w ∈ ws, (w.keyword = .model ∨ w.keyword = .view) ∧ w.name = field.type.name := by
  cases hf : f.type with
  | unsupported raw =>
    have := h.unsupported.mpr ⟨raw, hf⟩
    rw [hkind] at this
    simp at this
  | named n =>
    have hname : field.type.name = n := by rw [h.typeName, hf]; rfl
    rw [hname]
    exact (h.model n hf).mp hkind

theorem Schema.Declares.exists_of_kind_eq_model {ws : List WrittenBlock} {s : Schema}
    (h : s.Declares ws) {m : Model} (hm : m ∈ s.models) {f : Field} (hf : f ∈ m.fields)
    (hkind : f.type.kind = .model) :
    ∃ w ∈ ws, (w.keyword = .model ∨ w.keyword = .view) ∧ w.name = f.type.name := by
  obtain ⟨w, -, -, hfields, -⟩ := exists_of_mem_of_forall₂ h.models hm
  obtain ⟨g, -, hbecomes⟩ := exists_of_mem_of_forall₂ hfields hf
  exact hbecomes.exists_of_kind_eq_model hkind

/-- Blocks that declare one name are the same block. -/
theorem eq_of_name_eq {ws : List WrittenBlock} (hnodup : (declaredNames ws).Nodup)
    {w w' : WrittenBlock} (hw : w ∈ ws) (hw' : w' ∈ ws) (hk : w.keyword.isSettings = false)
    (hk' : w'.keyword.isSettings = false) (hname : w.name = w'.name) : w = w' :=
  List.inj_on_of_nodup_map hnodup (List.mem_filter.mpr ⟨hw, by rw [hk]; rfl⟩)
    (List.mem_filter.mpr ⟨hw', by rw [hk']; rfl⟩) hname

namespace Schema

/-- The models of the schema are those of the text. -/
theorem mem_map_models_iff {bs : List Block} {ws : List WrittenBlock} (names : Names)
    (hbare : bs.map Block.bare = ws.map WrittenBlock.block) {n : String} :
    n ∈ (assemble names bs).models.map Model.name ↔
      ∃ w ∈ ws, w.keyword = .model ∧ w.name = n := by
  rw [map_models_assemble, mem_map_filter_iff]
  exact exists_block_iff_of_map_bare hbare fun k => k = .model

/-- **The edges of fields of the kind of a model.** They start at a table of the diagram, and they
lead to one exactly if the type of the field is not the name of a view. -/
theorem edges_of_parse {text : String} {s : Schema} (h : parse text = .ok s) :
    ∃ d ws, diagramOf text = .ok d ∧ Spelled ws (codeOf text) ∧
      ∀ m ∈ s.models, ∀ f ∈ m.fields, f.type.kind = .model →
        ∀ r ∈ (Contribution.ofField m.name f).relations,
          r ∈ d.relations ∧ r.source ∈ d.tables.map Table.name ∧
            (r.target ∈ d.tables.map Table.name ↔
              ∀ w ∈ ws, w.keyword = .view → w.name ≠ r.target) := by
  obtain ⟨d, hdiagram⟩ := exists_diagram_of_parse h
  have hd : diagramOf text = .ok d := diagramOf_eq_ok_iff.mpr ⟨s, h, hdiagram⟩
  obtain ⟨bs, hbs, hresolvable, rfl⟩ := parse_eq_ok_iff.mp h
  obtain ⟨ws, hspelled, hbare⟩ := Block.ofLines_spelled hbs
  have htyped := Block.typedFields_of_ofLines (Text.isOneLine_of_mem_lines _) hbs
  have hnodup := ((isResolvable_iff_of_map_bare htyped hbare).mp hresolvable).1
  refine ⟨d, ws, hd, hspelled, fun m hm f hf hkind r hr => ?_⟩
  have hmem := mem_relations_of_mem_fields hdiagram hm hf r hr
  rw [Contribution.relations_ofField] at hr
  rw [List.eq_of_mem_replicate hr] at hmem ⊢
  rw [map_name_tables hdiagram]
  refine ⟨hmem, List.mem_map_of_mem hm, ?_⟩
  rw [mem_map_models_iff _ hbare]
  constructor
  · rintro ⟨w, hw, hmodel, hname⟩ w' hw' hview hname'
    have hsame := eq_of_name_eq hnodup hw hw' (by rw [hmodel]; rfl) (by rw [hview]; rfl)
      (hname.trans hname'.symm)
    rw [hsame, hview] at hmodel
    simp at hmodel
  · intro hnoView
    obtain ⟨w, hw, hmodel | hview, hname⟩ :=
      (hresolvable.declares hbare).exists_of_kind_eq_model hm hf hkind
    · exact ⟨w, hw, hmodel, hname⟩
    · exact absurd hname (hnoView w hw hview)

/-- An edge that leads to a view starts at a table and leads to none. -/
theorem edges_of_parse_view :
    ∃ s d, parse "model A \x7b\n  b B @relation\n\x7d\nview B \x7b\x7d" = .ok s ∧
      diagramOf "model A \x7b\n  b B @relation\n\x7d\nview B \x7b\x7d" = .ok d ∧
        ∃ m ∈ s.models, ∃ f ∈ m.fields, f.type.kind = .model ∧
          ∃ r ∈ (Contribution.ofField m.name f).relations, r ∈ d.relations ∧
            r.source ∈ d.tables.map Table.name ∧ r.target ∉ d.tables.map Table.name := by
  have h : parse "model A \x7b\n  b B @relation\n\x7d\nview B \x7b\x7d" = .ok
      { models := [{
          name := "A"
          fields := [{
            name := "b", type := { name := "B", kind := .model }
            attributes := [{ name := "relation" }] }] }] } := by
    with_unfolding_all rfl
  have hdiagram : diagramOf "model A \x7b\n  b B @relation\n\x7d\nview B \x7b\x7d" = .ok
      { tables := [{ name := "A", columns := [{ name := "b", datatype := "B" }] }]
        relations := [{ source := "A", target := "B" }] } := by
    rw [diagramOf, h]
    rfl
  obtain ⟨d, ws, hd, -, hedges⟩ := edges_of_parse h
  obtain rfl := Except.ok.inj (hdiagram.symm.trans hd)
  obtain ⟨hmem, hsource, -⟩ := hedges _ (List.mem_cons_self ..) _ (List.mem_cons_self ..) rfl
    { source := "A", target := "B" } (by decide)
  exact ⟨_, _, h, hd, _, List.mem_cons_self .., _, List.mem_cons_self .., rfl,
    { source := "A", target := "B" }, by decide, hmem, hsource, by decide⟩

end Schema
end SchemaDiagram
