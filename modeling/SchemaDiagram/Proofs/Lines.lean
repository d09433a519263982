import SchemaDiagram.Proofs.Failure

/-!
# The lines of a drawn diagram

A diagram is drawn line by line, and a reader sees the lines as they were meant provided that no
text of the diagram has a line feed of its own (`Diagram.splitAtFeeds_render`). For a diagram that
comes from the text of a schema this is so: its texts are names and types of fields, all of which
stand on one line of that text. Hence the lines of what is drawn are determined by the models, the
fields and the edges alone, and there is no way to write a schema that adds a line or breaks one
(`Schema.splitAtFeeds_draw`).
-/

namespace SchemaDiagram

/-! ## Texts without line feeds -/

/-- A column whose texts have no line feed. -/
structure Column.IsFeedFree (c : Column) : Prop where
  name : '\n' ∉ c.name.toList
  datatype : '\n' ∉ c.datatype.toList

/-- A table whose texts have no line feed. -/
structure Table.IsFeedFree (t : Table) : Prop where
  name : '\n' ∉ t.name.toList
  columns : ∀ c ∈ t.columns, c.IsFeedFree

/-- A relation whose texts have no line feed. -/
structure Relation.IsFeedFree (r : Relation) : Prop where
  source : '\n' ∉ r.source.toList
  target : '\n' ∉ r.target.toList
  label : ∀ l ∈ r.label, '\n' ∉ l.toList

/-- A diagram whose texts have no line feed. -/
structure Diagram.IsFeedFree (d : Diagram) : Prop where
  tables : ∀ t ∈ d.tables, t.IsFeedFree
  relations : ∀ r ∈ d.relations, r.IsFeedFree

/-! ## Lines without line feeds -/

theorem mem_of_mem_intercalate {α : Type} {sep : List α} {ls : List (List α)} {a : α}
    (h : a ∈ sep.intercalate ls) : a ∈ sep ∨ ∃ l ∈ ls, a ∈ l := by
  induction ls with
  | nil => simp at h
  | cons l ls ih =>
    cases ls with
    | nil => exact Or.inr ⟨l, List.mem_cons_self .., by simpa using h⟩
    | cons m ls =>
      rw [List.intercalate_cons_cons, List.mem_append, List.mem_append] at h
      rcases h with (h | h) | h
      · exact Or.inr ⟨l, List.mem_cons_self .., h⟩
      · exact Or.inl h
      · exact (ih h).imp_right fun ⟨k, hk, hak⟩ => ⟨k, List.mem_cons_of_mem _ hk, hak⟩

theorem Constraint.feed_not_mem_word (k : Constraint) : '\n' ∉ k.word.toList := by
  cases k <;> decide

theorem Column.feed_not_mem_annotation (c : Column) : '\n' ∉ c.annotation.toList := by
  unfold annotation
  split
  · simp
  · rw [String.toList_append, String.toList_append, String.toList_intercalate]
    simp only [List.mem_append, not_or]
    refine ⟨⟨by decide, fun h => ?_⟩, by decide⟩
    rcases mem_of_mem_intercalate h with h | ⟨l, hl, h⟩
    · exact absurd h (by decide)
    · rw [List.map_map] at hl
      obtain ⟨k, -, rfl⟩ := List.mem_map.mp hl
      exact k.feed_not_mem_word h

theorem Column.IsFeedFree.feed_not_mem_render {c : Column} (h : c.IsFeedFree) :
    '\n' ∉ c.render.toList := by
  simp [render, String.toList_append, h.name, h.datatype, c.feed_not_mem_annotation]

theorem Table.IsFeedFree.feed_not_mem_lines {t : Table} (h : t.IsFeedFree) :
    ∀ l ∈ t.lines, '\n' ∉ l.toList := by
  simp only [lines, List.cons_append, List.forall_mem_cons, List.forall_mem_append,
    List.forall_mem_map, List.not_mem_nil, false_implies, implies_true, and_true]
  refine ⟨?_, by decide, fun c hc => ?_, by decide⟩
  · simp [String.toList_append, h.name]
  · simp [String.toList_append, (h.columns c hc).feed_not_mem_render]

theorem Relation.IsFeedFree.feed_not_mem_render {r : Relation} (h : r.IsFeedFree) :
    '\n' ∉ r.render.toList := by
  have hlabel := h.label
  rw [render]
  cases hr : r.label with
  | none => simp [String.toList_append, h.source, h.target]
  | some l => simp [String.toList_append, h.source, h.target, hlabel l hr]

namespace Diagram

theorem IsFeedFree.feed_not_mem_lines {d : Diagram} (h : d.IsFeedFree) :
    ∀ l ∈ d.lines, '\n' ∉ l.toList := by
  intro l hl
  rcases List.mem_append.mp hl with hl | hl
  · obtain ⟨t, ht, hl⟩ := List.mem_flatMap.mp hl
    rcases List.mem_append.mp hl with hl | hl
    · exact (h.tables t ht).feed_not_mem_lines l hl
    · rw [List.mem_singleton.mp hl]
      decide
  · obtain ⟨r, hr, hl⟩ := List.mem_flatMap.mp hl
    rcases List.mem_pair.mp hl with rfl | rfl
    · exact (h.relations r hr).feed_not_mem_render
    · decide

/-- **The lines of a drawn diagram** are read off between the line feeds. -/
theorem IsFeedFree.splitAtFeeds_render {d : Diagram} (h : d.IsFeedFree) :
    Text.splitAtFeeds d.render.toList = (d.lines ++ [""]).map String.toList :=
  Text.splitAtFeeds_endLines h.feed_not_mem_lines

end Diagram

/-! ## The lines of a model -/

/-- The line that shows a field in the table of the given name: a tab, the name of the field, the
name of its type, and the constraints on the column. -/
def Field.line (table : String) (f : Field) : String :=
  "\t" ++ f.name ++ ": " ++ f.type.name ++ Column.annotation (Column.ofField table f)

/-- The lines that show a model, with the empty line behind them. -/
def Model.lines (m : Model) : List String :=
  (m.name ++ " \x7b") :: "\tshape: sql_table" :: (m.fields.map (Field.line m.name) ++ ["\x7d", ""])

theorem Model.length_lines (m : Model) : m.lines.length = 4 + m.fields.length := by
  simp [lines]
  omega

theorem Model.lines_of_columns {m : Model} {t : Table} (hname : t.name = m.name)
    (hcolumns : t.columns = m.columns) : t.lines ++ [""] = m.lines := by
  have hline : ∀ f, "\t" ++ (Column.ofField m.name f).render = f.line m.name := by
    intro f
    rw [Column.render, Field.line]
    simp only [String.append_assoc]
    rfl
  rw [Table.lines, lines, hname, hcolumns, columns, List.map_map]
  simp [hline]

/-! ## The lines of a schema that was read -/

namespace Schema

theorem lines_diagram {s : Schema} {d : Diagram} (h : s.diagram? = some d) :
    d.lines = s.models.flatMap Model.lines ++
      d.relations.flatMap fun r => [r.source ++ " -> " ++ r.target, ""] := by
  have htables : (d.tables.map fun t => t.lines ++ [""]) = s.models.map Model.lines :=
    map_eq_map_of_forall₂
      ((diagram?_eq_some_iff.mp h).1.imp fun _ _ ht => Model.lines_of_columns ht.1 ht.2)
  rw [Diagram.lines, flatMap_render_relations h, List.flatMap_def, htables, ← List.flatMap_def]

/-- The fields of a schema are fields of its models. -/
theorem exists_model_of_mem_tableFields {s : Schema} {p : String × Field} (hp : p ∈ s.tableFields) :
    ∃ m ∈ s.models, m.name = p.1 ∧ p.2 ∈ m.fields := by
  obtain ⟨m, hm, hp⟩ := List.mem_flatMap.mp hp
  obtain ⟨f, hf, rfl⟩ := List.mem_map.mp hp
  exact ⟨m, hm, rfl, hf⟩

/-- The diagram of a writable schema has no line feed: its texts stand on lines of a schema. -/
theorem IsWritable.isFeedFree {s : Schema} (h : s.IsWritable) {d : Diagram}
    (hd : s.diagram? = some d) : d.IsFeedFree := by
  obtain ⟨htables, hrelations⟩ := diagram?_eq_some_iff.mp hd
  have hname : ∀ m ∈ s.models, '\n' ∉ m.name.toList := fun m hm =>
    Text.feed_not_mem_of_isOneLine (Text.isOneLine_of_isName (h.models m hm).isName)
  have htype : ∀ m ∈ s.models, ∀ f ∈ m.fields, '\n' ∉ f.type.name.toList := fun m hm f hf =>
    Text.feed_not_mem_of_isOneLine ((h.models m hm).fields.forall_mem f hf).type.isOneLine
  constructor
  · intro t ht
    obtain ⟨m, hm, htname, hcolumns⟩ := exists_of_mem_of_forall₂ htables.flip ht
    refine ⟨by rw [htname]; exact hname m hm, fun c hc => ?_⟩
    rw [hcolumns] at hc
    obtain ⟨f, hf, rfl⟩ := List.mem_map.mp hc
    have hfield := (h.models m hm).fields.forall_mem f hf
    exact ⟨Text.feed_not_mem_of_isOneLine (Text.isOneLine_of_isName hfield.isName),
      htype m hm f hf⟩
  · intro r hr
    rw [hrelations, flatMap_relations] at hr
    obtain ⟨p, hp, hr⟩ := List.mem_flatMap.mp hr
    obtain ⟨m, hm, hmname, hf⟩ := exists_model_of_mem_tableFields hp
    rw [List.eq_of_mem_replicate hr]
    exact ⟨by rw [← hmname]; exact hname m hm, htype m hm p.2 hf, by simp⟩

/-- **The lines of what is drawn.** Between its line feeds the drawn text has the lines of the
models, in order of declaration and with the names and types of their fields as the text of the
schema has them, then two lines for each relation, and nothing behind the last line feed. -/
theorem splitAtFeeds_draw {text : String} {s : Schema} (h : parse text = .ok s) :
    ∃ d ws out, diagramOf text = .ok d ∧ draw text = .ok out ∧
      Spelled ws (codeOf text) ∧ s.Declares ws ∧
      Text.splitAtFeeds out.toList = (s.models.flatMap Model.lines ++
        (d.relations.flatMap fun r => [r.source ++ " -> " ++ r.target, ""]) ++
          [""]).map String.toList ∧
      out.toList.count '\n' =
        (s.models.map fun m => 4 + m.fields.length).sum + 2 * d.relations.length := by
  obtain ⟨hwritable, -, -, -, ws, hspelled, hdeclares⟩ := invariant_of_parse h
  obtain ⟨d, hd⟩ := exists_diagram_of_parse h
  have hdiagram : diagramOf text = .ok d := diagramOf_eq_ok_iff.mpr ⟨s, h, hd⟩
  have hsplit := (hwritable.isFeedFree hd).splitAtFeeds_render
  rw [lines_diagram hd] at hsplit
  have hcount := Text.length_splitAtFeeds d.render.toList
  rw [hsplit] at hcount
  simp only [List.length_append, List.length_map, List.length_flatMap, Model.length_lines,
    List.length_cons, List.length_nil, List.map_const', List.sum_replicate_nat] at hcount
  exact ⟨d, ws, d.render, hdiagram, by rw [draw, hdiagram]; rfl, hspelled, hdeclares, hsplit,
    by omega⟩

/-- A type that is written with an escaped quote, a bracket and an escape for a line end, and that
is the end of an edge too. -/
theorem splitAtFeeds_draw_unsupported :
    ∃ s out, parse "model A \x7b\n  a Unsupported(\"x\\n\\\"\x7d\") @relation // b\n\x7d" = .ok s ∧
      draw "model A \x7b\n  a Unsupported(\"x\\n\\\"\x7d\") @relation // b\n\x7d" = .ok out ∧
        Text.splitAtFeeds out.toList =
          ["A \x7b", "\tshape: sql_table", "\ta: x\\n\\\"\x7d", "\x7d", "", "A -> x\\n\\\"\x7d",
            "", ""].map String.toList := by
  have h : parse "model A \x7b\n  a Unsupported(\"x\\n\\\"\x7d\") @relation // b\n\x7d" = .ok
      { models := [{
          name := "A"
          fields := [{
            name := "a", type := { name := "x\\n\\\"\x7d", kind := .unsupported }
            attributes := [{ name := "relation" }] }] }] } := by
    with_unfolding_all rfl
  have hdiagram : diagramOf "model A \x7b\n  a Unsupported(\"x\\n\\\"\x7d\") @relation // b\n\x7d" =
      .ok { tables := [{ name := "A", columns := [{ name := "a", datatype := "x\\n\\\"\x7d" }] }]
            relations := [{ source := "A", target := "x\\n\\\"\x7d" }] } := by
    rw [diagramOf, h]
    rfl
  obtain ⟨d, ws, out, hd, hout, -, -, hsplit, -⟩ := splitAtFeeds_draw h
  obtain rfl := Except.ok.inj (hdiagram.symm.trans hd)
  exact ⟨_, out, h, hout, hsplit⟩

end Schema
end SchemaDiagram
