import SchemaDiagram.Proofs.Lines

/-!
# The keys of a table

Inside the block that draws a table the lines are entries: a tab, a key, a colon and a value. The
first entry has the key `shape` and says that the block is a table; the key of any other is the name
of a field, as it was written. No name has a colon, so the key of an entry is read back as it was
meant (`Field.keyOf?_line`), and as the names of the fields of a model differ, a key stands for one
field at most (`Model.length_entriesOf_entries`).

But nothing keeps a field from being called `shape`. Its line is then an entry with the key of the
first, and the table has two of them; this is the only way to get there
(`Schema.shapeEntries_draw`).
-/

namespace SchemaDiagram

/-- The key of an entry: what stands between the tab in front of it and its first colon. -/
def keyOf? : List Char → Option (List Char)
  | '\t' :: entry => if ':' ∈ entry then some (entry.takeWhile (· != ':')) else none
  | _ => none

theorem keyOf?_entry {key : List Char} (hkey : ':' ∉ key) (value : List Char) :
    keyOf? ('\t' :: (key ++ ':' :: value)) = some key := by
  have hpos : ∀ c ∈ key, (c != ':') = true := by
    rintro c hc
    rw [bne_iff_ne]
    rintro rfl
    exact hkey hc
  simp [keyOf?, List.takeWhile_append_of_pos hpos]

/-- The key of the line that shows a field is the name of the field. -/
theorem Field.keyOf?_line {f : Field} (h : Text.isName f.name.toList = true) (table : String) :
    keyOf? (f.line table).toList = some f.name.toList := by
  have hcolon : ':' ∉ f.name.toList := fun hc =>
    absurd (Text.isWord_of_mem_isName h hc) (by decide)
  rw [← keyOf?_entry hcolon
    (' ' :: (f.type.name.toList ++ (Column.annotation (Column.ofField table f)).toList))]
  simp [line, String.toList_append]

/-- The lines among those given that are an entry with the given key. -/
def entriesOf (key : String) (lines : List String) : List String :=
  lines.filter fun l => keyOf? l.toList == some key.toList

/-- The line that says that a block is a table. -/
def shapeLine : String :=
  "\tshape: sql_table"

theorem keyOf?_shapeLine : keyOf? shapeLine.toList = some "shape".toList := by
  decide

namespace Model

/-- The lines inside the block that shows a model. -/
def entries (m : Model) : List String :=
  shapeLine :: m.fields.map (Field.line m.name)

/-- The lines of a model are those inside its block, with the braces around them and the empty line
behind. -/
theorem lines_eq (m : Model) :
    m.lines = (m.name ++ " \x7b") :: (m.entries ++ ["\x7d", ""]) := by
  simp [lines, entries, shapeLine]

variable {m : Model}

/-- A key stands for the fields that have it as their name, and the key `shape` for the shape of the
table before them. -/
theorem entriesOf_entries (h : m.IsWritable) (key : String) :
    entriesOf key m.entries = (if key = "shape" then [shapeLine] else []) ++
      (m.fields.filter fun f => f.name == key).map (Field.line m.name) := by
  have hfields : entriesOf key (m.fields.map (Field.line m.name)) =
      (m.fields.filter fun f => f.name == key).map (Field.line m.name) := by
    rw [entriesOf, List.filter_map]
    congr 1
    refine List.filter_congr fun f hf => ?_
    rw [Function.comp_apply, Field.keyOf?_line (h.fields.forall_mem f hf).isName,
      Bool.eq_iff_iff, beq_iff_eq, beq_iff_eq, Option.some_inj, String.toList_inj]
  rw [← hfields, entries, entriesOf, List.filter_cons, keyOf?_shapeLine, ← entriesOf]
  by_cases hkey : key = "shape"
  · simp [hkey]
  · have hne : (some "shape".toList == some key.toList) = false := by
      rw [beq_eq_false_iff_ne, ne_eq, Option.some_inj, String.toList_inj]
      exact fun heq => hkey heq.symm
    rw [hne, if_neg hkey]
    rfl

/-- Besides the shape of the table a key stands for one field at most. -/
theorem length_entriesOf_entries (h : m.IsWritable) (key : String) :
    (entriesOf key m.entries).length =
      (if key = "shape" then 1 else 0) + if ∃ f ∈ m.fields, f.name = key then 1 else 0 := by
  have hcount : (m.fields.filter fun f => f.name == key).length =
      if key ∈ m.fields.map Field.name then 1 else 0 := by
    rw [← h.fields.nodup.count, List.count_eq_length_filter, List.filter_map, List.length_map]
    rfl
  rw [entriesOf_entries h, List.length_append, List.length_map, hcount]
  by_cases hkey : key = "shape" <;> simp [hkey]

end Model

namespace Schema

/-- **The shape of a table** is declared by the first line of its block. A second line of the block
has the same key exactly when a field of the model is called `shape`, and it is the line of that
field. -/
theorem shapeEntries_draw {text : String} {s : Schema} (h : parse text = .ok s) :
    ∃ out, draw text = .ok out ∧ ∀ before m behind, s.models = before ++ m :: behind →
      (∃ rest, Text.splitAtFeeds out.toList =
        (before.flatMap Model.lines ++ (m.name ++ " \x7b") :: (m.entries ++ "\x7d" :: rest)).map
          String.toList) ∧
      entriesOf "shape" m.entries =
        shapeLine :: (m.fields.filter fun f => f.name == "shape").map (Field.line m.name) ∧
      (entriesOf "shape" m.entries).length =
        if ∃ f ∈ m.fields, f.name = "shape" then 2 else 1 := by
  have hwritable := isWritable_of_parse h
  obtain ⟨d, hd⟩ := exists_diagram_of_parse h
  have hdiagram : diagramOf text = .ok d := diagramOf_eq_ok_iff.mpr ⟨s, h, hd⟩
  refine ⟨d.render, by rw [draw, hdiagram]; rfl, fun before m behind hmodels => ?_⟩
  have hm : m.IsWritable := hwritable.models m (by simp [hmodels])
  refine ⟨?_, by rw [Model.entriesOf_entries hm]; rfl, ?_⟩
  · rw [(hwritable.isFeedFree hd).splitAtFeeds_render, lines_diagram hd, hmodels,
      List.flatMap_append, List.flatMap_cons, m.lines_eq]
    exact ⟨_, congrArg _ (by simp only [List.append_assoc, List.cons_append]; rfl)⟩
  · rw [Model.length_entriesOf_entries hm, if_pos rfl]
    split <;> rfl

/-- A field that is called `shape` gives its table a second line with the key of the first. -/
theorem shapeEntries_draw_twice :
    ∃ m out, parse "model A \x7b\n  shape String\n\x7d" = .ok { models := [m] } ∧
      draw "model A \x7b\n  shape String\n\x7d" = .ok out ∧
      Text.splitAtFeeds out.toList =
        ["A \x7b", "\tshape: sql_table", "\tshape: String", "\x7d", "", ""].map String.toList ∧
      entriesOf "shape" m.entries = ["\tshape: sql_table", "\tshape: String"] ∧
      (entriesOf "shape" m.entries).length = 2 := by
  have h : parse "model A \x7b\n  shape String\n\x7d" = .ok
      { models := [{ name := "A", fields := [{
          name := "shape", type := { name := "String", kind := .scalar } }] }] } := by
    with_unfolding_all rfl
  obtain ⟨out, hout, hshape⟩ := shapeEntries_draw h
  obtain ⟨-, hentries, hlength⟩ := hshape [] _ [] rfl
  have hdraw : draw "model A \x7b\n  shape String\n\x7d" =
      .ok "A \x7b\n\tshape: sql_table\n\tshape: String\n\x7d\n\n" := by
    rw [draw, diagramOf, h]
    rfl
  obtain rfl := Except.ok.inj (hdraw.symm.trans hout)
  exact ⟨_, _, h, hdraw, by decide, hentries, hlength⟩

end Schema
end SchemaDiagram
