import SchemaDiagram.Proofs.Building
import SchemaDiagram.Proofs.Invariant
import SchemaDiagram.Proofs.Scan.Position

/-!
# How reading and drawing can fail

There is one way to fail, which is an error of the schema, and such an error names a line of the
text. Drawing adds no way of its own: a schema that was read has a diagram, because the names of its
models are names and so are not empty. And none of the lookups that a scan by position makes can
miss, which is the reason why no other kind of failure is needed to describe one.
-/

namespace SchemaDiagram

/-! ## The line of an error -/

theorem Text.length_consToFirst (c : Char) (ls : List (List Char)) :
    ls.length ≤ (consToFirst c ls).length := by
  cases ls with
  | nil => exact Nat.zero_le _
  | cons l ls => exact le_refl _

/-- A mark that is dropped may be a line of its own, but it never joins two lines. -/
theorem Text.length_lines_dropMark (s : List Char) :
    (lines (dropMark s)).length ≤ (lines s).length := by
  cases s with
  | nil => exact le_refl _
  | cons c s =>
    rw [dropMark_cons]
    split
    · next hc =>
      rw [lines_cons (by rw [hc]; decide)]
      exact length_consToFirst c (lines s)
    · exact le_refl _

namespace Schema

/-- **An error of a schema** is met on a line of the text. -/
theorem exists_line_of_parse {text : String} {e : SchemaError} (h : parse text = .error e) :
    ∃ n cause, e = .atLine n cause ∧ 1 ≤ n ∧ n ≤ (Text.lines text.toList).length := by
  have hone := Text.isOneLine_of_mem_lines (Text.dropMark text.toList)
  have hlength := Text.length_lines_dropMark text.toList
  have hlocated : ∃ n cause, e = .atLine n cause ∧ 1 ≤ n ∧
      n ≤ (Text.lines (Text.dropMark text.toList)).length := by
    rw [parse, parseChars] at h
    cases hbs : Block.ofLines (Text.lines (Text.dropMark text.toList)) with
    | error e' =>
      rw [hbs] at h
      rw [← Except.error.inj h]
      exact Block.exists_line_of_ofLines hone hbs
    | ok bs =>
      rw [hbs] at h
      have hstands := Block.forall_of_ofLines (Block.holdsWhenOpened_standsIn _)
        (Block.keptByEntries_standsIn _) hone hbs
      obtain ⟨n, cause, rfl, b, hb, hn⟩ := exists_line_of_ofBlocks h
      rcases hn with rfl | ⟨f, hf, rfl⟩
      · exact ⟨b.line, cause, rfl, (hstands b hb).line⟩
      · exact ⟨f.line, cause, rfl, (hstands b hb).fields f hf⟩
  obtain ⟨n, cause, rfl, hle, hlt⟩ := hlocated
  exact ⟨n, cause, rfl, hle, hlt.trans hlength⟩

/-! ## The diagram of a schema that was read -/

/-- A model that was read has a name. -/
theorem name_ne_of_parse {text : String} {s : Schema} (h : parse text = .ok s) :
    ∀ m ∈ s.models, m.name ≠ "" :=
  fun m hm hempty => Text.ne_nil_of_isName ((isWritable_of_parse h).models m hm).isName
    (String.toList_eq_nil_iff.mpr hempty)

theorem exists_table_of_parse {text : String} {s : Schema} (h : parse text = .ok s) :
    ∀ m ∈ s.models, ∃ t, m.table? = some t :=
  fun m hm => Option.ne_none_iff_exists'.mp
    (Model.table?_eq_none_iff.not.mpr (name_ne_of_parse h m hm))

/-- **Every schema that was read has a diagram.** -/
theorem exists_diagram_of_parse {text : String} {s : Schema} (h : parse text = .ok s) :
    ∃ d, s.diagram? = some d :=
  exists_diagram_iff.mpr (name_ne_of_parse h)

end Schema

/-! ## Drawing -/

theorem diagramOf_eq_ok_iff {text : String} {d : Diagram} :
    diagramOf text = .ok d ↔ ∃ s, Schema.parse text = .ok s ∧ s.diagram? = some d := by
  rw [diagramOf]
  cases Schema.parse text with
  | error e => simp
  | ok s => cases hd : s.diagram? <;> simp [hd]

theorem draw_eq_error_iff {text : String} {e : DrawingError} :
    draw text = .error e ↔ ∃ e', Schema.parse text = .error e' ∧ e = .schema e' := by
  rw [draw, map_eq_error_iff, diagramOf]
  cases hparse : Schema.parse text with
  | error e' => simp [eq_comm]
  | ok s =>
    obtain ⟨d, hd⟩ := Schema.exists_diagram_of_parse hparse
    simp [hd]

/-- **The only way to fail.** An error of the schema names a line of the text, drawing fails exactly
when reading does and with the same error, every model that is read has a table, no lookup of a scan
by position misses, and every block that is no block of settings declares a kind. -/
theorem failure_of_draw (text : String) :
    (∀ e, Schema.parse text = .error e →
      ∃ n : Nat, e.line = some (n : Int) ∧ 1 ≤ n ∧ n ≤ (Text.lines text.toList).length) ∧
    (∀ e, draw text = .error e ↔ ∃ e', Schema.parse text = .error e' ∧ e = .schema e') ∧
    (∀ s, Schema.parse text = .ok s → ∀ m ∈ s.models, ∃ t, m.table? = some t) ∧
    (∀ run : List Char, runFrom run 0 = (Attribute.parseRun run).mapError ScanFault.schema) ∧
    ∀ k : Keyword, k.isSettings = false → ∃ kind, k.declares = some kind := by
  refine ⟨fun e h => ?_, fun e => draw_eq_error_iff, fun s h => Schema.exists_table_of_parse h,
    fun run => runFrom_eq run 0, fun k hk => ?_⟩
  · obtain ⟨n, cause, rfl, hle, hlt⟩ := Schema.exists_line_of_parse h
    exact ⟨n, rfl, hle, hlt⟩
  · rw [← Option.isSome_iff_exists, k.isSome_declares, hk]
    rfl

end SchemaDiagram
