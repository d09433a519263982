import SchemaDiagram.Proofs.Failure
import SchemaDiagram.Proofs.Json.RoundTrip
import SchemaDiagram.Tool.Call

/-!
# The answer to a call

The rendering tool answers every call with a JSON text, and what the text says can be read off it
(`Call.parse_answer`). If the arguments are a schema and perhaps the wish to see the diagram itself,
the answer reports on what is drawn, or it gives the error of the schema. All other arguments are
answered with an error as well, so there is no call without an answer.

That the text says what it was made from is a matter of JSON alone: reports and errors hold no
decimals, and such values are read back.
-/

namespace SchemaDiagram

open Json (IsDecimalFree)

/-! ## What is written holds no decimals -/

theorem Json.isDecimalFree_ofNat (n : Nat) : IsDecimalFree (.ofNat n) :=
  .integer n

theorem Json.isDecimalFree_ofOption (s : Option String) : IsDecimalFree (.ofOption s) := by
  cases s with
  | none => exact .null
  | some s => exact .string s

theorem Json.isDecimalFree_map {α : Type} {f : α → Json} (h : ∀ a, IsDecimalFree (f a))
    (as : List α) : IsDecimalFree (.array (as.map f)) :=
  .array (List.forall_mem_map.mpr fun a _ => h a)

theorem Column.isDecimalFree_toJson (c : Column) : IsDecimalFree c.toJson := by
  refine .object ?_
  simp only [List.forall_mem_cons]
  exact ⟨.string _, .string _, Json.isDecimalFree_map (fun _ => .string _) _, by simp⟩

theorem Table.isDecimalFree_toJson (t : Table) : IsDecimalFree t.toJson := by
  refine .object ?_
  simp only [List.forall_mem_cons]
  exact ⟨.string _, Json.isDecimalFree_map Column.isDecimalFree_toJson _, by simp⟩

theorem Relation.isDecimalFree_toJson (r : Relation) : IsDecimalFree r.toJson := by
  refine .object ?_
  simp only [List.forall_mem_cons]
  exact ⟨.string _, .string _, Json.isDecimalFree_ofOption _, by simp⟩

theorem Diagram.isDecimalFree_toJson (d : Diagram) : IsDecimalFree d.toJson := by
  refine .object ?_
  simp only [List.forall_mem_cons]
  exact ⟨Json.isDecimalFree_map Table.isDecimalFree_toJson _,
    Json.isDecimalFree_map Relation.isDecimalFree_toJson _, by simp⟩

theorem Report.isDecimalFree_toJson (r : Report) : IsDecimalFree r.toJson := by
  refine .object ?_
  simp only [List.forall_mem_append, List.forall_mem_cons]
  refine ⟨⟨.string _, Json.isDecimalFree_ofNat _, Json.isDecimalFree_ofNat _, by simp⟩,
    fun m hm => ?_⟩
  obtain ⟨d, -, rfl⟩ := Option.map_eq_some_iff.mp (Option.mem_toList.mp hm)
  exact d.isDecimalFree_toJson

namespace Call

theorem isDecimalFree_errorPayload (tool message : String) :
    IsDecimalFree (errorPayload tool message) := by
  refine .object ?_
  simp only [List.forall_mem_cons]
  exact ⟨.bool _, .string _, .string _, by simp⟩

/-! ## The arguments of a call -/

/-- The arguments are a schema and, possibly, a value that stands for the wish to see the
diagram. -/
structure IsRendering (arguments : List (String × Json)) (schema : String) : Prop where
  known : ∀ a ∈ arguments, a.1 = "schema" ∨ a.1 = "include_model"
  schema : arguments.lookup "schema" = some (.string schema)

/-- Whether the diagram itself is asked for. -/
def asksForModel (arguments : List (String × Json)) : Bool :=
  ((arguments.lookup "include_model").map Json.isTruthy).getD false

theorem find?_unknown_eq_none_iff {arguments : List (String × Json)} :
    (arguments.find? fun a => a.1 != "schema" && a.1 != "include_model") = none ↔
      ∀ a ∈ arguments, a.1 = "schema" ∨ a.1 = "include_model" := by
  simp only [List.find?_eq_none, Bool.and_eq_true, bne_iff_ne, not_and_or, not_not]

theorem renderingArguments_eq_ok_iff {arguments : List (String × Json)} {schema : String}
    {asked : Bool} :
    renderingArguments arguments = .ok (schema, asked) ↔
      IsRendering arguments schema ∧ asked = asksForModel arguments := by
  unfold renderingArguments
  constructor
  · intro h
    split at h
    · simp at h
    · next hknown =>
      split at h
      · next text hschema =>
        obtain ⟨rfl, rfl⟩ := Prod.mk.inj (Except.ok.inj h)
        exact ⟨⟨find?_unknown_eq_none_iff.mp hknown, hschema⟩, rfl⟩
      · simp at h
      · simp at h
  · rintro ⟨⟨hknown, hschema⟩, rfl⟩
    simp only [find?_unknown_eq_none_iff.mpr hknown, hschema]
    rfl

/-! ## The text of an answer -/

/-- The outcome of the tool, as JSON and as text. -/
def outcomeJson (outcome : Except CallError Report) : Json :=
  match outcome with
  | .ok report => report.toJson
  | .error e => errorPayload "render_diagram" e.message

/-- An answer is the text of what came of the call: indented for a report, on one line for an
error. -/
theorem answer_text (arguments : List (String × Json)) :
    ∃ l, (answer { tool := "render_diagram", arguments }).2 =
      String.ofList ((outcomeJson (runRendering arguments).outcome).print l) := by
  have hname : Tool.renderDiagram.name = "render_diagram" := rfl
  rw [answer, if_pos hname.symm]
  simp only [Log.Traced.outcome_onError]
  cases (runRendering arguments).outcome with
  | error e => exact ⟨.oneLine, rfl⟩
  | ok report => exact ⟨.indented 0, rfl⟩

theorem isDecimalFree_outcomeJson (outcome : Except CallError Report) :
    IsDecimalFree (outcomeJson outcome) := by
  cases outcome with
  | error e => exact isDecimalFree_errorPayload _ _
  | ok report => exact report.isDecimalFree_toJson

/-- Every answer is the text of what came of the call, in the characters of JSON. -/
theorem parse_answer_text (arguments : List (String × Json)) :
    let text := (answer { tool := "render_diagram", arguments }).2
    (∀ c ∈ text.toList, Json.IsPlain c) ∧
      Json.parse? text = some (outcomeJson (runRendering arguments).outcome) := by
  obtain ⟨l, htext⟩ := answer_text arguments
  have hfree := isDecimalFree_outcomeJson (runRendering arguments).outcome
  simp only [htext, Json.parse?, String.toList_ofList]
  exact ⟨hfree.isPlain_print l, hfree.parseChars?_print l⟩

/-! ## What came of a call -/

theorem outcome_runRendering {arguments : List (String × Json)} {schema : String}
    (h : IsRendering arguments schema) :
    (runRendering arguments).outcome =
      ((diagramOf schema).map (Report.ofDiagram · (asksForModel arguments))).mapError
        .drawing := by
  rw [runRendering, renderingArguments_eq_ok_iff.mpr ⟨h, rfl⟩]
  simp only [Report.outcome_render]

theorem exists_outcome_error {arguments : List (String × Json)}
    (h : ∀ schema, ¬ IsRendering arguments schema) :
    ∃ e, (runRendering arguments).outcome = .error e := by
  cases hargs : renderingArguments arguments with
  | error e => exact ⟨e, by rw [runRendering, hargs]⟩
  | ok r => exact absurd (renderingArguments_eq_ok_iff.mp hargs).1 (h r.1)

/-- The report on a diagram, as JSON. -/
theorem toJson_ofDiagram (d : Diagram) (asked : Bool) :
    (Report.ofDiagram d asked).toJson =
      .object ([("diagram", .string d.render), ("tables", .ofNat d.tables.length),
        ("relations", .ofNat d.relations.length)] ++
          if asked then [("model", d.toJson)] else []) := by
  cases asked <;> rfl

/-- **The answer to a call.** It is a JSON text of visible ASCII and line feeds, whatever the
arguments are. If they are a schema that can be drawn, the text has the drawn diagram and the
numbers of its tables and relations, and the diagram itself just if a value was given that counts
as true. If the schema has an error, the text has that error, and if the arguments are no schema, it
has an error too. -/
theorem parse_answer (arguments : List (String × Json)) :
    let text := (answer { tool := "render_diagram", arguments }).2
    (∀ c ∈ text.toList, c = '\n' ∨ 0x20 ≤ c.toNat ∧ c.toNat ≤ 0x7E) ∧
    (∀ schema, IsRendering arguments schema →
      (∀ out, draw schema = .ok out → ∃ d, diagramOf schema = .ok d ∧
        Json.parse? text = some (.object
          ([("diagram", .string out), ("tables", .ofNat d.tables.length),
            ("relations", .ofNat d.relations.length)] ++
              if asksForModel arguments then [("model", d.toJson)] else []))) ∧
      ∀ e, draw schema = .error e → ∃ e' : SchemaError, Schema.parse schema = .error e' ∧
        Json.parse? text = some (.object [("error", .bool true), ("message", .string e'.message),
          ("tool", .string "render_diagram")])) ∧
    ((∀ schema, ¬ IsRendering arguments schema) → ∃ message,
      Json.parse? text = some (.object [("error", .bool true), ("message", .string message),
        ("tool", .string "render_diagram")])) := by
  obtain ⟨hplain, hparse⟩ := parse_answer_text arguments
  refine ⟨hplain, fun schema h => ⟨fun out hout => ?_, fun e he => ?_⟩, fun h => ?_⟩
  · obtain ⟨d, hd, rfl⟩ := map_eq_ok_iff.mp hout
    rw [outcome_runRendering h, hd] at hparse
    exact ⟨d, hd, hparse.trans (congrArg some (toJson_ofDiagram d _))⟩
  · obtain ⟨e', he', rfl⟩ := draw_eq_error_iff.mp he
    have hdiagram : diagramOf schema = .error (.schema e') := by
      rw [diagramOf, he']
    rw [outcome_runRendering h, hdiagram] at hparse
    exact ⟨e', he', hparse⟩
  · obtain ⟨e, he⟩ := exists_outcome_error h
    rw [he] at hparse
    exact ⟨e.message, hparse⟩

/-- A type beyond U+FFFF and a value that counts as true although it says no. -/
theorem parse_answer_asked :
    Json.parse? (answer { tool := "render_diagram", arguments :=
        [("include_model", .string "no"),
         ("schema", .string "model A \x7b\n  a Unsupported(\"😀\")\n\x7d")] }).2 =
      some (.object [("diagram", .string "A \x7b\n\tshape: sql_table\n\ta: 😀\n\x7d\n\n"),
        ("tables", .integer 1), ("relations", .integer 0),
        ("model", .object [
          ("tables", .array [.object [("name", .string "A"),
            ("columns", .array [.object [("name", .string "a"), ("datatype", .string "😀"),
              ("constraints", .array [])]])]]),
          ("relations", .array [])])]) := by
  have hparse : Schema.parse "model A \x7b\n  a Unsupported(\"😀\")\n\x7d" = .ok
      { models := [{ name := "A", fields := [{
          name := "a", type := { name := "😀", kind := .unsupported } }] }] } := by
    with_unfolding_all rfl
  have hdiagram : diagramOf "model A \x7b\n  a Unsupported(\"😀\")\n\x7d" = .ok
      { tables := [{ name := "A", columns := [{ name := "a", datatype := "😀" }] }] } := by
    rw [diagramOf, hparse]
    rfl
  have hdraw : draw "model A \x7b\n  a Unsupported(\"😀\")\n\x7d" =
      .ok "A \x7b\n\tshape: sql_table\n\ta: 😀\n\x7d\n\n" := by
    rw [draw, hdiagram]
    rfl
  obtain ⟨-, hrendering, -⟩ := parse_answer [("include_model", .string "no"),
    ("schema", .string "model A \x7b\n  a Unsupported(\"😀\")\n\x7d")]
  obtain ⟨d, hd, hanswer⟩ := (hrendering _ ⟨by simp, rfl⟩).1 _ hdraw
  obtain rfl := Except.ok.inj (hdiagram.symm.trans hd)
  exact hanswer

end Call
end SchemaDiagram
