import SchemaDiagram.Proofs.Failure
import SchemaDiagram.Proofs.Json.Reading
import SchemaDiagram.Schema.Json
import SchemaDiagram.Tool.Report

/-!
# Validation

What the library writes as JSON has one of twelve shapes, those of the parts of a schema and of the
parts of a diagram. For each of them the check that reads it is a check against that shape
(`Record.reads`), so all that is known of sites holds of all of them: what a value is refused for,
where and in which order, and what becomes of one that is accepted (`Record.validation`).

The only shape that changes more than what is missing is that of a column: constraints that are
repeated are listed once. What is written never repeats one, so this does not stand in the way of
reading back what was written.
-/

namespace SchemaDiagram

open Json (Shape Reads)
open Json.Shape (IsProper)
open Json.Checked (seq_valid)

/-! ## The parts of a schema -/

/-- The shape of an argument. -/
def Argument.shape : Shape :=
  .record [⟨"name", some .null, .leaf .nullable⟩, ⟨"value", none, .leaf .string⟩]

theorem Argument.reads : Reads ofJson toJson shape := by
  refine .record (.record (by decide) (by simp [IsProper.leaf])) (fun given => ?_) fun a => ?_
  · simp only [Shape.checkMembers, Reads.string.required, Reads.optional_null, seq_valid,
      functor_norm, Function.comp_def]
  · rw [Reads.nullable.optional_write rfl, Reads.string.required_write rfl]
    rfl

/-- The shape of an attribute. -/
def Attribute.shape : Shape :=
  .record [⟨"name", none, .leaf .string⟩,
    ⟨"arguments", some (.array []), .list false Argument.shape⟩]

theorem Attribute.reads : Reads ofJson toJson shape := by
  refine .record (.record (by decide) (by simp [IsProper.leaf, Argument.reads.list.proper]))
    (fun given => ?_) fun a => ?_
  · simp only [Shape.checkMembers, Reads.string.required, Argument.reads.optional_list, seq_valid,
      functor_norm, Function.comp_def]
  · rw [Reads.string.required_write rfl, Argument.reads.list.optional_write rfl]
    rfl

theorem FieldKind.reads : Reads (Json.Check.listed ofWord?) (fun k => .string k.word)
    (.leaf (.word (all.map word))) :=
  .listed ofWord?_word

/-- The shape of the type of a field. -/
def FieldType.shape : Shape :=
  .record [⟨"name", none, .leaf .string⟩,
    ⟨"kind", none, .leaf (.word (FieldKind.all.map FieldKind.word))⟩,
    ⟨"optional", some (.bool false), .leaf .bool⟩, ⟨"is_list", some (.bool false), .leaf .bool⟩]

theorem FieldType.reads : Reads ofJson toJson shape := by
  refine .record (.record (by decide) (by simp [IsProper.leaf])) (fun given => ?_) fun t => ?_
  · simp only [Shape.checkMembers, Reads.string.required, FieldKind.reads.required,
      Reads.optional_false, seq_valid, functor_norm, Function.comp_def]
  · rw [Reads.string.required_write rfl, FieldKind.reads.required_write rfl,
      Reads.bool.optional_write rfl, Reads.bool.optional_write rfl]
    rfl

/-- The shape of a field. -/
def Field.shape : Shape :=
  .record [⟨"name", none, .leaf .string⟩, ⟨"field_type", none, FieldType.shape⟩,
    ⟨"attributes", some (.array []), .list false Attribute.shape⟩,
    ⟨"documentation", some .null, .leaf .nullable⟩]

theorem Field.reads : Reads ofJson toJson shape := by
  refine .record (.record (by decide)
    (by simp [IsProper.leaf, FieldType.reads.proper, Attribute.reads.list.proper]))
    (fun given => ?_) fun f => ?_
  · simp only [Shape.checkMembers, Reads.string.required, FieldType.reads.required,
      Attribute.reads.optional_list, Reads.optional_null, seq_valid, functor_norm,
      Function.comp_def]
  · rw [Reads.string.required_write rfl, FieldType.reads.required_write rfl,
      Attribute.reads.list.optional_write rfl, Reads.nullable.optional_write rfl]
    rfl

/-- The shape of a model. -/
def Model.shape : Shape :=
  .record [⟨"name", none, .leaf .string⟩, ⟨"fields", some (.array []), .list false Field.shape⟩,
    ⟨"block_attributes", some (.array []), .list false Attribute.shape⟩,
    ⟨"documentation", some .null, .leaf .nullable⟩]

theorem Model.reads : Reads ofJson toJson shape := by
  refine .record (.record (by decide)
    (by simp [IsProper.leaf, Field.reads.list.proper, Attribute.reads.list.proper]))
    (fun given => ?_) fun m => ?_
  · simp only [Shape.checkMembers, Reads.string.required, Field.reads.optional_list,
      Attribute.reads.optional_list, Reads.optional_null, seq_valid, functor_norm,
      Function.comp_def]
  · rw [Reads.string.required_write rfl, Field.reads.list.optional_write rfl,
      Attribute.reads.list.optional_write rfl, Reads.nullable.optional_write rfl]
    rfl

/-- The shape of an enum. -/
def Enum.shape : Shape :=
  .record [⟨"name", none, .leaf .string⟩,
    ⟨"values", some (.array []), .list false (.leaf .string)⟩]

theorem Enum.reads : Reads ofJson toJson shape := by
  refine .record (.record (by decide) (by simp [IsProper.leaf, Reads.string.list.proper]))
    (fun given => ?_) fun e => ?_
  · simp only [Shape.checkMembers, Reads.string.required, Reads.string.optional_list, seq_valid,
      functor_norm, Function.comp_def]
  · rw [Reads.string.required_write rfl, Reads.string.list.optional_write rfl]
    rfl

/-- The shape of a composite type. -/
def CompositeType.shape : Shape :=
  .record [⟨"name", none, .leaf .string⟩, ⟨"fields", some (.array []), .list false Field.shape⟩]

theorem CompositeType.reads : Reads ofJson toJson shape := by
  refine .record (.record (by decide) (by simp [IsProper.leaf, Field.reads.list.proper]))
    (fun given => ?_) fun t => ?_
  · simp only [Shape.checkMembers, Reads.string.required, Field.reads.optional_list, seq_valid,
      functor_norm, Function.comp_def]
  · rw [Reads.string.required_write rfl, Field.reads.list.optional_write rfl]
    rfl

/-- The shape of a schema. -/
def Schema.shape : Shape :=
  .record [⟨"models", some (.array []), .list false Model.shape⟩,
    ⟨"enums", some (.array []), .list false Enum.shape⟩,
    ⟨"composite_types", some (.array []), .list false CompositeType.shape⟩]

theorem Schema.reads : Reads ofJson toJson shape := by
  refine .record (.record (by decide)
    (by simp [Model.reads.list.proper, Enum.reads.list.proper, CompositeType.reads.list.proper]))
    (fun given => ?_) fun s => ?_
  · simp only [Shape.checkMembers, Model.reads.optional_list, Enum.reads.optional_list,
      CompositeType.reads.optional_list, seq_valid, functor_norm, Function.comp_def]
  · rw [Model.reads.list.optional_write rfl, Enum.reads.list.optional_write rfl,
      CompositeType.reads.list.optional_write rfl]
    rfl

/-! ## The parts of a diagram -/

theorem Constraint.reads : Reads (Json.Check.listed ofWord?) (fun k => .string k.word)
    (.leaf (.word (all.map word))) :=
  .listed ofWord?_word

/-- The shape of a column. -/
def Column.shape : Shape :=
  .record [⟨"name", none, .leaf .string⟩, ⟨"datatype", none, .leaf .string⟩,
    ⟨"constraints", some (.array []),
      .list true (.leaf (.word (Constraint.all.map Constraint.word)))⟩]

theorem Column.reads : Reads ofJson toJson shape := by
  refine .record (.record (by decide)
    (by simp [IsProper.leaf, IsProper.list Constraint.reads.proper])) (fun given => ?_) fun c => ?_
  · have hconstraints : Json.Check.member "constraints" (some (.array []))
        (Shape.list true (.leaf (.word (Constraint.all.map Constraint.word)))).check given = _ :=
      Reads.member_optional
        (Reads.map_distinct (fun _ _ => Constraint.eq_of_word_eq) Constraint.reads) given
        "constraints" []
    simp only [Shape.checkMembers, Reads.string.required, hconstraints, seq_valid, functor_norm,
      Function.comp_def]
    rfl
  · rw [Reads.string.required_write rfl, Reads.string.required_write rfl,
      Constraint.reads.list.optional_write rfl]
    have hcolumn : ofConstraints c.name c.datatype c.constraints = c := by
      simp only [ofConstraints, firstOccurrences_eq_self c.nodup]
    exact congrArg Json.Checked.valid hcolumn

/-- The shape of a table. -/
def Table.shape : Shape :=
  .record [⟨"name", none, .leaf .nonempty⟩, ⟨"columns", some (.array []), .list false Column.shape⟩]

theorem Table.reads : Reads ofJson toJson shape := by
  refine .record (.record (by decide) (by simp [IsProper.leaf, Column.reads.list.proper]))
    (fun given => ?_) fun t => ?_
  · simp only [Shape.checkMembers, Reads.nonempty.required, Column.reads.optional_list, seq_valid,
      functor_norm, Function.comp_def]
  · rw [Reads.nonempty.required_write (a := ⟨t.name, t.name_ne⟩) rfl,
      Column.reads.list.optional_write rfl]
    rfl

/-- The shape of a relation. -/
def Relation.shape : Shape :=
  .record [⟨"source", none, .leaf .string⟩, ⟨"target", none, .leaf .string⟩,
    ⟨"label", some .null, .leaf .nullable⟩]

theorem Relation.reads : Reads ofJson toJson shape := by
  refine .record (.record (by decide) (by simp [IsProper.leaf])) (fun given => ?_) fun r => ?_
  · simp only [Shape.checkMembers, Reads.string.required, Reads.optional_null, seq_valid,
      functor_norm, Function.comp_def]
  · rw [Reads.string.required_write rfl, Reads.string.required_write rfl,
      Reads.nullable.optional_write rfl]
    rfl

/-- The shape of a diagram. -/
def Diagram.shape : Shape :=
  .record [⟨"tables", some (.array []), .list false Table.shape⟩,
    ⟨"relations", some (.array []), .list false Relation.shape⟩]

theorem Diagram.reads : Reads ofJson toJson shape := by
  refine .record (.record (by decide)
    (by simp [Table.reads.list.proper, Relation.reads.list.proper])) (fun given => ?_) fun d => ?_
  · simp only [Shape.checkMembers, Table.reads.optional_list, Relation.reads.optional_list,
      seq_valid, functor_norm, Function.comp_def]
  · rw [Table.reads.list.optional_write rfl, Relation.reads.list.optional_write rfl]
    rfl

/-! ## Records -/

/-- The records that are written as JSON and read from it. -/
inductive Record where
  | argument
  | attribute
  | fieldType
  | field
  | model
  | enum
  | compositeType
  | schema
  | column
  | table
  | relation
  | diagram
  deriving DecidableEq, Repr

namespace Record

/-- What a record is read as. -/
def Value : Record → Type
  | .argument => Argument
  | .attribute => Attribute
  | .fieldType => FieldType
  | .field => Field
  | .model => Model
  | .enum => Enum
  | .compositeType => CompositeType
  | .schema => Schema
  | .column => Column
  | .table => Table
  | .relation => Relation
  | .diagram => Diagram

/-- What asks for the record. -/
def shape : Record → Shape
  | .argument => Argument.shape
  | .attribute => Attribute.shape
  | .fieldType => FieldType.shape
  | .field => Field.shape
  | .model => Model.shape
  | .enum => Enum.shape
  | .compositeType => CompositeType.shape
  | .schema => Schema.shape
  | .column => Column.shape
  | .table => Table.shape
  | .relation => Relation.shape
  | .diagram => Diagram.shape

/-- The record as JSON. -/
def toJson : (r : Record) → r.Value → Json
  | .argument => Argument.toJson
  | .attribute => Attribute.toJson
  | .fieldType => FieldType.toJson
  | .field => Field.toJson
  | .model => Model.toJson
  | .enum => Enum.toJson
  | .compositeType => CompositeType.toJson
  | .schema => Schema.toJson
  | .column => Column.toJson
  | .table => Table.toJson
  | .relation => Relation.toJson
  | .diagram => Diagram.toJson

/-- Checks that a value is the record. -/
def ofJson : (r : Record) → Json → Json.Checked r.Value
  | .argument => Argument.ofJson
  | .attribute => Attribute.ofJson
  | .fieldType => FieldType.ofJson
  | .field => Field.ofJson
  | .model => Model.ofJson
  | .enum => Enum.ofJson
  | .compositeType => CompositeType.ofJson
  | .schema => Schema.ofJson
  | .column => Column.ofJson
  | .table => Table.ofJson
  | .relation => Relation.ofJson
  | .diagram => Diagram.ofJson

theorem reads : ∀ r : Record, Reads r.ofJson r.toJson r.shape
  | .argument => Argument.reads
  | .attribute => Attribute.reads
  | .fieldType => FieldType.reads
  | .field => Field.reads
  | .model => Model.reads
  | .enum => Enum.reads
  | .compositeType => CompositeType.reads
  | .schema => Schema.reads
  | .column => Column.reads
  | .table => Table.reads
  | .relation => Relation.reads
  | .diagram => Diagram.reads

/-- The place of a value that is to be the record. -/
def site (r : Record) (v : Json) : Json.Site :=
  ⟨r.shape, some v⟩

theorem issues_ofJson (r : Record) (v : Json) : (r.ofJson v).issues = (r.site v).issues :=
  r.reads.issues_eq v

/-- **Reading undoes writing, and a defect is found where it is.** What is written is read back; so
the diagram that a report comes with is read as the diagram that was drawn and counted. Any value is
accepted just if there are no issues. An issue stands at every site that a path leads to and where
something else stands than what is asked, with what is wrong there. There are no others, they come
in the order of the sites, and no path is listed twice. What is listed at a site and below depends
on nothing but what is asked there and what stands there, whatever record the site belongs to. And
what is accepted is put into its normal form, which is read as the same again. -/
theorem validation :
    (∀ (r : Record) (a : r.Value), r.ofJson (r.toJson a) = .valid a) ∧
    (∀ text s, Schema.parse text = .ok s →
      ∃ report, (Report.render text true).outcome = .ok report) ∧
    (∀ text report, (Report.render text true).outcome = .ok report → ∃ d model,
      diagramOf text = .ok d ∧ Diagram.ofJson model = .valid d ∧
      report.toJson = .object [("diagram", .string d.render), ("tables", .ofNat d.tables.length),
        ("relations", .ofNat d.relations.length), ("model", model)]) ∧
    ∀ (r : Record) (v : Json),
      ((∃ a, r.ofJson v = .valid a) ↔ (r.ofJson v).issues = []) ∧
      (∀ path fault, ⟨path, fault⟩ ∈ (r.ofJson v).issues ↔
        ∃ s, (r.site v).Reaches path s ∧ ¬ s.Fits ∧ fault = s.fault) ∧
      (∀ path s s', (r.site v).Reaches path s → (r.site v).Reaches path s' → s = s') ∧
      ((r.ofJson v).issues.map Json.Issue.path).Pairwise (r.site v).Before ∧
      ((r.ofJson v).issues.map Json.Issue.path).Nodup ∧
      (∀ path s, (r.site v).Reaches path s → ∀ (r' : Record) (v' : Json) path',
        (r'.site v').Reaches path' s →
          Json.issuesBelow path (r.ofJson v).issues =
            Json.issuesBelow path' (r'.ofJson v').issues) ∧
      ∀ a, r.ofJson v = .valid a → r.toJson a = r.shape.normal v ∧
        r.ofJson (r.shape.normal v) = .valid a ∧
          r.shape.normal (r.shape.normal v) = r.shape.normal v := by
  refine ⟨fun r => r.reads.check_write, ?_, ?_, fun r v => ⟨?_, ?_, ?_, ?_, ?_, ?_, ?_⟩⟩
  · intro text s h
    obtain ⟨d, hd⟩ := Schema.exists_diagram_of_parse h
    rw [Report.outcome_render, diagramOf_eq_ok_iff.mpr ⟨s, h, hd⟩]
    exact ⟨_, rfl⟩
  · intro text report h
    rw [Report.outcome_render] at h
    obtain ⟨d, hd, rfl⟩ := map_eq_ok_iff.mp h
    exact ⟨d, d.toJson, hd, Diagram.reads.check_write d, rfl⟩
  · exact Json.Checked.issues_eq_nil_iff.symm
  · intro path fault
    rw [issues_ofJson]
    exact Json.Site.mem_issues_iff
  · intro path s s' hs hs'
    exact hs.unique r.reads.proper hs'
  · rw [issues_ofJson]
    exact Json.Site.pairwise_before_issues _
  · rw [issues_ofJson]
    exact Json.Site.nodup_paths r.reads.proper
  · intro path s hs r' v' path' hs'
    rw [issues_ofJson, issues_ofJson, Json.Site.issuesBelow_issues r.reads.proper hs,
      Json.Site.issuesBelow_issues r'.reads.proper hs']
  · intro a ha
    have hnormal := r.reads.write_eq_normal ha
    have hread := r.reads.check_write a
    rw [hnormal] at hread
    exact ⟨hnormal, hread, (r.reads.write_eq_normal hread).symm.trans hnormal⟩

/-- A diagram with five defects, three of which are those of its one column; a column with a
constraint that is repeated and a member that nobody asks for; and the report on a schema. -/
theorem validation_column :
    (Diagram.ofJson (.object [("relations", .null), ("tables", .array [.object [
        ("name", .string ""), ("columns", .array [.object [
          ("datatype", .null), ("constraints", .array [.string "unique", .string "index"])]])]])])
      ).issues =
        [⟨[.member "tables", .item 0, .member "name"], .tooShort⟩,
          ⟨[.member "tables", .item 0, .member "columns", .item 0, .member "name"], .missing⟩,
          ⟨[.member "tables", .item 0, .member "columns", .item 0, .member "datatype"],
            .notAString⟩,
          ⟨[.member "tables", .item 0, .member "columns", .item 0, .member "constraints", .item 1],
            .notListed⟩,
          ⟨[.member "relations"], .notAList⟩] ∧
    (Column.ofJson (.object [
        ("datatype", .null), ("constraints", .array [.string "unique", .string "index"])])).issues =
      Json.issuesBelow [.member "tables", .item 0, .member "columns", .item 0]
        (Diagram.ofJson (.object [("relations", .null), ("tables", .array [.object [
          ("name", .string ""), ("columns", .array [.object [
            ("datatype", .null), ("constraints", .array [.string "unique", .string "index"])]])]])])
          ).issues ∧
    Column.ofJson (Column.shape.normal (.object [("name", .string "a"), ("note", .null),
        ("constraints", .array [.string "unique", .string "primary_key", .string "unique"]),
        ("datatype", .string "Int")])) =
      .valid { name := "a", datatype := "Int", constraints := [.unique, .primaryKey] } ∧
    ∃ report d model, (Report.render "model A \x7b\n  a Int @id\n\x7d" true).outcome = .ok report ∧
      Diagram.ofJson model = .valid d ∧
      report.toJson = .object [("diagram", .string d.render), ("tables", .ofNat d.tables.length),
        ("relations", .ofNat d.relations.length), ("model", model)] := by
  obtain ⟨-, hexists, hreport, hall⟩ := validation
  refine ⟨rfl, ?_, ?_, ?_⟩
  · obtain ⟨-, -, -, -, -, hbelow, -⟩ := hall .column (.object [
      ("datatype", .null), ("constraints", .array [.string "unique", .string "index"])])
    refine hbelow [] _ (.here _) .diagram _ _ ?_
    exact .part (List.mem_cons_self ..) (.part (List.mem_cons_self ..)
      (.part (List.mem_cons_of_mem _ (List.mem_cons_self ..)) (.part (List.mem_cons_self ..)
        (.here _))))
  · obtain ⟨-, -, -, -, -, -, hnormal⟩ := hall .column (.object [
      ("name", .string "a"), ("note", .null),
      ("constraints", .array [.string "unique", .string "primary_key", .string "unique"]),
      ("datatype", .string "Int")])
    exact (hnormal _ rfl).2.1
  · obtain ⟨report, hok⟩ := hexists "model A \x7b\n  a Int @id\n\x7d"
      { models := [{ name := "A", fields := [{
          name := "a", type := { name := "Int", kind := .scalar }
          attributes := [{ name := "id" }] }] }] } (by with_unfolding_all rfl)
    obtain ⟨d, model, -, hmodel, hjson⟩ := hreport _ report hok
    exact ⟨report, d, model, hok, hmodel, hjson⟩

end Record

end SchemaDiagram
