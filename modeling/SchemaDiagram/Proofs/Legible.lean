import Mathlib.Data.List.Infix
import SchemaDiagram.Proofs.Lines

/-!
# Reading a drawn diagram

A drawn diagram can be read in one way only (`Diagram.render_inj`), provided that the names in it
are names, that no text of it has a line feed, and that no type of a column looks like the place
where the constraints begin. Each line is told by how it starts: a relation by its arrow, a column
by its tab, and the line that says how a table is shown by its place below the name of the table. In
the line of a column the constraints begin where their opening piece first occurs; a type could end
in a part of that piece, but the piece does not overlap itself.

No line has to be taken apart for this. What is shown is that equal texts come from equal parts,
line by line and, within a line, part by part.
-/

namespace SchemaDiagram

/-! ## A piece that marks its place -/

/-- No proper end of the piece is a beginning of it, so that two occurrences of it never overlap. -/
def IsBorderless (p : List Char) : Prop :=
  ∀ k < p.length, 0 < k → ¬ p.drop k <+: p

instance (p : List Char) : Decidable (IsBorderless p) :=
  inferInstanceAs (Decidable (∀ k < p.length, 0 < k → ¬ p.drop k <+: p))

/-- The first occurrence of the piece is not moved by a text in front that has no occurrence. -/
theorem eq_nil_of_piece_append {p x a r s : List Char} (hp : IsBorderless p)
    (hx : ¬ p <:+: x ++ a) (h : p ++ r = a ++ (p ++ s)) : a = [] := by
  rcases Nat.lt_or_ge a.length p.length with hlt | hge
  · by_contra ha
    -- what is left of the piece behind `a` starts the piece again
    have hdrop : p.drop a.length ++ r = p ++ s := by
      rw [← List.drop_append_of_le_length hlt.le, h, List.drop_left]
    refine hp a.length hlt (List.length_pos_iff.mpr ha)
      (List.prefix_of_prefix_length_le ⟨r, hdrop⟩ ⟨s, rfl⟩ ?_)
    rw [List.length_drop]
    exact Nat.sub_le _ _
  · have hfront : p <+: a := List.prefix_of_prefix_length_le ⟨r, h⟩ ⟨p ++ s, rfl⟩ hge
    obtain ⟨b, rfl⟩ := hfront
    exact absurd ⟨x, b, List.append_assoc x p b⟩ hx

/-- **A piece without a border marks its place**: what stands in front of its first occurrence and
what stands behind it are determined. -/
theorem eq_of_append_piece {p x y r s : List Char} (hp : IsBorderless p) (hx : ¬ p <:+: x)
    (hy : ¬ p <:+: y) (h : x ++ (p ++ r) = y ++ (p ++ s)) : x = y ∧ r = s := by
  rcases List.append_eq_append_iff.mp h with ⟨a, rfl, ha⟩ | ⟨a, rfl, ha⟩
  · obtain rfl := eq_nil_of_piece_append hp hy ha
    exact ⟨(List.append_nil x).symm, List.append_cancel_left ha⟩
  · obtain rfl := eq_nil_of_piece_append hp hx ha
    exact ⟨List.append_nil y, (List.append_cancel_left ha).symm⟩

/-! ## Constraints -/

/-- The piece of a line with which the constraints of a column begin. -/
def constraintsOpening : List Char :=
  " \x7b constraint: [".toList

/-- The constraints behind the first one, up to the end of the line. -/
def constraintsTail : List Constraint → List Char
  | [] => [']', ' ', '}']
  | k :: ks => ';' :: ' ' :: (k.word.toList ++ constraintsTail ks)

/-- The constraints of a column as they are written behind its type. -/
def constraintsText : List Constraint → List Char
  | [] => []
  | k :: ks => constraintsOpening ++ (k.word.toList ++ constraintsTail ks)

theorem isBorderless_constraintsOpening : IsBorderless constraintsOpening := by
  decide

theorem Constraint.isName_word (k : Constraint) : Text.isName k.word.toList = true := by
  cases k <;> decide

theorem endsName_constraintsTail (ks : List Constraint) : Text.EndsName (constraintsTail ks) := by
  cases ks <;> exact Text.endsName_cons.mpr (by decide)

/-- A constraint and those behind it are determined by their text if those behind it are. -/
theorem eq_of_word_append {k l : Constraint} {ks ls : List Constraint}
    (h : k.word.toList ++ constraintsTail ks = l.word.toList ++ constraintsTail ls) :
    k = l ∧ constraintsTail ks = constraintsTail ls := by
  obtain ⟨hword, htail⟩ := Text.eq_of_name_append k.isName_word l.isName_word
    (endsName_constraintsTail ks) (endsName_constraintsTail ls) h
  exact ⟨Constraint.eq_of_word_eq (String.toList_inj.mp hword), htail⟩

theorem constraintsTail_injective : Function.Injective constraintsTail := by
  intro ks
  induction ks with
  | nil =>
    rintro (_ | ⟨l, ls⟩) h
    · rfl
    · exact absurd (List.cons.inj h).1 (by decide)
  | cons k ks ih =>
    rintro (_ | ⟨l, ls⟩) h
    · exact absurd (List.cons.inj h).1 (by decide)
    · obtain ⟨rfl, htail⟩ := eq_of_word_append (List.cons.inj (List.cons.inj h).2).2
      rw [ih htail]

/-- A type and the constraints behind it are determined by their text, if the type does not look as
if constraints began in it. -/
theorem eq_of_datatype_append {x y : List Char} {ks ls : List Constraint}
    (hx : ¬ constraintsOpening <:+: x) (hy : ¬ constraintsOpening <:+: y)
    (h : x ++ constraintsText ks = y ++ constraintsText ls) : x = y ∧ ks = ls := by
  cases ks with
  | nil =>
    cases ls with
    | nil => exact ⟨List.append_cancel_right h, rfl⟩
    | cons l ls =>
      rw [constraintsText, List.append_nil] at h
      exact absurd ⟨y, _, by rw [h, constraintsText, List.append_assoc]⟩ hx
  | cons k ks =>
    cases ls with
    | nil =>
      rw [constraintsText, constraintsText, List.append_nil] at h
      exact absurd ⟨x, _, by rw [← h, List.append_assoc]⟩ hy
    | cons l ls =>
      obtain ⟨hxy, hrest⟩ := eq_of_append_piece isBorderless_constraintsOpening hx hy h
      obtain ⟨rfl, htail⟩ := eq_of_word_append hrest
      exact ⟨hxy, by rw [constraintsTail_injective htail]⟩

theorem toList_intercalate_words (k : Constraint) (ks : List Constraint) :
    ("; ".intercalate ((k :: ks).map Constraint.word)).toList ++ "] \x7d".toList =
      k.word.toList ++ constraintsTail ks := by
  rw [String.toList_intercalate]
  induction ks generalizing k with
  | nil => simp [constraintsTail]
  | cons l ks ih =>
    rw [List.map_cons, List.map_cons, List.map_cons, List.map_cons, List.intercalate_cons_cons,
      List.append_assoc, List.append_assoc, ← List.map_cons, ← List.map_cons, ih l]
    rfl

theorem Column.toList_render (c : Column) :
    c.render.toList =
      c.name.toList ++ ':' :: ' ' :: (c.datatype.toList ++ constraintsText c.constraints) := by
  have htext : c.annotation.toList = constraintsText c.constraints := by
    unfold annotation
    cases c.constraints with
    | nil => rfl
    | cons k ks =>
      rw [if_neg (by simp), String.toList_append, String.toList_append, List.append_assoc,
        toList_intercalate_words]
      rfl
  rw [render, String.toList_append, String.toList_append, String.toList_append, htext]
  simp

/-! ## Legible diagrams -/

/-- A column whose name is a name and whose type is on one line and does not look as if constraints
began in it. -/
structure Column.IsLegible (c : Column) : Prop where
  name : Text.isName c.name.toList = true
  feed : '\n' ∉ c.datatype.toList
  datatype : ¬ constraintsOpening <:+: c.datatype.toList

/-- A table whose name is a name and whose columns are legible. -/
structure Table.IsLegible (t : Table) : Prop where
  name : Text.isName t.name.toList = true
  columns : ∀ c ∈ t.columns, c.IsLegible

/-- A relation whose ends are names and whose label, if there is one, is on one line. -/
structure Relation.IsLegible (r : Relation) : Prop where
  source : Text.isName r.source.toList = true
  target : Text.isName r.target.toList = true
  label : ∀ l ∈ r.label, '\n' ∉ l.toList

/-- A diagram of legible tables and relations. -/
structure Diagram.IsLegible (d : Diagram) : Prop where
  tables : ∀ t ∈ d.tables, t.IsLegible
  relations : ∀ r ∈ d.relations, r.IsLegible

instance (c : Column) : Decidable c.IsLegible :=
  decidable_of_iff (Text.isName c.name.toList = true ∧ '\n' ∉ c.datatype.toList ∧
      ¬ constraintsOpening <:+: c.datatype.toList)
    ⟨fun h => ⟨h.1, h.2.1, h.2.2⟩, fun h => ⟨h.name, h.feed, h.datatype⟩⟩

instance (t : Table) : Decidable t.IsLegible :=
  decidable_of_iff (Text.isName t.name.toList = true ∧ ∀ c ∈ t.columns, c.IsLegible)
    ⟨fun h => ⟨h.1, h.2⟩, fun h => ⟨h.name, h.columns⟩⟩

instance (r : Relation) : Decidable r.IsLegible :=
  decidable_of_iff (Text.isName r.source.toList = true ∧ Text.isName r.target.toList = true ∧
      ∀ l ∈ r.label, '\n' ∉ l.toList)
    ⟨fun h => ⟨h.1, h.2.1, h.2.2⟩, fun h => ⟨h.source, h.target, h.label⟩⟩

instance (d : Diagram) : Decidable d.IsLegible :=
  decidable_of_iff ((∀ t ∈ d.tables, t.IsLegible) ∧ ∀ r ∈ d.relations, r.IsLegible)
    ⟨fun h => ⟨h.1, h.2⟩, fun h => ⟨h.tables, h.relations⟩⟩

theorem Text.feed_not_mem_of_isName {s : List Char} (h : isName s = true) : '\n' ∉ s :=
  feed_not_mem_of_isOneLine (isOneLine_of_isName h)

theorem Column.IsLegible.isFeedFree {c : Column} (h : c.IsLegible) : c.IsFeedFree :=
  ⟨Text.feed_not_mem_of_isName h.name, h.feed⟩

theorem Table.IsLegible.isFeedFree {t : Table} (h : t.IsLegible) : t.IsFeedFree :=
  ⟨Text.feed_not_mem_of_isName h.name, fun c hc => (h.columns c hc).isFeedFree⟩

theorem Relation.IsLegible.isFeedFree {r : Relation} (h : r.IsLegible) : r.IsFeedFree :=
  ⟨Text.feed_not_mem_of_isName h.source, Text.feed_not_mem_of_isName h.target, h.label⟩

theorem Diagram.IsLegible.isFeedFree {d : Diagram} (h : d.IsLegible) : d.IsFeedFree :=
  ⟨fun t ht => (h.tables t ht).isFeedFree, fun r hr => (h.relations r hr).isFeedFree⟩

/-! ## One line -/

/-- **A column** is determined by its line. -/
theorem Column.eq_of_render_eq {c c' : Column} (hc : c.IsLegible) (hc' : c'.IsLegible)
    (h : c.render = c'.render) : c = c' := by
  have htext := congrArg String.toList h
  rw [toList_render, toList_render] at htext
  have hends : ∀ rest, Text.EndsName (':' :: rest) := fun _ => Text.endsName_cons.mpr (by decide)
  obtain ⟨hname, hrest⟩ := Text.eq_of_name_append hc.name hc'.name (hends _) (hends _) htext
  obtain ⟨hdatatype, hconstraints⟩ := eq_of_datatype_append hc.datatype hc'.datatype
    (List.cons.inj (List.cons.inj hrest).2).2
  obtain ⟨name, datatype, constraints, hnodup⟩ := c
  obtain ⟨name', datatype', constraints', hnodup'⟩ := c'
  obtain rfl : name = name' := String.toList_inj.mp hname
  obtain rfl : datatype = datatype' := String.toList_inj.mp hdatatype
  obtain rfl : constraints = constraints' := hconstraints
  rfl

/-- The label of a relation as it is written behind the arrow and the target. -/
def labelText : Option String → List Char
  | none => []
  | some l => ':' :: ' ' :: l.toList

theorem labelText_injective : Function.Injective labelText := by
  rintro (_ | l) (_ | l') h
  · rfl
  · exact absurd h.symm (List.cons_ne_nil _ _)
  · exact absurd h (List.cons_ne_nil _ _)
  · rw [String.toList_inj.mp (List.cons.inj (List.cons.inj h).2).2]

theorem endsName_labelText (label : Option String) : Text.EndsName (labelText label) := by
  cases label with
  | none => exact Text.endsName_nil
  | some l => exact Text.endsName_cons.mpr (by decide)

theorem Relation.toList_render (r : Relation) :
    r.render.toList =
      r.source.toList ++ ' ' :: '-' :: '>' :: ' ' :: (r.target.toList ++ labelText r.label) := by
  rw [render, String.toList_append, String.toList_append, String.toList_append]
  cases r.label with
  | none => simp [labelText]
  | some l => simp [labelText, String.toList_append]

/-- **A relation** is determined by its line, down to whether it has a label. -/
theorem Relation.eq_of_render_eq {r r' : Relation} (hr : r.IsLegible) (hr' : r'.IsLegible)
    (h : r.render = r'.render) : r = r' := by
  have htext := congrArg String.toList h
  rw [toList_render, toList_render] at htext
  have hends : ∀ rest, Text.EndsName (' ' :: rest) := fun _ => Text.endsName_cons.mpr (by decide)
  obtain ⟨hsource, hrest⟩ := Text.eq_of_name_append hr.source hr'.source (hends _) (hends _) htext
  simp only [List.cons.injEq, true_and] at hrest
  obtain ⟨htarget, hlabel⟩ := Text.eq_of_name_append hr.target hr'.target
    (endsName_labelText r.label) (endsName_labelText r'.label) hrest
  obtain ⟨source, target, label⟩ := r
  obtain ⟨source', target', label'⟩ := r'
  rw [Relation.mk.injEq]
  exact ⟨String.toList_inj.mp hsource, String.toList_inj.mp htarget, labelText_injective hlabel⟩

/-- **The first line of a table** is no relation. -/
theorem header_ne_render {name : String} {r : Relation} (hname : Text.isName name.toList = true)
    (hr : r.IsLegible) : name ++ " \x7b" ≠ r.render := by
  intro h
  have htext := congrArg String.toList h
  rw [Relation.toList_render, String.toList_append] at htext
  obtain ⟨-, hrest⟩ := Text.eq_of_name_append hname hr.source
    (Text.endsName_cons.mpr (by decide)) (Text.endsName_cons.mpr (by decide)) htext
  exact absurd (List.cons.inj (List.cons.inj hrest).2).1 (by decide)

/-! ## All lines -/

/-- The lines of columns end at the closing bracket of their table. -/
theorem eq_of_columns_append {cs cs' : List Column} {ls ls' : List String}
    (hcs : ∀ c ∈ cs, c.IsLegible) (hcs' : ∀ c ∈ cs', c.IsLegible)
    (h : (cs.map fun c => "\t" ++ c.render) ++ "\x7d" :: ls =
      (cs'.map fun c => "\t" ++ c.render) ++ "\x7d" :: ls') : cs = cs' ∧ ls = ls' := by
  have hbracket : ∀ c : Column, "\t" ++ c.render ≠ "\x7d" := by
    intro c hc
    have := congrArg String.toList hc
    simp [String.toList_append] at this
  induction cs generalizing cs' with
  | nil =>
    cases cs' with
    | nil => exact ⟨rfl, (List.cons.inj h).2⟩
    | cons c' cs' => exact absurd (List.cons.inj h).1.symm (hbracket c')
  | cons c cs ih =>
    cases cs' with
    | nil => exact absurd (List.cons.inj h).1 (hbracket c)
    | cons c' cs' =>
      obtain ⟨hc, hcs⟩ := List.forall_mem_cons.mp hcs
      obtain ⟨hc', hcs'⟩ := List.forall_mem_cons.mp hcs'
      obtain ⟨hline, hrest⟩ := List.cons.inj h
      have hrender : c.render = c'.render := by
        have := congrArg String.toList hline
        simpa [String.toList_append, String.toList_inj] using this
      obtain ⟨rfl, hls⟩ := ih hcs hcs' hrest
      exact ⟨by rw [Column.eq_of_render_eq hc hc' hrender], hls⟩

/-- **A table** is determined by its lines, and they are told from what stands behind them. -/
theorem Table.eq_of_lines_append {t t' : Table} {ls ls' : List String} (ht : t.IsLegible)
    (ht' : t'.IsLegible) (h : t.lines ++ ls = t'.lines ++ ls') : t = t' ∧ ls = ls' := by
  simp only [lines, List.cons_append, List.append_assoc, List.nil_append, List.cons.injEq,
    true_and] at h
  obtain ⟨hheader, hrest⟩ := h
  obtain ⟨hcolumns, hls⟩ := eq_of_columns_append ht.columns ht'.columns hrest
  obtain ⟨name, columns, hname⟩ := t
  obtain ⟨name', columns', hname'⟩ := t'
  have hnames : name = name' := by
    have := congrArg String.toList hheader
    simpa [String.toList_append, String.toList_inj] using this
  obtain rfl : columns = columns' := hcolumns
  subst hnames
  exact ⟨rfl, hls⟩

namespace Diagram

theorem eq_of_relations_lines {rs rs' : List Relation} (hrs : ∀ r ∈ rs, r.IsLegible)
    (hrs' : ∀ r ∈ rs', r.IsLegible)
    (h : (rs.flatMap fun r => [r.render, ""]) = rs'.flatMap fun r => [r.render, ""]) :
    rs = rs' := by
  induction rs generalizing rs' with
  | nil =>
    cases rs' with
    | nil => rfl
    | cons r' rs' => simp at h
  | cons r rs ih =>
    cases rs' with
    | nil => simp at h
    | cons r' rs' =>
      obtain ⟨hr, hrs⟩ := List.forall_mem_cons.mp hrs
      obtain ⟨hr', hrs'⟩ := List.forall_mem_cons.mp hrs'
      simp only [List.flatMap_cons, List.cons_append, List.nil_append, List.cons.injEq,
        true_and] at h
      rw [Relation.eq_of_render_eq hr hr' h.1, ih hrs hrs' h.2]

/-- The lines of a table are not those of relations: they start with its name and a bracket. -/
theorem ne_of_table_lines {t : Table} (ht : t.IsLegible) (ls : List String) {rs : List Relation}
    (hrs : ∀ r ∈ rs, r.IsLegible) :
    t.lines ++ ls ≠ rs.flatMap fun r => [r.render, ""] := by
  intro h
  cases rs with
  | nil => simp [Table.lines] at h
  | cons r rs =>
    exact header_ne_render ht.name (hrs r (List.mem_cons_self ..)) (List.cons.inj h).1

/-- **The lines of a diagram** determine its tables and its relations. -/
theorem eq_of_lines {ts ts' : List Table} {rs rs' : List Relation} (hts : ∀ t ∈ ts, t.IsLegible)
    (hts' : ∀ t ∈ ts', t.IsLegible) (hrs : ∀ r ∈ rs, r.IsLegible) (hrs' : ∀ r ∈ rs', r.IsLegible)
    (h : (ts.flatMap fun t => t.lines ++ [""]) ++ (rs.flatMap fun r => [r.render, ""]) =
      (ts'.flatMap fun t => t.lines ++ [""]) ++ rs'.flatMap fun r => [r.render, ""]) :
    ts = ts' ∧ rs = rs' := by
  induction ts generalizing ts' with
  | nil =>
    cases ts' with
    | nil => exact ⟨rfl, eq_of_relations_lines hrs hrs' h⟩
    | cons t' ts' =>
      rw [List.flatMap_cons, List.append_assoc, List.append_assoc] at h
      exact absurd h.symm (ne_of_table_lines (hts' t' (List.mem_cons_self ..)) _ hrs)
  | cons t ts ih =>
    rw [List.flatMap_cons, List.append_assoc, List.append_assoc] at h
    cases ts' with
    | nil => exact absurd h (ne_of_table_lines (hts t (List.mem_cons_self ..)) _ hrs')
    | cons t' ts' =>
      obtain ⟨ht, hts⟩ := List.forall_mem_cons.mp hts
      obtain ⟨ht', hts'⟩ := List.forall_mem_cons.mp hts'
      rw [List.flatMap_cons, List.append_assoc, List.append_assoc] at h
      obtain ⟨htable, hrest⟩ := Table.eq_of_lines_append ht ht' h
      obtain ⟨htables, hrelations⟩ := ih hts hts' (List.cons.inj hrest).2
      exact ⟨by rw [htable, htables], hrelations⟩

/-- **A drawn diagram determines the diagram.** Legible diagrams are drawn as the same text only if
they have the same tables, columns, types, constraints and relations, in the same order, and the
same labels, where no label is not the same as an empty one. -/
theorem render_inj {d d' : Diagram} (h : d.IsLegible) (h' : d'.IsLegible) :
    d.render = d'.render ↔ d = d' := by
  constructor
  · intro heq
    have hsplit := h.isFeedFree.splitAtFeeds_render
    rw [heq, h'.isFeedFree.splitAtFeeds_render] at hsplit
    have hlines : d.lines = d'.lines := List.append_cancel_right
      (List.map_injective_iff.mpr (fun _ _ => String.toList_inj.mp) hsplit.symm)
    obtain ⟨htables, hrelations⟩ :=
      eq_of_lines h.tables h'.tables h.relations h'.relations hlines
    obtain ⟨tables, relations⟩ := d
    obtain ⟨tables', relations'⟩ := d'
    rw [Diagram.mk.injEq]
    exact ⟨htables, hrelations⟩
  · rintro rfl
    rfl

/-- A column that looks like the line that says how a table is shown, a type that ends like the
place where constraints begin, and a relation with an empty label or with none. -/
theorem render_inj_label :
    ∃ d d' : Diagram, d.IsLegible ∧ d'.IsLegible ∧ d.tables = d'.tables ∧
      d.relations = [{ source := "A", target := "A", label := some "" }] ∧
      d'.relations = [{ source := "A", target := "A" }] ∧ d.render ≠ d'.render := by
  let tables : List Table := [{
    name := "A"
    columns := [{ name := "shape", datatype := "sql_table" },
      { name := "a", datatype := "b \x7b constraint:", constraints := [.unique, .primaryKey] }] }]
  let d : Diagram := { tables, relations := [{ source := "A", target := "A", label := some "" }] }
  let d' : Diagram := { tables, relations := [{ source := "A", target := "A" }] }
  have hd : d.IsLegible := by decide +kernel
  have hd' : d'.IsLegible := by decide +kernel
  refine ⟨d, d', hd, hd', rfl, rfl, rfl, fun h => ?_⟩
  exact absurd ((render_inj hd hd').mp h) (by decide)

end Diagram
end SchemaDiagram
