import SchemaDiagram.Proofs.Scan.Attribute

/-!
# Attributes in a row

An attribute is read off the front of a text, and nothing that stands behind it is looked at as long
as it cannot belong to the attribute (`EndsAttribute`): no word character, no dot, no parenthesis.
Reading it is therefore local, and so is reading a whole run (`parseRun_append`). A blank is such an
end, and what is read behind it is what is read without it, whether that succeeds or not.

Written with a space between them, attributes of the right form come back as they were. The form is
the one of every attribute that is ever read, so what is read of a run of attributes is fixed by
writing and reading it once more.
-/

namespace SchemaDiagram
namespace Attribute

variable {text rest name s : List Char} {a : Attribute} {as : List Attribute}

/-! ## One attribute and what follows it -/

theorem head?_append_ne {c : Char} (hrest : rest.head? ≠ some c) (hs : s.head? ≠ some c) :
    (rest ++ s).head? ≠ some c := by
  cases rest with
  | nil => exact hs
  | cons d rest => exact hrest

/-- **The name ends where it did** if a text follows that ends the attribute. -/
theorem readName_append_of_endsAttribute (h : readName text = some (name, rest))
    (hs : EndsAttribute s) : readName (text ++ s) = some (name, rest ++ s) := by
  obtain ⟨hends, hdot, -⟩ := hs
  unfold readName at h
  split at h
  · next first afterDot hfirst =>
    -- A dot follows the first name. Whether it belongs to the attribute is decided by what is
    -- behind it, and if nothing is, by the text that follows.
    obtain ⟨rfl, hisName, hstop⟩ := Text.readName_eq_some_iff.mp hfirst
    have hfirst' : Text.readName (first ++ '.' :: afterDot ++ s) =
        some (first, '.' :: (afterDot ++ s)) :=
      Text.readName_eq_some_iff.mpr ⟨by simp, hisName, Text.endsName_append hstop hends⟩
    rw [readName, hfirst']
    split at h
    · next second after hsecond =>
      obtain ⟨rfl, hisName', hstop'⟩ := Text.readName_eq_some_iff.mp hsecond
      obtain ⟨rfl, rfl⟩ := Prod.mk.inj (Option.some.inj h)
      have hsecond' : Text.readName (second ++ after ++ s) = some (second, after ++ s) :=
        Text.readName_eq_some_iff.mpr ⟨by simp, hisName', Text.endsName_append hstop' hends⟩
      simp only [hsecond']
    · next hnone =>
      obtain ⟨rfl, rfl⟩ := Prod.mk.inj (Option.some.inj h)
      simp only [Text.readName_append_eq_none hnone hends]
      rfl
  · next hnot =>
    have hdot' : rest.head? ≠ some '.' := by
      intro hhead
      obtain ⟨afterDot, rfl⟩ := List.head?_eq_some_iff.mp hhead
      exact hnot name afterDot h
    obtain ⟨rfl, hisName, hstop⟩ := Text.readName_eq_some_iff.mp h
    rw [List.append_assoc]
    exact readName_append (Or.inl hisName) (Text.endsName_append hstop hends)
      (head?_append_ne hdot' hdot)

/-- An attribute without arguments ends behind its name. -/
theorem read_of_readName (h : readName text = some (name, rest)) (hparen : rest.head? ≠ some '(') :
    read ('@' :: text) = .ok ({ name := String.ofList name }, rest) := by
  rw [read, h]
  split
  · next heq =>
    obtain ⟨-, rfl⟩ := Prod.mk.inj (Option.some.inj heq)
    exact absurd rfl hparen
  · next heq =>
    obtain ⟨rfl, rfl⟩ := Prod.mk.inj (Option.some.inj heq)
    rfl
  · next heq => simp at heq

/-- **Reading an attribute is local.** What follows it stays in the rest. -/
theorem read_append (h : read text = .ok (a, rest)) (hs : EndsAttribute s) :
    read (text ++ s) = .ok (a, rest ++ s) := by
  unfold read at h
  split at h
  · next afterAt =>
    rw [List.cons_append]
    split at h
    · next name inner hname =>
      have hname' := readName_append_of_endsAttribute hname hs
      split at h
      · simp at h
      · next inside after hgroup =>
        obtain ⟨rfl, hin⟩ := takeGroup_eq_ok_iff.mp hgroup
        have hgroup' : takeGroup .round (inside ++ Bracket.round.closer :: after ++ s) =
            .ok (inside, after ++ s) :=
          takeGroup_eq_ok_iff.mpr ⟨by simp, hin⟩
        obtain ⟨args, hargs, heq⟩ := map_eq_ok_iff.mp h
        obtain ⟨rfl, rfl⟩ := Prod.mk.inj heq
        rw [read, hname']
        simp only [List.cons_append, hgroup', hargs]
        rfl
    · next name after hnot hname =>
      obtain ⟨rfl, rfl⟩ := Prod.mk.inj (Except.ok.inj h)
      have hparen : after.head? ≠ some '(' := by
        intro hhead
        obtain ⟨inner, rfl⟩ := List.head?_eq_some_iff.mp hhead
        exact hnot inner rfl
      exact read_of_readName (readName_append_of_endsAttribute hname hs)
        (head?_append_ne hparen hs.2.2)
    · simp at h
  · simp at h

/-! ## A run and what follows it -/

/-- **Reading a run is local.** Its attributes come first, and then what follows decides. -/
theorem parseRun_append (h : parseRun text = .ok as) (hs : EndsAttribute s) :
    parseRun (text ++ s) = (parseRun s).map (as ++ ·) := by
  refine parseRun_induction (P := fun text as => parseRun (text ++ s) =
    (parseRun s).map (as ++ ·)) ?_ ?_ h
  · intro gap hgap
    rw [parseRun_gap_append hgap]
    cases parseRun s <;> rfl
  · intro gap text a rest as hgap hread ih
    rw [List.append_assoc, parseRun_gap_append hgap, parseRun_of_read (read_append hread hs), ih]
    cases parseRun s <;> rfl

/-- Behind a space a run is read as it would be alone. -/
theorem parseRun_append_space (h : parseRun text = .ok as) (s : List Char) :
    parseRun (text ++ ' ' :: s) = (parseRun s).map (as ++ ·) := by
  have hspace : parseRun (' ' :: s) = parseRun s := parseRun_gap_append Text.isGap_space s
  rw [parseRun_append h (endsAttribute_cons (by decide) s), hspace]

/-! ## A run as it is written -/

theorem toList_printRun_cons (a : Attribute) (as : List Attribute) :
    (printRun (a :: as)).toList = a.print.toList ++ printedRun as := by
  rw [printRun, String.toList_intercalate, List.map_map, List.map_cons, intercalate_cons_eq,
    List.flatMap_map]
  rfl

/-- **Writing and reading attributes with a space between them.** -/
theorem parseRun_printRun (h : ∀ a ∈ as, a.IsRegular) : parseRun (printRun as).toList = .ok as := by
  cases as with
  | nil => exact parseRun_nil
  | cons a as =>
    obtain ⟨ha, has⟩ := List.forall_mem_cons.mp h
    rw [toList_printRun_cons, parseRun_of_read (ha.read_print (endsAttribute_printedRun as)),
      parseRun_printedRun has]
    rfl

/-- **What is read of a run of attributes.** Attributes of the right form come back if they are
written with a space between them. Whatever is read of a text has that form, and so it comes back as
well. Two texts with a space between them, of which the first is a run, are read as the attributes
of the first and those of the second, and if the second is no run the error is its own. -/
theorem attributes_of_parseRun :
    (∀ as : List Attribute, (∀ a ∈ as, a.IsRegular) → parseRun (printRun as).toList = .ok as) ∧
    (∀ text as, parseRun text = .ok as →
      (∀ a ∈ as, a.IsRegular) ∧ parseRun (printRun as).toList = .ok as) ∧
    ∀ text other as, parseRun text = .ok as →
      (∀ as', parseRun other = .ok as' → parseRun (text ++ ' ' :: other) = .ok (as ++ as')) ∧
      ∀ line e, SchemaError.located line (parseRun other) = .error e →
        SchemaError.located line (parseRun (text ++ ' ' :: other)) = .error e := by
  refine ⟨fun as h => parseRun_printRun h, fun text as h => ?_, fun text other as h => ⟨?_, ?_⟩⟩
  · have hregular : ∀ a ∈ as, a.IsRegular := fun a ha => ((isRegular_of_parseRun h).2 a ha).1
    exact ⟨hregular, parseRun_printRun hregular⟩
  · intro as' h'
    rw [parseRun_append_space h, h']
    rfl
  · intro line e he
    rw [parseRun_append_space h]
    cases hother : parseRun other with
    | ok as' =>
      rw [hother] at he
      simp [SchemaError.located, Except.mapError] at he
    | error cause =>
      rw [hother] at he
      exact he

/-- Two attributes without a space between them, the second with a literal and a named argument.
They come back when they are written, and in front of a list that is left open the error is the one
of the list. -/
theorem attributes_of_parseRun_adjacent :
    parseRun (printRun [⟨"db.Text", []⟩, ⟨"map", [⟨none, "\"a, )\""⟩, ⟨some "b", "[c]"⟩]⟩]).toList =
        .ok [⟨"db.Text", []⟩, ⟨"map", [⟨none, "\"a, )\""⟩, ⟨some "b", "[c]"⟩]⟩] ∧
      SchemaError.located (some 3)
          (parseRun ("@db.Text@map(\"a, )\",b : [c])".toList ++ ' ' :: "@id(".toList)) =
        .error ⟨.unclosedGroup .round, some 3⟩ := by
  have hfirst : read "@db.Text@map(\"a, )\",b : [c])".toList =
      .ok (⟨"db.Text", []⟩, "@map(\"a, )\",b : [c])".toList) := by decide
  have hsecond : read "@map(\"a, )\",b : [c])".toList =
      .ok (⟨"map", [⟨none, "\"a, )\""⟩, ⟨some "b", "[c]"⟩]⟩, []) := by decide
  have hrun : parseRun "@db.Text@map(\"a, )\",b : [c])".toList =
      .ok [⟨"db.Text", []⟩, ⟨"map", [⟨none, "\"a, )\""⟩, ⟨some "b", "[c]"⟩]⟩] := by
    rw [parseRun_of_read hfirst, parseRun_of_read hsecond, parseRun_nil]
    rfl
  have hopen : parseRun "@id(".toList = .error (.unclosedGroup .round) := by
    rw [parseRun_eq]
    rfl
  refine ⟨(attributes_of_parseRun.2.1 _ _ hrun).2, ?_⟩
  refine (attributes_of_parseRun.2.2 _ _ _ hrun).2 (some 3) _ ?_
  rw [hopen]
  rfl

end Attribute
end SchemaDiagram
