import SchemaDiagram.Proofs.WellFormed

/-!
# Written lines

A line that is written has to come back as code, all of it. For that it must be free of comments,
have no line end and no blank at its ends, and none of this may depend on the state that a literal
leaves behind. `IsInline` is what a piece of a line needs so that pieces can be put next to each
other, and stripped texts can be put together too, so both are shown of a whole line piece by piece.
-/

namespace SchemaDiagram

/-! ## Putting stripped texts together -/

namespace Text.IsStripped

variable {s t : List Char}

theorem append (hs : IsStripped s) (ht : IsStripped t) : IsStripped (s ++ t) := by
  constructor
  · intro c hc
    rw [Option.mem_def, List.head?_append, Option.or_eq_some_iff] at hc
    rcases hc with hc | ⟨-, hc⟩
    · exact hs.1 c hc
    · exact ht.1 c hc
  · intro c hc
    rw [Option.mem_def, List.getLast?_append, Option.or_eq_some_iff] at hc
    rcases hc with hc | ⟨-, hc⟩
    · exact ht.2 c hc
    · exact hs.2 c hc

/-- A blank may stand between two texts that are not empty. -/
theorem append_cons (hs : IsStripped s) (ht : IsStripped t) (hsne : s ≠ []) (htne : t ≠ [])
    (c : Char) : IsStripped (s ++ c :: t) := by
  constructor
  · rw [List.head?_append_of_ne_nil _ hsne]
    exact hs.1
  · rw [List.getLast?_append_of_ne_nil _ (List.cons_ne_nil c t), List.getLast?_cons_of_ne_nil htne]
    exact ht.2

theorem singleton {c : Char} (hc : isBlank c = false) : IsStripped [c] :=
  of_ends hc hc rfl rfl

end Text.IsStripped

/-! ## Pieces of a line -/

/-- A character that means nothing to the scan of a line: it starts no literal and no comment, and
it does not end the line. -/
def isQuiet (c : Char) : Bool :=
  c != '"' && c != '/' && !Text.isTerminator c

theorem isQuiet_iff {c : Char} :
    isQuiet c = true ↔ c ≠ '"' ∧ c ≠ '/' ∧ Text.isTerminator c = false := by
  simp [isQuiet, and_assoc]

/-- A piece of code that stays on its line, and that a scan leaves outside of literals. -/
structure IsInline (s : List Char) : Prop where
  fits : FitsOnLine s
  after_outside : LiteralState.outside.after s = .outside

namespace IsInline

variable {s t : List Char}

/-- A piece of quiet characters. -/
theorem of_all (h : s.all isQuiet = true) : IsInline s := by
  rw [List.all_eq_true] at h
  refine ⟨⟨fun c hc => (isQuiet_iff.mp (h c hc)).2.2, .of_not_mem fun hmem => ?_⟩,
    LiteralState.after_outside_of_not_mem fun hmem => ?_⟩
  · exact absurd (h '/' hmem) (by decide)
  · exact absurd (h '"' hmem) (by decide)

theorem append (hs : IsInline s) (ht : IsInline t)
    (hseam : s.getLast? = some '/' → t.head? ≠ some '/') : IsInline (s ++ t) := by
  refine ⟨⟨Text.isOneLine_append.mpr ⟨hs.fits.1, ht.fits.1⟩, hs.fits.2.append ?_ hseam⟩, ?_⟩
  · rw [hs.after_outside]
    exact ht.fits.2
  · rw [LiteralState.after_append, hs.after_outside, ht.after_outside]

/-- Quiet characters in front. -/
theorem append_left (ht : IsInline t) (h : s.all isQuiet = true) : IsInline (s ++ t) := by
  refine (of_all h).append ht fun hlast => ?_
  exact absurd (List.all_eq_true.mp h '/' (List.mem_of_getLast? hlast)) (by decide)

/-- Quiet characters behind. -/
theorem append_right (hs : IsInline s) (h : t.all isQuiet = true) : IsInline (s ++ t) := by
  refine hs.append (of_all h) fun _ hhead => ?_
  exact absurd (List.all_eq_true.mp h '/' (List.mem_of_head? hhead)) (by decide)

theorem of_balanced {commas : Bool} (hfits : FitsOnLine s) (hs : Balanced commas s) :
    IsInline s :=
  ⟨hfits, hs.after_outside⟩

/-- A line that is written from such pieces is all code. -/
theorem ofText_eq (hs : IsInline s) (hstripped : Text.IsStripped s) :
    SourceLine.ofText s = { code := s, comment := none } :=
  SourceLine.ofText_eq_of_commentFree hs.fits.2 hstripped

end IsInline

theorem isQuiet_of_isWord {c : Char} (hc : Text.isWord c = true) : isQuiet c = true := by
  refine isQuiet_iff.mpr ⟨?_, ?_, Text.isTerminator_eq_false_of_isWord hc⟩
  · rintro rfl
    exact absurd hc (by decide)
  · rintro rfl
    exact absurd hc (by decide)

theorem all_isQuiet_of_isName {s : List Char} (hs : Text.isName s = true) :
    s.all isQuiet = true :=
  List.all_eq_true.mpr fun _ hc => isQuiet_of_isWord (Text.isWord_of_mem_isName hs hc)

/-! ## Arguments and attributes -/

theorem Argument.IsRegular.isInline_print {a : Argument} (h : a.IsRegular)
    (hfits : FitsOnLine a.value.toList) : IsInline a.print.toList := by
  rw [toList_print]
  refine IsInline.append_left (.of_balanced hfits h.balanced) ?_
  rcases a with ⟨_ | n, v⟩
  · rfl
  · rw [label, List.all_append, all_isQuiet_of_isName (h.isName n rfl), Bool.true_and]
    decide

namespace Attribute

theorem isInline_intercalate {pieces : List (List Char)} (h : ∀ p ∈ pieces, IsInline p) :
    IsInline ([','].intercalate pieces) := by
  induction pieces with
  | nil => exact .of_all rfl
  | cons p ps ih =>
    obtain ⟨hp, hps⟩ := List.forall_mem_cons.mp h
    cases ps with
    | nil => simpa using hp
    | cons q qs =>
      rw [List.intercalate_cons_cons, List.append_assoc]
      refine IsInline.append hp ?_ (by simp)
      exact IsInline.append_left (ih hps) (by decide)

theorem IsWritable.isInline_print {a : Attribute} (h : a.IsWritable) : IsInline a.print.toList := by
  have hname : ('@' :: a.name.toList).all isQuiet = true := by
    rw [List.all_cons, show isQuiet '@' = true by decide, Bool.true_and, List.all_eq_true]
    intro c hc
    rcases isWord_or_dot_of_mem h.isRegular.name hc with hw | rfl
    · exact isQuiet_of_isWord hw
    · decide
  have hpieces : ∀ p ∈ Argument.printedPieces a.arguments, IsInline p := by
    have hargs : ∀ arg ∈ a.arguments, IsInline arg.print.toList := fun arg harg =>
      (h.isRegular.arguments arg harg).isInline_print (h.fits arg harg)
    cases hcases : a.arguments with
    | nil => simp [Argument.printedPieces]
    | cons arg args =>
      rw [hcases, List.forall_mem_cons] at hargs
      rw [Argument.printedPieces, List.forall_mem_cons]
      refine ⟨hargs.1, fun p hp => ?_⟩
      obtain ⟨b, hb, rfl⟩ := List.mem_map.mp hp
      exact IsInline.append_left (s := [' ']) (hargs.2 b hb) (by decide)
  rw [toList_print, ← List.cons_append]
  refine IsInline.append_left ?_ hname
  rw [printedArguments]
  split
  · exact .of_all rfl
  · refine IsInline.append_left (s := ['(']) ?_ (by decide)
    exact (isInline_intercalate hpieces).append_right (by decide)

/-- An attribute ends in a bracket or with its name. -/
theorem IsRegular.isStripped_print {a : Attribute} (h : a.IsRegular) :
    Text.IsStripped a.print.toList := by
  have hname : Text.IsStripped a.name.toList := by
    rcases h.name with hname | ⟨first, second, heq, hfirst, hsecond⟩
    · exact Text.isStripped_of_isName hname
    · rw [heq]
      exact (Text.isStripped_of_isName hfirst).append_cons (Text.isStripped_of_isName hsecond)
        (Text.ne_nil_of_isName hfirst) (Text.ne_nil_of_isName hsecond) '.'
  rw [toList_print]
  refine (Text.IsStripped.singleton (c := '@') (by decide)).append (hname.append ?_)
  rw [printedArguments]
  split
  · exact Text.isStripped_nil
  · exact Text.IsStripped.of_ends (c := '(') (d := ')') (by decide) (by decide) rfl
      (by rw [← List.cons_append, List.getLast?_concat])

theorem isInline_printedRun {as : List Attribute} (h : ∀ a ∈ as, a.IsWritable) :
    IsInline (printedRun as) := by
  induction as with
  | nil => exact .of_all rfl
  | cons a as ih =>
    obtain ⟨ha, has⟩ := List.forall_mem_cons.mp h
    rw [printedRun, List.flatMap_cons]
    refine IsInline.append ?_ (ih has) fun _ hhead => ?_
    · exact IsInline.append_left (s := [' ']) ha.isInline_print (by decide)
    · cases as with
      | nil => simp at hhead
      | cons b bs => simp at hhead

/-- Attributes may be written behind a text without blanks at its ends. -/
theorem isStripped_append_printedRun {s : List Char} {as : List Attribute} (hne : s ≠ [])
    (hs : Text.IsStripped s) (h : ∀ a ∈ as, a.IsRegular) :
    Text.IsStripped (s ++ printedRun as) := by
  induction as generalizing s with
  | nil => rwa [printedRun, List.flatMap_nil, List.append_nil]
  | cons a as ih =>
    obtain ⟨ha, has⟩ := List.forall_mem_cons.mp h
    have hprint : a.print.toList ≠ [] := by
      rw [toList_print]
      exact List.cons_ne_nil _ _
    rw [printedRun, List.flatMap_cons, ← List.append_assoc]
    exact ih (by simp) (hs.append_cons ha.isStripped_print hne hprint ' ') has

theorem startsAttributes_printedRun (as : List Attribute) :
    startsAttributes (printedRun as) = true := by
  cases as with
  | nil => rfl
  | cons a as => rfl

end Attribute

/-! ## Types and fields -/

/-- The type that a field of the schema is written with. -/
def FieldType.expr (t : FieldType) : TypeExpr :=
  if t.kind = .unsupported then .unsupported t.name else .named t.name

@[simp] theorem FieldType.name_expr (t : FieldType) : t.expr.name = t.name := by
  rw [expr]
  split <;> rfl

theorem FieldType.isWritable_expr {t : FieldType} (h : t.IsWritable) : t.expr.IsWritable := by
  rw [IsWritable] at h
  rw [expr]
  split at h
  · next hkind => rwa [if_pos hkind]
  · next hkind => rwa [if_neg hkind]

namespace TypeExpr

/-- A type as it is written, without blanks. -/
def written : TypeExpr → List Char
  | .named n => n.toList
  | .unsupported raw => unsupportedOpening ++ '"' :: (raw.toList ++ ['"', ')'])

variable {t : TypeExpr}

theorem IsWritable.spells_written (h : t.IsWritable) : t.Spells t.written := by
  cases t with
  | named n => exact .named h
  | unsupported raw => exact .unsupported Text.isGap_nil Text.isGap_nil h.1

theorem IsWritable.isStripped_written (h : t.IsWritable) : Text.IsStripped t.written := by
  cases t with
  | named n => exact Text.isStripped_of_isName h
  | unsupported raw =>
    refine Text.IsStripped.of_ends (c := 'U') (d := ')') (by decide) (by decide) rfl ?_
    have hlast : written (.unsupported raw) =
        unsupportedOpening ++ '"' :: (raw.toList ++ ['"']) ++ [')'] := by simp [written]
    rw [hlast, List.getLast?_concat]

theorem IsWritable.written_ne_nil (h : t.IsWritable) : t.written ≠ [] := by
  cases t with
  | named n => exact Text.ne_nil_of_isName h
  | unsupported raw => exact List.cons_ne_nil _ _

theorem isInline_literal {raw : List Char} (hraw : LiteralBody raw) (hline : Text.IsOneLine raw) :
    IsInline ('"' :: (raw ++ ['"'])) := by
  refine ⟨⟨?_, ?_⟩, LiteralState.after_outside_literal hraw⟩
  · rw [Text.isOneLine_cons, Text.isOneLine_append]
    exact ⟨by decide, hline, Text.isOneLine_cons.mpr ⟨by decide, Text.isOneLine_nil⟩⟩
  · refine CommentFree.cons_of_ne (by decide) ?_
    exact CommentFree.append (.of_literalBody hraw) (.of_not_mem (by decide)) fun _ => by decide

theorem IsWritable.isInline_written (h : t.IsWritable) : IsInline t.written := by
  cases t with
  | named n => exact .of_all (all_isQuiet_of_isName h)
  | unsupported raw =>
    have hliteral : '"' :: (raw.toList ++ ['"', ')']) = '"' :: (raw.toList ++ ['"']) ++ [')'] := by
      simp
    rw [written, hliteral]
    exact ((isInline_literal h.1 h.2).append_right (by decide)).append_left (by decide)

end TypeExpr

theorem all_isQuiet_modifiers (isList isOptional : Bool) :
    (modifiers isList isOptional).all isQuiet = true := by
  cases isList <;> cases isOptional <;> decide

theorem isStripped_modifiers (isList isOptional : Bool) :
    Text.IsStripped (modifiers isList isOptional) := by
  cases isList <;> cases isOptional
  · exact Text.isStripped_nil
  · exact Text.IsStripped.singleton (by decide)
  · exact Text.IsStripped.of_ends (c := '[') (d := ']') (by decide) (by decide) rfl rfl
  · exact Text.IsStripped.of_ends (c := '[') (d := '?') (by decide) (by decide) rfl rfl

theorem FieldType.toList_print (t : FieldType) :
    t.print.toList = t.expr.written ++ modifiers t.isList t.isOptional := by
  have hname : (if t.kind = .unsupported then "Unsupported(\"" ++ t.name ++ "\")"
      else t.name).toList = t.expr.written := by
    rw [expr]
    split
    · simp [TypeExpr.written, TypeExpr.unsupportedOpening, String.toList_append]
    · rfl
  rw [print, String.toList_append, String.toList_append, hname, modifiers, List.append_assoc]
  cases t.isList <;> cases t.isOptional <;> rfl

namespace Field

/-- The line of code of a field, taken apart. -/
def fieldLine (f : Field) : FieldLine :=
  { name := f.name, type := f.type.expr, isList := f.type.isList, isOptional := f.type.isOptional,
    attributes := Attribute.printedRun f.attributes }

/-- The line of code of a field. -/
def code (f : Field) : List Char :=
  f.name.toList ++ ' ' :: (f.type.expr.written ++
    (modifiers f.type.isList f.type.isOptional ++ Attribute.printedRun f.attributes))

theorem map_toList_printLines (f : Field) :
    f.printLines.map String.toList =
      (documentationLines f.documentation).map String.toList ++ [f.code] := by
  have hrun : (String.join (f.attributes.map fun a => " " ++ a.print)).toList =
      Attribute.printedRun f.attributes := by
    rw [String.toList_join, List.flatMap_map, Attribute.printedRun]
    exact List.flatMap_congr fun a _ => by simp [String.toList_append]
  rw [printLines, List.map_append, List.map_singleton, String.toList_append, hrun,
    String.toList_append, FieldType.toList_print, String.toList_append]
  simp [code]

variable {f : Field}

theorem IsWritable.spells_code (h : f.IsWritable) : f.fieldLine.Spells f.code :=
  ⟨h.isName, Attribute.startsAttributes_printedRun f.attributes, [' '], f.type.expr.written,
    by simp, Text.isGap_space, (FieldType.isWritable_expr h.type).spells_written, rfl⟩

theorem IsWritable.isInline_code (h : f.IsWritable) : IsInline f.code := by
  have hrun := Attribute.isInline_printedRun h.attributes
  have htype := (FieldType.isWritable_expr h.type).isInline_written
  have htail : IsInline (f.type.expr.written ++
      (modifiers f.type.isList f.type.isOptional ++ Attribute.printedRun f.attributes)) := by
    refine htype.append (hrun.append_left (all_isQuiet_modifiers _ _)) fun _ hhead => ?_
    rw [List.head?_append, Option.or_eq_some_iff] at hhead
    rcases hhead with hhead | ⟨-, hhead⟩
    · have hquiet := List.all_eq_true.mp (all_isQuiet_modifiers _ _) '/' (List.mem_of_head? hhead)
      exact absurd hquiet (by decide)
    · have hstart := startsAttributes_iff.mp
        (Attribute.startsAttributes_printedRun f.attributes) '/' hhead
      exact absurd hstart (by decide)
  exact (htail.append_left (s := [' ']) (by decide)).append_left (all_isQuiet_of_isName h.isName)

theorem IsWritable.isStripped_code (h : f.IsWritable) : Text.IsStripped f.code := by
  have htype := FieldType.isWritable_expr h.type
  have hfront : Text.IsStripped (f.name.toList ++ ' ' :: (f.type.expr.written ++
      modifiers f.type.isList f.type.isOptional)) := by
    refine (Text.isStripped_of_isName h.isName).append_cons
      (htype.isStripped_written.append (isStripped_modifiers _ _))
      (Text.ne_nil_of_isName h.isName) ?_ ' '
    simp [htype.written_ne_nil]
  have hcode := Attribute.isStripped_append_printedRun (by simp) hfront
    fun a ha => (h.attributes a ha).isRegular
  rw [List.append_assoc, List.cons_append, List.append_assoc] at hcode
  exact hcode

end Field
end SchemaDiagram
