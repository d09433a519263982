import Mathlib.Data.List.Forall2
import SchemaDiagram.Proofs.Scan.Attribute

/-!
# What a list of arguments says

A list of arguments is read in two steps. It is cut at its commas, and each piece is read on its
own. Both are said here without the scan that does them. A text is cut into pieces that are
balanced, have no comma outside of literals and groups, and make up the text with commas between
them (`IsCutInto`); there is one such cut exactly if the text is balanced, and else there is none.
A piece that is not blank is a name, a colon and a value, or it is a value as it stands
(`Argument.Says`). A list is read as what its pieces say, in order (`Argument.parseList_eq_ok_iff`),
and therefore two lists with a comma between them are read as the one followed by the other.
-/

namespace SchemaDiagram

/-! ## The cut -/

/-- Whether the text is cut into the pieces by its commas. -/
structure IsCutInto (text : List Char) (pieces : List (List Char)) : Prop where
  ne_nil : pieces ≠ []
  text_eq : text = [','].intercalate pieces
  balanced : ∀ p ∈ pieces, Balanced false p

theorem isCutInto_iff {text : List Char} {pieces : List (List Char)} :
    IsCutInto text pieces ↔ splitAtCommas text = .ok pieces := by
  rw [splitAtCommas_eq_ok_iff]
  exact ⟨fun h => ⟨h.ne_nil, h.text_eq, h.balanced⟩, fun ⟨hne, htext, hall⟩ => ⟨hne, htext, hall⟩⟩

/-- A text is cut in one way at most. -/
theorem IsCutInto.unique {text : List Char} {pieces pieces' : List (List Char)}
    (h : IsCutInto text pieces) (h' : IsCutInto text pieces') : pieces = pieces' :=
  Except.ok.inj ((isCutInto_iff.mp h).symm.trans (isCutInto_iff.mp h'))

/-- **The texts that can be cut** are the balanced ones. -/
theorem exists_isCutInto_iff {text : List Char} :
    (∃ pieces, IsCutInto text pieces) ↔ Balanced true text := by
  constructor
  · rintro ⟨pieces, h⟩
    rw [h.text_eq]
    exact Attribute.balanced_intercalate h.balanced
  · intro h
    obtain ⟨pieces, hsplit⟩ := exists_splitAtCommas h
    exact ⟨pieces, isCutInto_iff.mpr hsplit⟩

theorem intercalate_append {ps qs : List (List Char)} (hps : ps ≠ []) (hqs : qs ≠ []) :
    [','].intercalate (ps ++ qs) = [','].intercalate ps ++ ',' :: [','].intercalate qs := by
  obtain ⟨p, ps, rfl⟩ := List.exists_cons_of_ne_nil hps
  obtain ⟨q, qs, rfl⟩ := List.exists_cons_of_ne_nil hqs
  rw [List.cons_append, intercalate_cons_eq, intercalate_cons_eq, intercalate_cons_eq,
    List.flatMap_append, List.flatMap_cons, List.append_assoc, List.append_assoc]
  rfl

/-- A comma between two texts cuts there. -/
theorem IsCutInto.append {a b : List Char} {ps qs : List (List Char)} (ha : IsCutInto a ps)
    (hb : IsCutInto b qs) : IsCutInto (a ++ ',' :: b) (ps ++ qs) := by
  refine ⟨List.append_ne_nil_of_left_ne_nil ha.ne_nil qs, ?_,
    List.forall_mem_append.mpr ⟨ha.balanced, hb.balanced⟩⟩
  rw [intercalate_append ha.ne_nil hb.ne_nil, ← ha.text_eq, ← hb.text_eq]

namespace Argument

/-! ## One piece -/

/-- Whether the text is the name, a colon and the value, with any blanks around the colon. -/
structure Labels (name value text : List Char) : Prop where
  isName : Text.isName name = true
  ne_nil : value ≠ []
  head : ∀ c ∈ value.head?, Text.isBlank c = false
  spelled : ∃ before after, Text.IsGap before ∧ Text.IsGap after ∧
    text = name ++ (before ++ ':' :: (after ++ value))

/-- What a piece says that is not blank. The blanks at its ends do not count. -/
inductive Says (piece : List Char) : Argument → Prop where
  | named {name value : List Char} : Labels name value (Text.strip piece) →
      Says piece { name := some (String.ofList name), value := String.ofList value }
  | positional : (∀ name value, ¬ Labels name value (Text.strip piece)) →
      Says piece { value := String.ofList (Text.strip piece) }

/-- The value behind a colon is stripped if the whole text is. -/
theorem Labels.isStripped {name value text : List Char} (h : Labels name value text)
    (htext : Text.IsStripped text) : Text.IsStripped value := by
  obtain ⟨before, after, -, -, rfl⟩ := h.spelled
  refine ⟨h.head, fun c hc => htext.2 c ?_⟩
  have hlast : (name ++ (before ++ ':' :: after) ++ value).getLast? = value.getLast? :=
    List.getLast?_append_of_ne_nil _ h.ne_nil
  simp only [List.append_assoc, List.cons_append] at hlast
  rwa [hlast]

theorem readNamed_eq_some_iff_labels {text : List Char} (htext : Text.IsStripped text)
    {a : Argument} :
    readNamed text = some a ↔ ∃ name value, Labels name value text ∧
      a = { name := some (String.ofList name), value := String.ofList value } := by
  rw [readNamed_eq_some_iff]
  constructor
  · rintro ⟨name, gap, value, rfl, hname, hgap, hvalue, rfl⟩
    have hend : Text.IsStripped (name ++ (gap ++ [':']) ++ value) := by simpa using htext
    obtain ⟨after, hafter, hsplit⟩ := Text.exists_gap_of_isStripped_append hend
    refine ⟨name, Text.strip value, ⟨hname, fun hnil => hvalue (Text.strip_eq_nil_iff.mp hnil),
      (Text.isStripped_strip value).1, gap, after, hgap, hafter, ?_⟩, rfl⟩
    rw [← hsplit]
  · rintro ⟨name, value, hlabels, rfl⟩
    have hvalue := hlabels.isStripped htext
    obtain ⟨before, after, hbefore, hafter, rfl⟩ := hlabels.spelled
    have hstrip : Text.strip (after ++ value) = value := Text.strip_gap_append hafter hvalue
    refine ⟨name, before, after ++ value, rfl, hlabels.isName, hbefore, fun hgap => ?_, ?_⟩
    · rw [← Text.strip_eq_nil_iff, hstrip] at hgap
      exact hlabels.ne_nil hgap
    · rw [hstrip]

theorem ofPiece_eq_none_iff {piece : List Char} : ofPiece piece = none ↔ Text.IsGap piece := by
  rw [ofPiece_eq, ← Text.strip_eq_nil_iff]
  split <;> simp [*]

/-- **Reading a piece.** -/
theorem ofPiece_eq_some_iff {piece : List Char} {a : Argument} :
    ofPiece piece = some a ↔ ¬ Text.IsGap piece ∧ Says piece a := by
  have hstripped := Text.isStripped_strip piece
  rw [ofPiece_eq, ← Text.strip_eq_nil_iff]
  by_cases hblank : Text.strip piece = []
  · simp [hblank]
  rw [if_neg hblank, Option.some.injEq]
  refine Iff.trans ?_ (and_iff_right hblank).symm
  cases hread : readNamed (Text.strip piece) with
  | some arg =>
    obtain ⟨name, value, hlabels, rfl⟩ := (readNamed_eq_some_iff_labels hstripped).mp hread
    constructor
    · rintro rfl
      exact .named hlabels
    · rintro (hlabels' | hnone)
      · have hread' := (readNamed_eq_some_iff_labels hstripped).mpr ⟨_, _, hlabels', rfl⟩
        exact Option.some.inj (hread.symm.trans hread')
      · exact absurd hlabels (hnone name value)
  | none =>
    have hnone : ∀ name value, ¬ Labels name value (Text.strip piece) := by
      intro name value hlabels
      rw [(readNamed_eq_some_iff_labels hstripped).mpr ⟨name, value, hlabels, rfl⟩] at hread
      simp at hread
    constructor
    · rintro rfl
      exact .positional hnone
    · rintro (hlabels | -)
      · exact absurd hlabels (hnone _ _)
      · rfl

/-! ## All pieces -/

/-- The pieces that say something. -/
def spoken (pieces : List (List Char)) : List (List Char) :=
  pieces.filter fun p => !p.all Text.isBlank

theorem filterMap_ofPiece_eq_iff {pieces : List (List Char)} {args : List Argument} :
    pieces.filterMap ofPiece = args ↔ List.Forall₂ Says (spoken pieces) args := by
  induction pieces generalizing args with
  | nil => simp [spoken, eq_comm]
  | cons p pieces ih =>
    have hgap : p.all Text.isBlank = true ↔ Text.IsGap p := List.all_eq_true
    cases hread : ofPiece p with
    | none =>
      have hblank := hgap.mpr (ofPiece_eq_none_iff.mp hread)
      rw [List.filterMap_cons_none hread, ih, spoken, spoken,
        List.filter_cons_of_neg (by simp [hblank])]
    | some a =>
      obtain ⟨hnot, hsays⟩ := ofPiece_eq_some_iff.mp hread
      have hspoken : p.all Text.isBlank = false := by
        rw [← Bool.not_eq_true, hgap]
        exact hnot
      rw [List.filterMap_cons_some hread, spoken, List.filter_cons_of_pos (by simp [hspoken]),
        ← spoken, List.forall₂_cons_left_iff]
      constructor
      · rintro rfl
        exact ⟨a, _, hsays, ih.mp rfl, rfl⟩
      · rintro ⟨a', args', hsays', hrest, rfl⟩
        have hread' := ofPiece_eq_some_iff.mpr ⟨hnot, hsays'⟩
        rw [ih.mpr hrest, Option.some.inj (hread.symm.trans hread')]

/-- **Reading a list of arguments.** Its pieces say the arguments, in order. -/
theorem parseList_eq_ok_iff {text : List Char} {args : List Argument} :
    parseList text = .ok args ↔
      ∃ pieces, IsCutInto text pieces ∧ List.Forall₂ Says (spoken pieces) args := by
  rw [parseList, map_eq_ok_iff]
  simp only [isCutInto_iff, filterMap_ofPiece_eq_iff]

/-- The texts that are read as lists of arguments are the balanced ones. -/
theorem exists_parseList_iff {text : List Char} :
    (∃ args, parseList text = .ok args) ↔ Balanced true text := by
  rw [← exists_isCutInto_iff]
  constructor
  · rintro ⟨args, h⟩
    obtain ⟨pieces, hcut, -⟩ := parseList_eq_ok_iff.mp h
    exact ⟨pieces, hcut⟩
  · rintro ⟨pieces, hcut⟩
    exact ⟨_, parseList_eq_ok_iff.mpr ⟨pieces, hcut, filterMap_ofPiece_eq_iff.mp rfl⟩⟩

/-- **What is read of a list of arguments.** A text is read exactly if it is balanced, and else the
error is on the line that is being read. A balanced text is cut in one way, and its arguments are
what the pieces say that are not blank, in order. Two lists with a comma between them are read as
the arguments of the one and those of the other. -/
theorem arguments_of_parseList (text : List Char) :
    ((∃ args, parseList text = .ok args) ↔ Balanced true text) ∧
    (¬ Balanced true text → ∀ line, ∃ e,
      SchemaError.located line (parseList text) = .error e ∧ e.line = line) ∧
    (Balanced true text → ∃! pieces, IsCutInto text pieces) ∧
    (∀ args, parseList text = .ok args ↔
      ∃ pieces, IsCutInto text pieces ∧ List.Forall₂ Says (spoken pieces) args) ∧
    ∀ other args args', parseList text = .ok args → parseList other = .ok args' →
      parseList (text ++ ',' :: other) = .ok (args ++ args') := by
  refine ⟨exists_parseList_iff, fun hnot line => ?_, fun hbalanced => ?_,
    fun args => parseList_eq_ok_iff, fun other args args' h h' => ?_⟩
  · cases hread : parseList text with
    | ok args => exact absurd (exists_parseList_iff.mp ⟨args, hread⟩) hnot
    | error cause => exact ⟨⟨cause, line⟩, rfl, rfl⟩
  · obtain ⟨pieces, hcut⟩ := exists_isCutInto_iff.mpr hbalanced
    exact ⟨pieces, hcut, fun pieces' hcut' => hcut'.unique hcut⟩
  · obtain ⟨pieces, hcut, hsays⟩ := parseList_eq_ok_iff.mp h
    obtain ⟨pieces', hcut', hsays'⟩ := parseList_eq_ok_iff.mp h'
    refine parseList_eq_ok_iff.mpr ⟨pieces ++ pieces', hcut.append hcut', ?_⟩
    rw [spoken, List.filter_append]
    exact List.rel_append hsays hsays'

/-- A list with a comma in a literal and one in a group, a blank piece, and a name with a colon and
nothing behind it; and a list that is not balanced. -/
theorem arguments_of_parseList_mixed :
    parseList "map : \"a,\\\"\" , ,[b,c],d:".toList = .ok
      [⟨some "map", "\"a,\\\"\""⟩, ⟨none, "[b,c]"⟩, ⟨none, "d:"⟩] ∧
    ∃ e, SchemaError.located (some 3) (parseList "a,(b".toList) = .error e ∧ e.line = some 3 := by
  have hfirst : parseList "map : \"a,\\\"\" , ".toList = .ok [⟨some "map", "\"a,\\\"\""⟩] := by
    decide
  have hsecond : parseList "[b,c],d:".toList = .ok [⟨none, "[b,c]"⟩, ⟨none, "d:"⟩] := by
    decide
  refine ⟨(arguments_of_parseList _).2.2.2.2 _ _ _ hfirst hsecond, ?_⟩
  refine (arguments_of_parseList "a,(b".toList).2.1 (fun hbalanced => ?_) (some 3)
  obtain ⟨args, hargs⟩ := (arguments_of_parseList _).1.mpr hbalanced
  have hopen : parseList "a,(b".toList = .error (.unclosedGroup .round) := by decide
  rw [hopen] at hargs
  simp at hargs

end Argument
end SchemaDiagram
