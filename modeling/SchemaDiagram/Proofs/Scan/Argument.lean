import SchemaDiagram.Proofs.Scan.Nesting
import SchemaDiagram.Schema.Argument
import SchemaDiagram.Schema.Printer

/-!
# Arguments, read and written

`Argument.IsRegular` is the form of every argument that is ever read: its value is not empty, has no
blanks at its ends, is balanced and has no comma outside of groups and literals, and a positional
value cannot be taken for a named one. Arguments of that form, and only those, come back when they
are written and read again (`parseList_print`, `isRegular_of_parseList`).

What is read from a text also says where in the text it stands: `StandsIn` is a stretch that starts
outside of the literals, so that whatever holds of the code of a line because it is one line and
free of comments holds of the values in it.
-/

namespace SchemaDiagram

/-! ## Stretches of a text -/

/-- The first text is a stretch of the second one that starts outside of the literals. -/
def StandsIn (s text : List Char) : Prop :=
  ∃ p q, text = p ++ (s ++ q) ∧ LiteralState.outside.after p = .outside

/-- The text can be part of the code of a line. -/
def FitsOnLine (s : List Char) : Prop :=
  Text.IsOneLine s ∧ CommentFree .outside s

theorem StandsIn.trans {s t text : List Char} (hs : StandsIn s t) (ht : StandsIn t text) :
    StandsIn s text := by
  obtain ⟨p, q, rfl, hp⟩ := hs
  obtain ⟨p', q', rfl, hp'⟩ := ht
  refine ⟨p' ++ p, q ++ q', by simp, ?_⟩
  rw [LiteralState.after_append, hp', hp]

/-- A stretch is found again behind a text that leaves the scan outside of literals. -/
theorem StandsIn.append {s t p q : List Char} (hs : StandsIn s t)
    (hp : LiteralState.outside.after p = .outside) : StandsIn s (p ++ (t ++ q)) :=
  hs.trans ⟨p, q, rfl, hp⟩

theorem StandsIn.fitsOnLine {s text : List Char} (hs : StandsIn s text) (h : FitsOnLine text) :
    FitsOnLine s := by
  obtain ⟨p, q, rfl, hp⟩ := hs
  obtain ⟨hline, hfree⟩ := h
  rw [Text.isOneLine_append, Text.isOneLine_append] at hline
  have := hfree.of_append
  rw [hp] at this
  exact ⟨hline.2.1, this⟩

/-- The code of one line fits on a line. -/
theorem SourceLine.fitsOnLine_code {line : List Char} (h : Text.IsOneLine line) :
    FitsOnLine (ofText line).code :=
  ⟨isOneLine_code h, commentFree_code line⟩

theorem after_outside_of_isGap {a : List Char} (ha : Text.IsGap a) :
    LiteralState.outside.after a = .outside :=
  LiteralState.after_outside_of_not_mem (SourceLine.quote_not_mem_of_isGap ha)

theorem after_outside_of_isName {s : List Char} (hs : Text.isName s = true) :
    LiteralState.outside.after s = .outside := by
  refine LiteralState.after_outside_of_not_mem fun h => ?_
  exact not_isPlain_quote (isPlain_of_isWord (Text.isWord_of_mem_isName hs h))

namespace Argument

/-! ## The form of an argument -/

/-- The text is a name, a colon and a value that is not blank. -/
def LooksNamed (s : List Char) : Prop :=
  ∃ name gap value, s = name ++ (gap ++ ':' :: value) ∧ Text.isName name = true ∧
    Text.IsGap gap ∧ ¬ Text.IsGap value

/-- The form of an argument that can be read. -/
structure IsRegular (a : Argument) : Prop where
  ne_nil : a.value.toList ≠ []
  isStripped : Text.IsStripped a.value.toList
  balanced : Balanced false a.value.toList
  isName : ∀ n ∈ a.name, Text.isName n.toList = true
  positional : a.name = none → ¬ LooksNamed a.value.toList

/-! ## Reading a piece -/

theorem readNamed_eq_some_iff {piece : List Char} {a : Argument} :
    readNamed piece = some a ↔
      ∃ name gap value, piece = name ++ (gap ++ ':' :: value) ∧ Text.isName name = true ∧
        Text.IsGap gap ∧ ¬ Text.IsGap value ∧
        a = { name := some (String.ofList name), value := String.ofList (Text.strip value) } := by
  constructor
  · intro h
    unfold readNamed at h
    split at h
    · simp at h
    · next name rest hname =>
      obtain ⟨rfl, hisName, -⟩ := Text.readName_eq_some_iff.mp hname
      split at h
      · next value hrest =>
        obtain ⟨gap, hgap, -, rfl⟩ := Text.stripStart_eq_cons_iff.mp hrest
        split at h
        · simp at h
        · next hvalue =>
          rw [List.isEmpty_iff, Text.strip_eq_nil_iff] at hvalue
          exact ⟨name, gap, value, rfl, hisName, hgap, hvalue, (Option.some.inj h).symm⟩
      · simp at h
  · rintro ⟨name, gap, value, rfl, hname, hgap, hvalue, rfl⟩
    have hcolon : Text.isBlank ':' = false := by decide
    have hends : Text.EndsName (gap ++ ':' :: value) :=
      Text.endsName_append (Text.endsName_of_isGap hgap) (Text.endsName_cons.mpr (by decide))
    have hstart : Text.stripStart (gap ++ ':' :: value) = ':' :: value :=
      Text.stripStart_eq_cons_iff.mpr ⟨gap, hgap, hcolon, rfl⟩
    have hne : (Text.strip value).isEmpty = false := by
      rw [Bool.eq_false_iff]
      intro hnil
      exact hvalue (Text.strip_eq_nil_iff.mp (List.isEmpty_iff.mp hnil))
    rw [readNamed, Text.readName_eq_some_iff.mpr ⟨rfl, hname, hends⟩]
    simp only [hstart, hne, Bool.false_eq_true, if_false]

theorem readNamed_eq_none_iff {piece : List Char} :
    readNamed piece = none ↔ ¬ LooksNamed piece := by
  constructor
  · rintro h ⟨name, gap, value, hpiece, hname, hgap, hvalue⟩
    have := readNamed_eq_some_iff.mpr ⟨name, gap, value, hpiece, hname, hgap, hvalue, rfl⟩
    rw [h] at this
    simp at this
  · intro h
    cases hread : readNamed piece with
    | none => rfl
    | some a =>
      obtain ⟨name, gap, value, hpiece, hname, hgap, hvalue, -⟩ := readNamed_eq_some_iff.mp hread
      exact absurd ⟨name, gap, value, hpiece, hname, hgap, hvalue⟩ h

/-- A named argument that is read from a balanced text has the form of an argument, and its value
stands in the text. -/
theorem isRegular_of_readNamed {text : List Char} {a : Argument} (hbal : Balanced false text)
    (h : readNamed text = some a) : a.IsRegular ∧ StandsIn a.value.toList text := by
  obtain ⟨name, gap, value, rfl, hname, hgap, hvalue, rfl⟩ := readNamed_eq_some_iff.mp h
  have hplain : ∀ c ∈ name ++ (gap ++ [':']), IsPlain c := by
    intro c hc
    rw [List.mem_append, List.mem_append, List.mem_singleton] at hc
    rcases hc with hc | hc | rfl
    · exact isPlain_of_isWord (Text.isWord_of_mem_isName hname hc)
    · exact isPlain_of_isBlank (hgap c hc)
    · exact ⟨rfl, rfl, by decide⟩
  have hsplit : name ++ (gap ++ ':' :: value) = name ++ (gap ++ [':']) ++ value := by
    simp
  rw [hsplit] at hbal ⊢
  have hvbal : Balanced false value := hbal.of_plain_append hplain
  have hquote : '"' ∉ name ++ (gap ++ [':']) :=
    fun hmem => not_isPlain_quote (hplain _ hmem)
  obtain ⟨p, q, hp, -, hv⟩ := Text.exists_gaps_of_strip value
  have hstands : StandsIn (Text.strip value) value := ⟨p, q, hv, after_outside_of_isGap hp⟩
  refine ⟨⟨?_, ?_, ?_, ?_, fun h => by simp at h⟩, ?_⟩
  · rw [String.toList_ofList]
    exact fun hnil => hvalue (Text.strip_eq_nil_iff.mp hnil)
  · rw [String.toList_ofList]
    exact Text.isStripped_strip value
  · rw [String.toList_ofList]
    exact hvbal.strip
  · intro n hn
    rw [Option.mem_some_iff] at hn
    rw [← hn, String.toList_ofList]
    exact hname
  · rw [String.toList_ofList]
    refine hstands.trans ⟨name ++ (gap ++ [':']), [], by simp, ?_⟩
    exact LiteralState.after_outside_of_not_mem hquote

/-- A balanced text that is not read as a named argument is the value of a positional one. -/
theorem isRegular_of_readNamed_eq_none {text : List Char} (hne : text ≠ [])
    (hs : Text.IsStripped text) (hbal : Balanced false text) (h : readNamed text = none) :
    IsRegular { value := String.ofList text } := by
  refine ⟨?_, ?_, ?_, fun n hn => by simp at hn, fun _ => ?_⟩
  · rwa [String.toList_ofList]
  · rwa [String.toList_ofList]
  · rwa [String.toList_ofList]
  · rw [String.toList_ofList]
    exact readNamed_eq_none_iff.mp h

theorem ofPiece_eq (piece : List Char) :
    ofPiece piece =
      if Text.strip piece = [] then none
      else some ((readNamed (Text.strip piece)).getD
        { value := String.ofList (Text.strip piece) }) := by
  simp only [ofPiece, List.isEmpty_iff]
  split
  · rfl
  · cases readNamed (Text.strip piece) <;> rfl

/-- What is read from a piece has the form of an argument, and its value stands in the piece. -/
theorem isRegular_of_ofPiece {piece : List Char} {a : Argument} (hp : Balanced false piece)
    (h : ofPiece piece = some a) : a.IsRegular ∧ StandsIn a.value.toList piece := by
  obtain ⟨p, q, hgap, -, hpiece⟩ := Text.exists_gaps_of_strip piece
  have hstands : StandsIn (Text.strip piece) piece :=
    ⟨p, q, hpiece, after_outside_of_isGap hgap⟩
  rw [ofPiece_eq] at h
  split at h
  · simp at h
  · next hne =>
    cases hread : readNamed (Text.strip piece) with
    | some arg =>
      rw [hread, Option.getD_some, Option.some.injEq] at h
      obtain ⟨hreg, hin⟩ := isRegular_of_readNamed hp.strip hread
      rw [← h]
      exact ⟨hreg, hin.trans hstands⟩
    | none =>
      rw [hread, Option.getD_none, Option.some.injEq] at h
      have hreg := isRegular_of_readNamed_eq_none hne (Text.isStripped_strip piece) hp.strip hread
      rw [← h]
      refine ⟨hreg, ?_⟩
      rwa [String.toList_ofList]

/-! ## Reading a list -/

theorem standsIn_intercalate {pieces : List (List Char)} {p : List Char}
    (hall : ∀ q ∈ pieces, Balanced false q) (hp : p ∈ pieces) :
    StandsIn p ([','].intercalate pieces) := by
  induction pieces with
  | nil => simp at hp
  | cons q qs ih =>
    obtain ⟨hq, hqs⟩ := List.forall_mem_cons.mp hall
    cases qs with
    | nil =>
      rw [List.mem_singleton] at hp
      exact ⟨[], [], by simp [hp], rfl⟩
    | cons r rs =>
      rcases List.mem_cons.mp hp with rfl | hp
      · exact ⟨[], ',' :: [','].intercalate (r :: rs), by simp, rfl⟩
      · obtain ⟨a, b, htext, ha⟩ := ih hqs hp
        refine ⟨q ++ ',' :: a, b, ?_, ?_⟩
        · rw [List.intercalate_cons_cons, htext]
          simp
        · rw [LiteralState.after_append, hq.after_outside]
          exact ha

/-- **Reading a list of arguments.** Each of them has the form of an argument, and its value stands
in the list. -/
theorem isRegular_of_parseList {text : List Char} {args : List Argument}
    (h : parseList text = .ok args) :
    ∀ a ∈ args, a.IsRegular ∧ StandsIn a.value.toList text := by
  obtain ⟨pieces, hsplit, rfl⟩ := map_eq_ok_iff.mp h
  obtain ⟨-, rfl, hall⟩ := splitAtCommas_eq_ok_iff.mp hsplit
  intro a ha
  obtain ⟨p, hp, hread⟩ := List.mem_filterMap.mp ha
  obtain ⟨hreg, hin⟩ := isRegular_of_ofPiece (hall p hp) hread
  exact ⟨hreg, hin.trans (standsIn_intercalate hall hp)⟩

/-! ## Reading what is written -/

namespace IsRegular

variable {a : Argument}

/-- The name and the colon in front of a value, as they are written. -/
def label (a : Argument) : List Char :=
  match a.name with
  | none => []
  | some n => n.toList ++ [':', ' ']

theorem toList_print (a : Argument) : a.print.toList = label a ++ a.value.toList := by
  rcases a with ⟨_ | n, v⟩
  · rfl
  · simp [print, label, String.toList_append]

theorem isPlain_label (h : a.IsRegular) : ∀ c ∈ label a, IsPlain c := by
  intro c hc
  rcases a with ⟨_ | n, v⟩
  · simp [label] at hc
  · rw [label, List.mem_append] at hc
    rcases hc with hc | hc
    · exact isPlain_of_isWord (Text.isWord_of_mem_isName (h.isName n rfl) hc)
    · simp only [List.mem_cons, List.not_mem_nil, or_false] at hc
      rcases hc with rfl | rfl
      · exact ⟨rfl, rfl, by decide⟩
      · exact ⟨rfl, rfl, by decide⟩

theorem balanced_print (h : a.IsRegular) : Balanced false a.print.toList := by
  rw [toList_print]
  refine Balanced.append (Balanced.of_plain h.isPlain_label fun hcomma => ?_) h.balanced
  rcases a with ⟨_ | n, v⟩
  · simp [label] at hcomma
  · rw [label, List.mem_append] at hcomma
    rcases hcomma with hc | hc
    · exact absurd (Text.isWord_of_mem_isName (h.isName n rfl) hc) (by decide)
    · simp at hc

theorem isStripped_print (h : a.IsRegular) : Text.IsStripped a.print.toList := by
  rw [toList_print]
  have hlast : (label a ++ a.value.toList).getLast? = a.value.toList.getLast? := by
    rw [List.getLast?_append_of_ne_nil _ h.ne_nil]
  refine ⟨?_, by rw [hlast]; exact h.isStripped.2⟩
  rcases a with ⟨_ | n, v⟩
  · exact h.isStripped.1
  · have hn := h.isName n rfl
    rw [label, List.append_assoc]
    exact Text.head?_name_append hn _

/-- What is written for an argument, with or without blanks in front, is read as that argument. -/
theorem ofPiece_print (h : a.IsRegular) {gap : List Char} (hgap : Text.IsGap gap) :
    ofPiece (gap ++ a.print.toList) = some a := by
  have hstrip : Text.strip (gap ++ a.print.toList) = a.print.toList :=
    Text.strip_gap_append hgap h.isStripped_print
  rw [ofPiece_eq, hstrip, if_neg, Option.some.injEq]
  · rcases a with ⟨_ | n, v⟩
    · rw [print, readNamed_eq_none_iff.mpr (h.positional rfl), Option.getD_none,
        String.ofList_toList]
    · have hread : readNamed (print ⟨some n, v⟩).toList = some ⟨some n, v⟩ := by
        have hv : ¬ Text.IsGap (' ' :: v.toList) := by
          intro hblank
          have hstrip : Text.strip v.toList = [] :=
            Text.strip_eq_nil_iff.mpr (Text.isGap_cons.mp hblank).2
          rw [Text.strip_eq_self h.isStripped] at hstrip
          exact h.ne_nil hstrip
        have hsv : Text.strip (' ' :: v.toList) = v.toList :=
          Text.strip_gap_append Text.isGap_space h.isStripped
        refine readNamed_eq_some_iff.mpr
          ⟨n.toList, [], ' ' :: v.toList, ?_, h.isName n rfl, Text.isGap_nil, hv, ?_⟩
        · rw [toList_print]
          simp [label]
        · rw [hsv, String.ofList_toList, String.ofList_toList]
      rw [hread, Option.getD_some]
  · rw [toList_print]
    exact List.append_ne_nil_of_right_ne_nil _ h.ne_nil

end IsRegular

/-- The pieces of a list of arguments as they are written, with a blank behind each comma. -/
def printedPieces : List Argument → List (List Char)
  | [] => []
  | a :: as => a.print.toList :: as.map fun b => ' ' :: b.print.toList

theorem toList_intercalate_print (args : List Argument) :
    (", ".intercalate (args.map print)).toList = [','].intercalate (printedPieces args) := by
  rw [String.toList_intercalate]
  cases args with
  | nil => rfl
  | cons a args =>
    rw [printedPieces, List.map_map, List.map_cons, intercalate_cons_eq, intercalate_cons_eq,
      List.flatMap_map, List.flatMap_map]
    rfl

theorem balanced_printedPieces {args : List Argument} (h : ∀ a ∈ args, a.IsRegular) :
    ∀ p ∈ printedPieces args, Balanced false p := by
  cases args with
  | nil => simp [printedPieces]
  | cons a args =>
    obtain ⟨ha, hargs⟩ := List.forall_mem_cons.mp h
    intro p hp
    rcases List.mem_cons.mp hp with rfl | hp
    · exact ha.balanced_print
    · obtain ⟨b, hb, rfl⟩ := List.mem_map.mp hp
      exact .plain (isPlain_of_isBlank (by decide)) (fun h => absurd h (by decide))
        (hargs b hb).balanced_print

theorem filterMap_ofPiece_printedPieces {args : List Argument} (h : ∀ a ∈ args, a.IsRegular) :
    (printedPieces args).filterMap ofPiece = args := by
  cases args with
  | nil => rfl
  | cons a args =>
    obtain ⟨ha, hargs⟩ := List.forall_mem_cons.mp h
    have hfirst := ha.ofPiece_print Text.isGap_nil
    rw [List.nil_append] at hfirst
    rw [printedPieces, List.filterMap_cons_some hfirst, List.filterMap_map]
    have hrest : ∀ b ∈ args, ofPiece (' ' :: b.print.toList) = some b := by
      intro b hb
      have hread := (hargs b hb).ofPiece_print Text.isGap_space
      rwa [List.singleton_append] at hread
    congr 1
    calc args.filterMap (ofPiece ∘ fun b => ' ' :: b.print.toList) = args.filterMap some :=
          List.filterMap_congr hrest
      _ = args := List.filterMap_some

/-- **Writing and reading a list of arguments.** -/
theorem parseList_print {args : List Argument} (hne : args ≠ []) (h : ∀ a ∈ args, a.IsRegular) :
    parseList (", ".intercalate (args.map print)).toList = .ok args := by
  have hpieces : printedPieces args ≠ [] := by
    cases args with
    | nil => exact absurd rfl hne
    | cons a args => simp [printedPieces]
  have hsplit := splitAtCommas_eq_ok_iff.mpr
    ⟨hpieces, toList_intercalate_print args, balanced_printedPieces h⟩
  rw [parseList, map_eq_ok_iff]
  exact ⟨printedPieces args, hsplit, filterMap_ofPiece_printedPieces h⟩

end Argument
end SchemaDiagram
