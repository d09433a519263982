import SchemaDiagram.Proofs.Scan.Argument
import SchemaDiagram.Schema.Attribute

/-!
# Attributes, read and written

An attribute that is read has a name of the right form and arguments of the right form
(`Attribute.IsRegular`), and the values of its arguments stand in the text it was read from. An
attribute of that form is read back when it is written, whatever blanks stand in front of it, and if
something follows that does not belong to it: a blank is enough (`parseRun_gap_print`).
-/

namespace SchemaDiagram
namespace Attribute

/-! ## The form of an attribute -/

/-- The text is a name, or two names joined by a dot. -/
def IsAttributeName (s : List Char) : Prop :=
  Text.isName s = true ∨
    ∃ first second, s = first ++ '.' :: second ∧ Text.isName first = true ∧
      Text.isName second = true

/-- The form of an attribute that can be read. -/
structure IsRegular (a : Attribute) : Prop where
  name : IsAttributeName a.name.toList
  arguments : ∀ arg ∈ a.arguments, arg.IsRegular

theorem isWord_or_dot_of_mem {s : List Char} (hs : IsAttributeName s) {c : Char} (hc : c ∈ s) :
    Text.isWord c = true ∨ c = '.' := by
  rcases hs with hs | ⟨first, second, rfl, hfirst, hsecond⟩
  · exact Or.inl (Text.isWord_of_mem_isName hs hc)
  · rw [List.mem_append, List.mem_cons] at hc
    rcases hc with hc | rfl | hc
    · exact Or.inl (Text.isWord_of_mem_isName hfirst hc)
    · exact Or.inr rfl
    · exact Or.inl (Text.isWord_of_mem_isName hsecond hc)

theorem isPlain_of_mem {s : List Char} (hs : IsAttributeName s) : ∀ c ∈ s, IsPlain c := by
  intro c hc
  rcases isWord_or_dot_of_mem hs hc with hc | rfl
  · exact isPlain_of_isWord hc
  · exact ⟨rfl, rfl, by decide⟩

/-! ## The name -/

/-- What is read as the name of an attribute is one, and what follows does not go on with a word
character. -/
theorem isAttributeName_of_readName {text name rest : List Char}
    (h : readName text = some (name, rest)) :
    text = name ++ rest ∧ IsAttributeName name ∧ Text.EndsName rest := by
  unfold readName at h
  split at h
  · next first r hread =>
    obtain ⟨rfl, hfirst, hends⟩ := Text.readName_eq_some_iff.mp hread
    split at h
    · next second r' hread' =>
      obtain ⟨rfl, hsecond, hends'⟩ := Text.readName_eq_some_iff.mp hread'
      obtain ⟨rfl, rfl⟩ := Prod.mk.inj (Option.some.inj h)
      exact ⟨by simp, Or.inr ⟨first, second, rfl, hfirst, hsecond⟩, hends'⟩
    · obtain ⟨rfl, rfl⟩ := Prod.mk.inj (Option.some.inj h)
      exact ⟨rfl, Or.inl hfirst, hends⟩
  · obtain ⟨htext, hname, hends⟩ := Text.readName_eq_some_iff.mp h
    exact ⟨htext, Or.inl hname, hends⟩

/-- The name of an attribute is read as far as it goes if neither a word character nor a dot
follows. -/
theorem readName_append {name rest : List Char} (hname : IsAttributeName name)
    (hends : Text.EndsName rest) (hdot : rest.head? ≠ some '.') :
    readName (name ++ rest) = some (name, rest) := by
  rcases hname with hname | ⟨first, second, rfl, hfirst, hsecond⟩
  · rw [readName, Text.readName_eq_some_iff.mpr ⟨rfl, hname, hends⟩]
    split
    · next heq =>
      obtain ⟨rfl, rfl⟩ := Prod.mk.inj (Option.some.inj heq)
      exact absurd rfl hdot
    · rfl
  · have hdots : Text.EndsName ('.' :: (second ++ rest)) := Text.endsName_cons.mpr (by decide)
    rw [List.append_assoc, List.cons_append, readName,
      Text.readName_eq_some_iff.mpr ⟨rfl, hfirst, hdots⟩]
    simp only [Text.readName_eq_some_iff.mpr ⟨rfl, hsecond, hends⟩]

/-! ## Reading one attribute -/

/-- **Reading an attribute.** A part of the text is used up that leaves the scan outside of
literals, and in which the values of the arguments stand. -/
theorem isRegular_of_read {text rest : List Char} {a : Attribute}
    (h : read text = .ok (a, rest)) :
    ∃ used, text = used ++ rest ∧ Balanced true used ∧ a.IsRegular ∧
      ∀ arg ∈ a.arguments, StandsIn arg.value.toList used := by
  unfold read at h
  split at h
  · next afterAt =>
    have hat : IsPlain '@' := ⟨rfl, rfl, by decide⟩
    split at h
    · next name inner hread =>
      obtain ⟨rfl, hname, -⟩ := isAttributeName_of_readName hread
      have hstart : ∀ c ∈ '@' :: name, IsPlain c :=
        List.forall_mem_cons.mpr ⟨hat, isPlain_of_mem hname⟩
      split at h
      · simp at h
      · next inside after hgroup =>
        obtain ⟨rfl, hbal⟩ := takeGroup_eq_ok_iff.mp hgroup
        obtain ⟨args, hargs, heq⟩ := map_eq_ok_iff.mp h
        obtain ⟨rfl, rfl⟩ := Prod.mk.inj heq
        have hlist := Argument.isRegular_of_parseList hargs
        have hused : Balanced true ('@' :: name ++ '(' :: (inside ++ [')'])) :=
          Balanced.append (Balanced.of_plain hstart fun _ => rfl)
            (.group (b := .round) hbal .nil)
        refine ⟨'@' :: name ++ '(' :: (inside ++ [')']), by simp [Bracket.closer], hused, ⟨?_, ?_⟩,
          ?_⟩
        · rwa [String.toList_ofList]
        · exact fun arg harg => (hlist arg harg).1
        · intro arg harg
          have hopen : LiteralState.outside.after ('@' :: name ++ ['(']) = .outside := by
            refine LiteralState.after_outside_of_not_mem fun hquote => ?_
            rcases List.mem_append.mp hquote with hq | hq
            · exact not_isPlain_quote (hstart _ hq)
            · simp at hq
          have := (hlist arg harg).2.append (q := [')']) hopen
          simpa using this
    · next name rest' hnot hread =>
      obtain ⟨rfl, hname, -⟩ := isAttributeName_of_readName hread
      obtain ⟨rfl, rfl⟩ := Prod.mk.inj (Except.ok.inj h)
      have hstart : ∀ c ∈ '@' :: name, IsPlain c :=
        List.forall_mem_cons.mpr ⟨hat, isPlain_of_mem hname⟩
      refine ⟨'@' :: name, rfl, Balanced.of_plain hstart fun _ => rfl, ⟨?_, by simp⟩, by simp⟩
      rwa [String.toList_ofList]
    · simp at h
  · simp at h

/-! ## Reading a run -/

/-- Blanks in front of a run do not count. -/
theorem parseRun_gap_append {gap : List Char} (hgap : Text.IsGap gap) (text : List Char) :
    parseRun (gap ++ text) = parseRun text := by
  rw [parseRun_eq, parseRun_eq, Text.stripStart_gap_append hgap]

/-- A run with an attribute in front. -/
theorem parseRun_of_read {text rest : List Char} {a : Attribute} (h : read text = .ok (a, rest)) :
    parseRun text = (parseRun rest).map (a :: ·) := by
  have hstart : ∃ afterAt, text = '@' :: afterAt := by
    unfold read at h
    split at h
    · exact ⟨_, rfl⟩
    · simp at h
  obtain ⟨afterAt, rfl⟩ := hstart
  have hstrip : Text.stripStart ('@' :: afterAt) = '@' :: afterAt :=
    Text.stripStart_eq_cons_iff.mpr ⟨[], Text.isGap_nil, by decide, rfl⟩
  rw [parseRun_eq, hstrip]
  simp only [h]

/-- **Induction over a run.** A run that is read is a gap, or a gap and an attribute in front of a
run. -/
theorem parseRun_induction {P : List Char → List Attribute → Prop}
    (hnil : ∀ gap, Text.IsGap gap → P gap [])
    (hcons : ∀ gap text a rest as, Text.IsGap gap → read text = .ok (a, rest) → P rest as →
      P (gap ++ text) (a :: as))
    {text : List Char} {as : List Attribute} (h : parseRun text = .ok as) : P text as := by
  induction hn : text.length using Nat.strong_induction_on generalizing text as with
  | _ n ih =>
    obtain ⟨gap, hgap, htext⟩ := Text.exists_gap_of_stripStart text
    rw [parseRun_eq] at h
    split at h
    · next hempty =>
      cases h
      rw [hempty, List.append_nil] at htext
      rw [htext]
      exact hnil gap hgap
    · next c r hstart =>
      split at h
      · simp at h
      · next a rest hread =>
        obtain ⟨as', has', rfl⟩ := map_eq_ok_iff.mp h
        have hlt : rest.length < n := by
          have h1 := length_lt_of_read hread
          have h2 := Text.length_stripStart_le text
          rw [hstart] at h2
          omega
        rw [htext, hstart]
        exact hcons gap (c :: r) a rest as' hgap hread (ih rest.length hlt has' rfl)

/-- **Reading a run of attributes.** Each of them has the form of an attribute, and the values of
its arguments stand in the run. -/
theorem isRegular_of_parseRun {text : List Char} {as : List Attribute}
    (h : parseRun text = .ok as) :
    Balanced true text ∧
      ∀ a ∈ as, a.IsRegular ∧ ∀ arg ∈ a.arguments, StandsIn arg.value.toList text := by
  have hbalanced : ∀ gap, Text.IsGap gap → Balanced true gap := fun gap hgap =>
    Balanced.of_plain (isPlain_of_isGap hgap) fun _ => rfl
  refine parseRun_induction (P := fun text as => Balanced true text ∧ ∀ a ∈ as, a.IsRegular ∧
    ∀ arg ∈ a.arguments, StandsIn arg.value.toList text) ?_ ?_ h
  · intro gap hgap
    exact ⟨hbalanced gap hgap, by simp⟩
  · rintro gap text a rest as hgap hread ⟨hrest, hall⟩
    obtain ⟨used, rfl, hbal, hreg, hin⟩ := isRegular_of_read hread
    have hfront : Balanced true (gap ++ used) := (hbalanced gap hgap).append hbal
    rw [← List.append_assoc]
    refine ⟨hfront.append hrest, List.forall_mem_cons.mpr ⟨⟨hreg, fun arg harg => ?_⟩, ?_⟩⟩
    · have := (hin arg harg).append (q := rest) (hbalanced gap hgap).after_outside
      rwa [List.append_assoc]
    · intro b hb
      refine ⟨(hall b hb).1, fun arg harg => ?_⟩
      have := ((hall b hb).2 arg harg).append (q := []) hfront.after_outside
      rwa [List.append_nil] at this

/-! ## Reading what is written -/

/-- An attribute that stands in front of the text ends there. -/
def EndsAttribute (rest : List Char) : Prop :=
  Text.EndsName rest ∧ rest.head? ≠ some '.' ∧ rest.head? ≠ some '('

theorem endsAttribute_nil : EndsAttribute [] :=
  ⟨Text.endsName_nil, by simp, by simp⟩

theorem endsAttribute_cons {c : Char} (hc : Text.isBlank c = true) (rest : List Char) :
    EndsAttribute (c :: rest) := by
  have hne : ∀ d, Text.isBlank d = false → (c :: rest).head? ≠ some d := by
    rintro d hd h
    rw [List.head?_cons, Option.some.injEq] at h
    rw [h, hd] at hc
    exact Bool.false_ne_true hc
  exact ⟨Text.endsName_cons.mpr (Text.isWord_eq_false_of_isBlank hc), hne '.' (by decide),
    hne '(' (by decide)⟩

/-- The list of arguments as it is written behind the name. -/
def printedArguments (args : List Argument) : List Char :=
  if args = [] then []
  else '(' :: ([','].intercalate (Argument.printedPieces args) ++ [')'])

theorem toList_print (a : Attribute) :
    a.print.toList = '@' :: (a.name.toList ++ printedArguments a.arguments) := by
  rw [print, printedArguments, ← Argument.toList_intercalate_print]
  by_cases h : a.arguments = []
  · simp [h, String.toList_append]
  · simp [h, String.toList_append]

theorem balanced_intercalate {pieces : List (List Char)} (h : ∀ p ∈ pieces, Balanced false p) :
    Balanced true ([','].intercalate pieces) := by
  induction pieces with
  | nil => exact .nil
  | cons p ps ih =>
    obtain ⟨hp, hps⟩ := List.forall_mem_cons.mp h
    cases ps with
    | nil =>
      rw [List.intercalate_singleton]
      exact hp.mono
    | cons q qs =>
      rw [List.intercalate_cons_cons, List.append_assoc]
      exact hp.mono.append (.plain isPlain_comma (fun _ => rfl) (ih hps))

namespace IsRegular

variable {a : Attribute}

/-- **Writing and reading an attribute.** -/
theorem read_print (h : a.IsRegular) {rest : List Char} (hrest : EndsAttribute rest) :
    read (a.print.toList ++ rest) = .ok (a, rest) := by
  obtain ⟨hends, hdot, hparen⟩ := hrest
  rw [toList_print, List.cons_append, List.append_assoc, read, printedArguments]
  by_cases hargs : a.arguments = []
  · rw [if_pos hargs, List.nil_append, readName_append h.name hends hdot]
    split
    · next heq =>
      obtain ⟨-, rfl⟩ := Prod.mk.inj (Option.some.inj heq)
      exact absurd rfl hparen
    · next heq =>
      obtain ⟨rfl, rfl⟩ := Prod.mk.inj (Option.some.inj heq)
      rw [String.ofList_toList, ← hargs]
    · next heq => simp at heq
  · have hopen : Text.EndsName ('(' :: ([','].intercalate
        (Argument.printedPieces a.arguments) ++ [')'] ++ rest)) :=
      Text.endsName_cons.mpr (by decide)
    have hgroup : takeGroup .round ([','].intercalate (Argument.printedPieces a.arguments) ++
        [')'] ++ rest) = .ok ([','].intercalate (Argument.printedPieces a.arguments), rest) := by
      refine takeGroup_eq_ok_iff.mpr ⟨by simp [Bracket.closer], ?_⟩
      exact balanced_intercalate (Argument.balanced_printedPieces h.arguments)
    rw [if_neg hargs, List.cons_append, readName_append h.name hopen (by simp)]
    simp only [hgroup]
    rw [← Argument.toList_intercalate_print, Argument.parseList_print hargs h.arguments,
      String.ofList_toList]
    rfl

/-- An attribute behind a gap is the first one of a run. -/
theorem parseRun_gap_print (h : a.IsRegular) {gap rest : List Char} (hgap : Text.IsGap gap)
    (hrest : EndsAttribute rest) :
    parseRun (gap ++ (a.print.toList ++ rest)) = (parseRun rest).map (a :: ·) := by
  rw [parseRun_gap_append hgap]
  exact parseRun_of_read (h.read_print hrest)

end IsRegular

theorem parseRun_nil : parseRun [] = .ok [] := by
  rw [parseRun_eq]
  rfl

/-- Several attributes as they are written behind a field, each with a blank in front. -/
def printedRun (as : List Attribute) : List Char :=
  as.flatMap fun a => ' ' :: a.print.toList

theorem endsAttribute_printedRun (as : List Attribute) : EndsAttribute (printedRun as) := by
  cases as with
  | nil => exact endsAttribute_nil
  | cons a as =>
    rw [printedRun, List.flatMap_cons, List.cons_append]
    exact endsAttribute_cons (by decide) _

/-- **Writing and reading a run of attributes.** -/
theorem parseRun_printedRun {as : List Attribute} (h : ∀ a ∈ as, a.IsRegular) :
    parseRun (printedRun as) = .ok as := by
  induction as with
  | nil => exact parseRun_nil
  | cons a as ih =>
    obtain ⟨ha, has⟩ := List.forall_mem_cons.mp h
    have hrun := ha.parseRun_gap_print Text.isGap_space (endsAttribute_printedRun as)
    rw [ih has] at hrun
    exact hrun

/-- One attribute that is written alone is read as a run of one. -/
theorem parseRun_print {a : Attribute} (h : a.IsRegular) : parseRun a.print.toList = .ok [a] := by
  have hrun := h.parseRun_gap_print Text.isGap_nil endsAttribute_nil
  rw [parseRun_nil, List.append_nil] at hrun
  exact hrun

end Attribute
end SchemaDiagram
