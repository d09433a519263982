import SchemaDiagram.Proofs.Scan.Closing
import SchemaDiagram.Proofs.Scan.Splitting

/-!
# Where a reader of attributes stops

Two scans go over the arguments of an attribute. One looks for the bracket that closes the list, the
other one cuts what is in between at its commas. Both follow the balanced texts, and so the second
one accepts whatever the first one has found an end for (`Argument.exists_parseList_stretch`).

A reader of attributes therefore stops for two reasons only (`Attribute.StopsAt`): at a position
that is not blank no attribute starts, or the list of arguments of one that does has no end. The
positions it comes to are given by `Attribute.IsReached`, which does not ask what the arguments are.
Since reading a text is reading what is left of it at each of these positions
(`Attribute.IsReached.exists_parseRun_eq`), the reader fails exactly if one of them is a position at
which it stops.
-/

namespace SchemaDiagram

variable {text : List Char}

/-! ## What is inside of a group -/

/-- **What is inside of a group can be read as a list of arguments.** -/
theorem Argument.exists_parseList_stretch {start stop : Nat} {b : Bracket}
    (h : text[start]? = some b.opener) (hstop : closingPosition text start = .ok stop) :
    ∃ args, parseList (stretch text (start + 1) stop) = .ok args := by
  obtain ⟨inside, after, hdrop, hbalanced, rfl⟩ :=
    (isGroupAt_iff h).mp ((closingPosition_eq_ok_iff h).mp hstop)
  have hinside : stretch text (start + 1) (start + 1 + inside.length) = inside := by
    rw [stretch, Nat.add_sub_cancel_left, hdrop, List.take_left']
    rfl
  rw [hinside]
  exact exists_parseList_iff.mpr hbalanced

namespace Attribute

variable {name : List Char} {pos stop close : Nat}

/-! ## Where an attribute starts -/

/-- Whether the text starts with an `@` and the name of an attribute. -/
def Starts (s : List Char) : Prop :=
  ∃ name rest, s = '@' :: (name ++ rest) ∧ IsAttributeName name

/-- The name of an attribute starts with a name. -/
theorem IsAttributeName.exists_isName {s : List Char} (h : IsAttributeName s) :
    ∃ first rest, s = first ++ rest ∧ Text.isName first = true := by
  rcases h with h | ⟨first, second, rfl, hfirst, -⟩
  · exact ⟨s, [], (List.append_nil s).symm, h⟩
  · exact ⟨first, '.' :: second, rfl, hfirst⟩

/-- A name can be read of every text that starts with one. -/
theorem exists_readName_of_isAttributeName {rest : List Char} (h : IsAttributeName name) :
    ∃ r, readName (name ++ rest) = some r := by
  obtain ⟨first, tail, rfl, hfirst⟩ := h.exists_isName
  obtain ⟨r, hr⟩ : ∃ r, Text.readName (first ++ tail ++ rest) = some r := by
    rw [← Option.ne_none_iff_exists', Ne, Text.readName_eq_none_iff]
    cases first with
    | nil => exact absurd hfirst (by decide)
    | cons c first => simp [(Text.isName_cons.mp hfirst).1]
  unfold readName
  split
  · split
    · exact ⟨_, rfl⟩
    · exact ⟨_, rfl⟩
  · exact ⟨r, hr⟩

/-- **A name is found at a position** exactly if an attribute starts there. -/
theorem exists_nameAt_iff : (∃ r, nameAt text pos = some r) ↔ Starts (text.drop pos) := by
  constructor
  · rintro ⟨⟨name, stop⟩, h⟩
    obtain ⟨hat, hread⟩ := nameAt_eq_some h
    obtain ⟨hdrop, hname, -⟩ := isAttributeName_of_readName hread
    exact ⟨name, text.drop stop, by rw [hat, hdrop], hname⟩
  · rintro ⟨name, rest, hdrop, hname⟩
    have hchar : text[pos]? = some '@' := by
      rw [← List.head?_drop, hdrop]
      rfl
    have hrest : text.drop (pos + 1) = name ++ rest :=
      (List.cons.inj ((drop_eq_cons hchar).symm.trans hdrop)).2
    obtain ⟨r, hr⟩ : ∃ r, readName (name ++ rest) = some r :=
      exists_readName_of_isAttributeName hname
    exact ⟨(r.1, pos + 1 + r.1.length), by rw [nameAt, hchar]; simp only [hrest, hr]; rfl⟩

/-! ## The positions of a reader -/

/-- The positions that a reader of attributes comes to. From the start of the text it goes over
blanks and over attributes, and over the list of arguments of an attribute to its end, whatever the
list says. -/
inductive IsReached (text : List Char) : Nat → Prop where
  | start : IsReached text 0
  | blank {pos : Nat} {c : Char} : IsReached text pos → text[pos]? = some c →
      Text.isBlank c = true → IsReached text (pos + 1)
  | bare {pos stop : Nat} {name : List Char} : IsReached text pos →
      nameAt text pos = some (name, stop) → text[stop]? ≠ some '(' → IsReached text stop
  | listed {pos stop close : Nat} {name : List Char} : IsReached text pos →
      nameAt text pos = some (name, stop) → text[stop]? = some '(' →
      closingPosition text stop = .ok close → IsReached text (close + 1)

/-- Why a reader of attributes stops at a position: what is left of the text there is not blank and
starts with no attribute, or the arguments of the attribute have no end. -/
inductive StopsAt (text : List Char) (pos : Nat) : Cause → Prop where
  | unexpected {c : Char} : text[pos]? = some c → Text.isBlank c = false →
      ¬ Starts (text.drop pos) →
      StopsAt text pos (.unexpectedText (String.ofList (Text.strip (text.drop pos))))
  | unclosed {name : List Char} {stop : Nat} {e : Cause} : nameAt text pos = some (name, stop) →
      text[stop]? = some '(' → closingPosition text stop = .error (.noGroup e) →
      StopsAt text pos e

/-- An attribute starts with no blank. -/
theorem not_isBlank_of_nameAt {r : List Char × Nat} (h : nameAt text pos = some r) :
    ∃ c, text[pos]? = some c ∧ ¬ Text.isBlank c = true := by
  rw [nameAt] at h
  split at h
  · next hchar => exact ⟨'@', hchar, by decide⟩
  · simp at h

/-- What is read where an attribute without arguments stands: the attribute, and what follows. -/
theorem parseRun_drop_of_bare (hname : nameAt text pos = some (name, stop))
    (hparen : text[stop]? ≠ some '(') :
    parseRun (text.drop pos) =
      (parseRun (text.drop stop)).map ({ name := String.ofList name } :: ·) :=
  parseRun_of_read (read_eq_of_not_paren hname hparen)

/-- What is read where an attribute with arguments stands: what is between the brackets is read as
arguments, and never in vain. -/
theorem exists_parseRun_drop_of_listed (hname : nameAt text pos = some (name, stop))
    (hparen : text[stop]? = some '(') (hclose : closingPosition text stop = .ok close) :
    ∃ args, Argument.parseList (stretch text (stop + 1) close) = .ok args ∧
      parseRun (text.drop pos) = (parseRun (text.drop (close + 1))).map
        ({ name := String.ofList name, arguments := args } :: ·) := by
  obtain ⟨args, hargs⟩ := Argument.exists_parseList_stretch (b := .round) hparen hclose
  have hclosing : closingAt text stop = .ok close := by
    rw [closingAt_eq_closingPosition, hclose]
    rfl
  obtain ⟨inside, htake, hinside⟩ := exists_takeGroup_of_closingAt_ok (b := .round) hparen hclosing
  rw [hinside] at hargs
  refine ⟨args, by rw [hinside, hargs], parseRun_of_read ?_⟩
  rw [read_eq_of_paren hname hparen, htake]
  simp only [hargs]
  rfl

/-- **Reading from a position on.** Whatever is read of a text is read in front of a position that
is reached or behind it. -/
theorem IsReached.exists_parseRun_eq (h : IsReached text pos) :
    ∃ as, parseRun text = (parseRun (text.drop pos)).map (as ++ ·) := by
  have hmap : ∀ (as bs : List Attribute) (x : Except Cause (List Attribute)),
      (x.map (bs ++ ·)).map (as ++ ·) = x.map (as ++ bs ++ ·) := by
    intro as bs x
    cases x with
    | error e => rfl
    | ok cs => exact congrArg Except.ok (List.append_assoc as bs cs).symm
  induction h with
  | start => exact ⟨[], by rw [List.drop_zero]; cases parseRun text <;> rfl⟩
  | blank _ hchar hblank ih =>
    obtain ⟨as, has⟩ := ih
    exact ⟨as, by rw [has, parseRun_drop_of_blank hchar hblank]⟩
  | @bare pos stop name _ hname hparen ih =>
    obtain ⟨as, has⟩ := ih
    refine ⟨as ++ [{ name := String.ofList name }], ?_⟩
    rw [has, parseRun_drop_of_bare hname hparen]
    exact hmap as [_] _
  | @listed pos stop close name _ hname hparen hclose ih =>
    obtain ⟨as, has⟩ := ih
    obtain ⟨args, -, hread⟩ := exists_parseRun_drop_of_listed hname hparen hclose
    refine ⟨as ++ [{ name := String.ofList name, arguments := args }], ?_⟩
    rw [has, hread]
    exact hmap as [_] _

/-! ## Stopping -/

/-- Nothing is read from a position on at which the reader stops. -/
theorem StopsAt.parseRun_drop {e : Cause} (h : StopsAt text pos e) :
    parseRun (text.drop pos) = .error e := by
  cases h with
  | @unexpected c hchar hblank hstarts =>
    have hnone : nameAt text pos = none := by
      rw [Option.eq_none_iff_forall_ne_some]
      exact fun r hr => hstarts (exists_nameAt_iff.mp ⟨r, hr⟩)
    have hstrip : Text.strip (text.drop pos) = Text.stripEnd (text.drop pos) := by
      rw [Text.strip, drop_eq_cons hchar]
      congr 1
      exact Text.stripStart_eq_self fun d hd => by
        rw [List.head?_cons, Option.mem_some_iff] at hd
        rwa [← hd]
    rw [parseRun_drop_of_not_blank hchar (by rw [hblank]; decide), nameAt_eq_none hchar hnone,
      hstrip]
  | @unclosed name stop _ hname hparen hclose =>
    obtain ⟨c, hchar, hblank⟩ := not_isBlank_of_nameAt hname
    have hclosing : closingAt text stop = .error (.schema e) := by
      rw [closingAt_eq_closingPosition, hclose]
      rfl
    obtain ⟨cause, htake, hcause⟩ :=
      exists_takeGroup_of_closingAt_error (b := .round) hparen hclosing
    obtain rfl := ScanFault.schema.inj hcause
    rw [parseRun_drop_of_not_blank hchar hblank, read_eq_of_paren hname hparen, htake]

/-- A bracket that has no end has an error of the text, and no other fault. -/
theorem exists_cause_of_closingAt {b : Bracket} {e : ScanFault} (h : text[pos]? = some b.opener)
    (hclose : closingAt text pos = .error e) :
    ∃ cause, e = .schema cause ∧ closingPosition text pos = .error (.noGroup cause) := by
  obtain ⟨cause, htake, rfl⟩ := exists_takeGroup_of_closingAt_error h hclose
  exact ⟨cause, rfl, by rw [closingPosition_of_opener h, htake]⟩

/-- **The reader stops somewhere** if nothing is read from a position on. The reader by position
lists what can happen at a position, and an error of a list of arguments is not among it. -/
theorem exists_stopsAt_of_parseRun_drop {e : Cause} (hreached : IsReached text pos)
    (h : parseRun (text.drop pos) = .error e) :
    ∃ pos', IsReached text pos' ∧ StopsAt text pos' e := by
  have hrun : runFrom text pos = .error (.schema e) := by
    rw [runFrom_eq, h]
    rfl
  clear h
  fun_induction runFrom text pos with
  | case1 pos hend => simp at hrun
  | case2 pos c hchar hblank ih => exact ih (.blank hreached hchar hblank) hrun
  | case3 pos c hchar hblank hname =>
    have hstarts : ¬ Starts (text.drop pos) := by
      intro hstarts
      obtain ⟨r, hr⟩ := exists_nameAt_iff.mpr hstarts
      rw [hname] at hr
      simp at hr
    have hstop := StopsAt.unexpected hchar (Bool.not_eq_true _ ▸ hblank) hstarts
    have hcause := hstop.parseRun_drop
    rw [parseRun_drop_of_not_blank hchar hblank, nameAt_eq_none hchar hname] at hcause
    rw [Except.error.injEq, ScanFault.schema.injEq] at hrun
    rw [← hrun, Except.error.inj hcause]
    exact ⟨pos, hreached, hstop⟩
  | case4 pos c hchar hblank name stop hname hparen fault hclose =>
    obtain ⟨cause, rfl, hnoGroup⟩ := exists_cause_of_closingAt (b := .round) hparen hclose
    obtain rfl := ScanFault.schema.inj (Except.error.inj hrun)
    exact ⟨pos, hreached, .unclosed hname hparen hnoGroup⟩
  | case5 pos c hchar hblank name stop hname hparen close hclose fault hargs =>
    -- what is between two brackets is always a list of arguments
    rw [closingAt_eq_closingPosition, mapError_eq_ok_iff] at hclose
    obtain ⟨args, hlist⟩ := Argument.exists_parseList_stretch (b := .round) hparen hclose
    rw [argumentsOf_eq, hlist] at hargs
    cases hargs
  | case6 pos c hchar hblank name stop hname hparen close hclose args hargs ih =>
    rw [closingAt_eq_closingPosition, mapError_eq_ok_iff] at hclose
    exact ih (.listed hreached hname hparen hclose) (map_eq_error_iff.mp hrun)
  | case7 pos c hchar hblank name stop hname hparen ih =>
    exact ih (.bare hreached hname hparen) (map_eq_error_iff.mp hrun)

/-- **The agreement of the scans.** What stands between a bracket and the one that closes it can be
read as a list of arguments, whatever the text and the bracket are. Hence a reader of attributes
gets the arguments of each list it comes to the end of, and goes on behind it. It fails exactly if
it comes to a position at which no attribute starts, or to a list of arguments without an end. -/
theorem stops_of_parseRun (text : List Char) :
    (∀ start stop b, text[start]? = some (Bracket.opener b) →
      closingPosition text start = .ok stop →
        ∃ args, Argument.parseList (stretch text (start + 1) stop) = .ok args) ∧
    (∀ pos name stop close, IsReached text pos → nameAt text pos = some (name, stop) →
      text[stop]? = some '(' → closingPosition text stop = .ok close →
        ∃ args, Argument.parseList (stretch text (stop + 1) close) = .ok args ∧
          parseRun (text.drop pos) = (parseRun (text.drop (close + 1))).map
            ({ name := String.ofList name, arguments := args } :: ·)) ∧
    ∀ e, parseRun text = .error e ↔ ∃ pos, IsReached text pos ∧ StopsAt text pos e := by
  refine ⟨fun start stop b h hstop => Argument.exists_parseList_stretch h hstop,
    fun pos name stop close _ hname hparen hclose =>
      exists_parseRun_drop_of_listed hname hparen hclose, fun e => ⟨fun h => ?_, ?_⟩⟩
  · rw [← List.drop_zero (l := text)] at h
    exact exists_stopsAt_of_parseRun_drop .start h
  · rintro ⟨pos, hreached, hstops⟩
    obtain ⟨as, has⟩ := hreached.exists_parseRun_eq
    rw [has, hstops.parseRun_drop]
    rfl

/-- A list of arguments with brackets and commas in a literal, and behind it a text that is no
attribute. -/
theorem stops_of_parseRun_unexpected :
    (∃ args, Argument.parseList
      (stretch "@a(\")\\\"\", [b\\])  c@d ".toList 3 14) = .ok args) ∧
    parseRun "@a(\")\\\"\", [b\\])  c@d ".toList = .error (.unexpectedText "c@d") := by
  have hname : nameAt "@a(\")\\\"\", [b\\])  c@d ".toList 0 = some (['a'], 2) := by decide
  have hclose : closingPosition "@a(\")\\\"\", [b\\])  c@d ".toList 2 = .ok 14 := by decide
  have hreached : IsReached "@a(\")\\\"\", [b\\])  c@d ".toList 17 :=
    .blank (c := ' ') (.blank (c := ' ') (.listed .start hname (by decide) hclose) (by decide)
      (by decide)) (by decide) (by decide)
  refine ⟨(stops_of_parseRun _).1 2 14 .round (by decide) hclose, ?_⟩
  refine ((stops_of_parseRun _).2.2 _).mpr ⟨17, hreached, ?_⟩
  have hstarts : ¬ Starts ("@a(\")\\\"\", [b\\])  c@d ".toList.drop 17) := by
    rintro ⟨name, rest, hdrop, -⟩
    exact absurd (Option.some.inj (congrArg List.head? hdrop)) (by decide)
  exact .unexpected (c := 'c') (by decide) (by decide) hstarts

end Attribute
end SchemaDiagram
