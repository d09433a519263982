import SchemaDiagram.Proofs.Invariant
import SchemaDiagram.Proofs.Scan.Brackets
import Mathlib.Data.List.Forall2

/-!
# What the brackets of a text enclose

In a text that is accepted the brackets of the blocks and those inside of them are properly nested,
and every header that the text holds opens a block of its own (`brackets_of_parse`). So a block that
is not closed cannot swallow the blocks below it: their headers would be lines of its body, and no
line of a body is a header, because the first bracket in it is never a curly one.

Blocks of settings are the exception. Their lines are skipped without a look at them, up to the
first closing bracket that stands alone on a line, so brackets in them need not match and a header
in them opens nothing (`swallowed_by_settings`). What is said of a text is therefore said of its
lines outside of such bodies.
-/

namespace SchemaDiagram

/-! ## The lines outside of settings -/

/-- Whether the line of code is the header of a block of settings that is not closed at once. -/
def opensSettings (code : List Char) : Bool :=
  (HeaderLine.read code).any fun h =>
    !h.isClosed && (Keyword.ofWord? h.keyword).any Keyword.isSettings

/-- The lines of code that stand outside of the bodies of settings. The flag says whether the first
line stands in such a body, which ends at a closing bracket that is all of its line. -/
def outsideSettings : Bool → List (List Char) → List (List Char)
  | _, [] => []
  | false, code :: codes => code :: outsideSettings (opensSettings code) codes
  | true, code :: codes =>
    if code = ['}'] then code :: outsideSettings false codes else outsideSettings true codes

/-- The headers among the lines of code that stand outside of the bodies of settings. -/
def headers (codes : List (List Char)) : List HeaderLine :=
  (outsideSettings false codes).filterMap HeaderLine.read

theorem opensSettings_of_read_eq_none {code : List Char} (h : HeaderLine.read code = none) :
    opensSettings code = false := by
  rw [opensSettings, h]
  rfl

theorem opensSettings_of_spells {k : Keyword} {name : String} {isClosed : Bool} {code : List Char}
    (h : HeaderLine.Spells ⟨k.word, name, isClosed⟩ code) :
    opensSettings code = (!isClosed && k.isSettings) := by
  rw [opensSettings, HeaderLine.read_eq_some_iff.mpr h]
  simp

/-- A body without headers stands outside of settings if its first line does. -/
theorem outsideSettings_append {body : List (List Char)}
    (hbody : ∀ code ∈ body, HeaderLine.read code = none) (codes : List (List Char)) :
    outsideSettings false (body ++ codes) = body ++ outsideSettings false codes := by
  induction body with
  | nil => rfl
  | cons code body ih =>
    obtain ⟨hcode, hbody⟩ := List.forall_mem_cons.mp hbody
    rw [List.cons_append, outsideSettings, opensSettings_of_read_eq_none hcode, ih hbody]
    rfl

/-- Of a body of settings only the closing line is left. -/
theorem outsideSettings_settings {body : List (List Char)} (hbody : ['}'] ∉ body)
    (codes : List (List Char)) :
    outsideSettings true (body ++ ['}'] :: codes) = ['}'] :: outsideSettings false codes := by
  induction body with
  | nil => rw [List.nil_append, outsideSettings, if_pos rfl]
  | cons code body ih =>
    rw [List.mem_cons, not_or] at hbody
    rw [List.cons_append, outsideSettings, if_neg (Ne.symm hbody.1), ih hbody.2]

/-! ## The brackets of a header -/

theorem HeaderLine.Spells.brackets {h : HeaderLine} {code : List Char} (hs : h.Spells code) :
    brackets .outside code = '{' :: closing h.isClosed := by
  obtain ⟨-, hletters, hname, gap, before, after, -, hgap, hbefore, hafter, rfl⟩ := hs
  have hkeyword : ∀ c ∈ h.keyword.toList, IsPlain c := fun c hc =>
    isPlain_of_isWord (by simp [Text.isWord, Char.isAlphanum, hletters c hc])
  have hopen : SchemaDiagram.brackets .outside ('{' :: (after ++ closing h.isClosed)) =
      '{' :: SchemaDiagram.brackets .outside (after ++ closing h.isClosed) :=
    brackets_opener .curly _
  rw [brackets_plain_append hkeyword, brackets_plain_append (isPlain_of_isGap hgap),
    brackets_plain_append (isPlain_of_isName hname),
    brackets_plain_append (isPlain_of_isGap hbefore), hopen,
    brackets_plain_append (isPlain_of_isGap hafter)]
  cases h.isClosed <;> rfl

/-! ## The brackets of an entry -/

theorem TypeExpr.Spells.balanced {t : TypeExpr} {type : List Char} (h : t.Spells type) :
    Balanced true type := by
  cases h with
  | named hname => exact Balanced.of_plain (isPlain_of_isName hname) fun _ => rfl
  | @unsupported raw before after hbefore hafter hraw =>
    obtain ⟨word, hword, hisName⟩ := exists_isName_unsupportedOpening
    have hinside : Balanced true (before ++ '"' :: (raw.toList ++ '"' :: after)) :=
      (Balanced.of_plain (isPlain_of_isGap hbefore) fun _ => rfl).append
        (.literal hraw (Balanced.of_plain (isPlain_of_isGap hafter) fun _ => rfl))
    have hgroup := (Balanced.of_plain (isPlain_of_isName hisName) fun _ => rfl).append
      (.group (b := .round) hinside .nil)
    rw [hword]
    simpa [Bracket.opener, Bracket.closer] using hgroup

/-- A type has no curly bracket in front of its first other bracket. -/
theorem TypeExpr.Spells.head?_brackets {t : TypeExpr} {type tail : List Char} (h : t.Spells type)
    (htail : ∀ c ∈ (brackets .outside tail).head?, c ≠ '{') :
    ∀ c ∈ (brackets .outside (type ++ tail)).head?, c ≠ '{' := by
  cases h with
  | named hname =>
    rw [brackets_plain_append (isPlain_of_isName hname)]
    exact htail
  | unsupported _ _ _ =>
    obtain ⟨word, hword, hisName⟩ := exists_isName_unsupportedOpening
    intro c hc
    rw [hword, List.append_assoc, List.append_assoc,
      brackets_plain_append (isPlain_of_isName hisName), List.cons_append,
      show '(' = Bracket.round.opener from rfl, brackets_opener, List.head?_cons,
      Option.mem_some_iff] at hc
    rw [← hc]
    decide

theorem balanced_modifiers (isList isOptional : Bool) :
    Balanced true (modifiers isList isOptional) := by
  have hmark : Balanced true ['?'] := .plain ⟨rfl, rfl, by decide⟩ (fun _ => rfl) .nil
  cases isList with
  | false => cases isOptional with
    | false => exact .nil
    | true => exact hmark
  | true => cases isOptional with
    | false => exact .group (b := .square) .nil .nil
    | true => exact .group (b := .square) .nil hmark

namespace Entry

variable {k : Keyword} {code : List Char} {e : Entry}

/-- **The brackets of an entry** are properly nested, unless it is one of settings. -/
theorem Reads.balanced (h : Entry.Reads k code e) (hk : k.isSettings = false) :
    Balanced true code := by
  cases h with
  | setting hsettings =>
    rw [hk] at hsettings
    exact absurd hsettings Bool.false_ne_true
  | @attributes run as _ hcode has =>
    rw [hcode]
    exact .plain ⟨rfl, rfl, by decide⟩ (fun _ => rfl) (Attribute.isRegular_of_parseRun has).1
  | @value v as _ hv has =>
    obtain ⟨hname, -, rfl⟩ := hv
    exact (Balanced.of_plain (isPlain_of_isName hname) fun _ => rfl).append
      (Attribute.isRegular_of_parseRun has).1
  | @field f as _ hf has =>
    obtain ⟨hname, -, gap, type, -, hgap, htype, rfl⟩ := hf
    refine (Balanced.of_plain (isPlain_of_isName hname) fun _ => rfl).append ?_
    refine (Balanced.of_plain (isPlain_of_isGap hgap) fun _ => rfl).append ?_
    exact htype.balanced.append
      ((balanced_modifiers _ _).append (Attribute.isRegular_of_parseRun has).1)

/-- What follows the name of a type has no curly bracket in front. -/
theorem head?_brackets_modifiers {run : List Char} {as : List Attribute}
    (has : Attribute.parseRun run = .ok as) (isList isOptional : Bool) :
    ∀ c ∈ (brackets .outside (modifiers isList isOptional ++ run)).head?, c ≠ '{' := by
  have hrun : ∀ c ∈ (brackets .outside run).head?, c ≠ '{' := by
    intro c hc
    rw [Attribute.head?_brackets_of_parseRun has c hc]
    decide
  have hmark : ∀ text, brackets .outside ('?' :: text) = brackets .outside text :=
    brackets_plain ⟨rfl, rfl, by decide⟩
  have hsquare : ∀ text, (brackets .outside ('[' :: text)).head? = some '[' := by
    intro text
    rw [show '[' = Bracket.square.opener from rfl, brackets_opener, List.head?_cons]
  cases isList with
  | true =>
    intro c hc
    rw [modifiers, if_pos rfl, List.append_assoc, List.cons_append, hsquare,
      Option.mem_some_iff] at hc
    rw [← hc]
    decide
  | false => cases isOptional with
    | true =>
      intro c hc
      rw [modifiers, if_neg Bool.false_ne_true, if_pos rfl, List.nil_append, List.singleton_append,
        hmark] at hc
      exact hrun c hc
    | false => exact hrun

/-- **The first bracket of an entry** is not a curly one, unless it is one of settings. -/
theorem Reads.head?_brackets (h : Entry.Reads k code e) (hk : k.isSettings = false) :
    ∀ c ∈ (brackets .outside code).head?, c ≠ '{' := by
  cases h with
  | setting hsettings =>
    rw [hk] at hsettings
    exact absurd hsettings Bool.false_ne_true
  | @attributes run as _ hcode has =>
    intro c hc
    rw [hcode, brackets_plain ⟨rfl, rfl, by decide⟩] at hc
    rw [Attribute.head?_brackets_of_parseRun has c hc]
    decide
  | @value v as _ hv has =>
    obtain ⟨hname, -, rfl⟩ := hv
    rw [brackets_plain_append (isPlain_of_isName hname)]
    exact head?_brackets_modifiers has false false
  | @field f as _ hf has =>
    obtain ⟨hname, -, gap, type, -, hgap, htype, rfl⟩ := hf
    rw [brackets_plain_append (isPlain_of_isName hname),
      brackets_plain_append (isPlain_of_isGap hgap)]
    exact htype.head?_brackets (head?_brackets_modifiers has f.isList f.isOptional)

/-- **No entry is a header**, unless it is one of settings. -/
theorem Reads.read_header_eq_none (h : Entry.Reads k code e) (hk : k.isSettings = false) :
    HeaderLine.read code = none := by
  rw [Option.eq_none_iff_forall_ne_some]
  intro header hread
  have hfirst := h.head?_brackets hk
  rw [(HeaderLine.read_eq_some_iff.mp hread).brackets] at hfirst
  exact hfirst '{' rfl rfl

end Entry

/-! ## The brackets of a block -/

theorem Keyword.word_injective {k k' : Keyword} (h : k.word = k'.word) : k = k' := by
  have := congrArg Keyword.ofWord? h
  simpa using this

theorem read_closing_line : HeaderLine.read ['}'] = none := by
  decide

/-- A header, lines with brackets that match, none of which is a header, and a closing line. -/
theorem balanced_brackets_block {h : HeaderLine} {code : List Char} {inside : List (List Char)}
    (hs : h.Spells code) (hopen : h.isClosed = false)
    (hinside : ∀ line ∈ inside, Balanced true (brackets .outside line) ∧
      HeaderLine.read line = none) :
    Balanced true ((code :: (inside ++ [['}']])).flatMap (brackets .outside)) ∧
      (code :: (inside ++ [['}']])).filterMap HeaderLine.read = [h] := by
  have hbody : Balanced true (inside.flatMap (brackets .outside)) := by
    clear hs hopen
    induction inside with
    | nil => exact .nil
    | cons line inside ih =>
      obtain ⟨hline, hinside⟩ := List.forall_mem_cons.mp hinside
      exact hline.1.append (ih hinside)
  have hnone : inside.filterMap HeaderLine.read = [] :=
    List.filterMap_eq_nil_iff.mpr fun line hline => (hinside line hline).2
  have hclosing : brackets .outside ['}'] = ['}'] := rfl
  constructor
  · rw [List.flatMap_cons, List.flatMap_append, List.flatMap_singleton, hs.brackets, hopen,
      hclosing]
    exact .group (b := .curly) hbody .nil
  · rw [List.filterMap_cons, HeaderLine.read_eq_some_iff.mpr hs, List.filterMap_append, hnone,
      List.filterMap_cons, read_closing_line]
    rfl

/-- **The lines of a block** that stand outside of settings: their brackets match, and the only
header among them is that of the block. -/
theorem WrittenBlock.Spells.outsideSettings {w : WrittenBlock} {part : List (List Char)}
    (h : w.Spells part) :
    ∃ kept isClosed, (∀ codes, SchemaDiagram.outsideSettings false (part ++ codes) =
        kept ++ SchemaDiagram.outsideSettings false codes) ∧
      Balanced true (kept.flatMap (brackets .outside)) ∧
      kept.filterMap HeaderLine.read = [⟨w.keyword.word, w.name, isClosed⟩] := by
  cases h with
  | @empty k name code hspells =>
    refine ⟨[code], true, fun codes => ?_, ?_, ?_⟩
    · rw [List.singleton_append, SchemaDiagram.outsideSettings, opensSettings_of_spells hspells]
      rfl
    · rw [List.flatMap_singleton, hspells.brackets]
      exact .group (b := .curly) .nil .nil
    · rw [List.filterMap_cons, HeaderLine.read_eq_some_iff.mpr hspells]
      rfl
  | @block k name code body entries hspells hbody hreads =>
    cases hk : k.isSettings with
    | true =>
      refine ⟨code :: ([] ++ [['}']]), false, fun codes => ?_,
        balanced_brackets_block hspells rfl (by simp)⟩
      rw [List.cons_append, List.append_assoc, List.singleton_append,
        SchemaDiagram.outsideSettings, opensSettings_of_spells hspells, hk]
      exact congrArg (code :: ·) (outsideSettings_settings hbody codes)
    | false =>
      have hlines : ∀ line ∈ body, Balanced true (brackets .outside line) ∧
          HeaderLine.read line = none :=
        ((List.forall₂_and_left _ _).mp (hreads.imp fun _ _ he =>
          ⟨⟨(he.balanced hk).brackets, he.read_header_eq_none hk⟩, he⟩)).1
      have hnone : ∀ line ∈ body ++ [['}']], HeaderLine.read line = none := by
        rw [List.forall_mem_append, List.forall_mem_singleton]
        exact ⟨fun line hline => (hlines line hline).2, read_closing_line⟩
      refine ⟨code :: (body ++ [['}']]), false, fun codes => ?_,
        balanced_brackets_block hspells rfl hlines⟩
      rw [List.cons_append, SchemaDiagram.outsideSettings, opensSettings_of_spells hspells, hk]
      exact congrArg (code :: ·) (outsideSettings_append hnone codes)

/-! ## The brackets of a text -/

/-- **The brackets of blocks** match outside of settings, and the headers there are those of the
blocks, one for one. -/
theorem Spelled.outsideSettings {ws : List WrittenBlock} {codes : List (List Char)}
    (h : Spelled ws codes) :
    Balanced true ((SchemaDiagram.outsideSettings false codes).flatMap (brackets .outside)) ∧
      (headers codes).map (fun header => (header.keyword, header.name)) =
        ws.map fun w => (w.keyword.word, w.name) := by
  obtain ⟨parts, hparts, rfl⟩ := h
  rw [headers]
  induction hparts with
  | nil => exact ⟨.nil, rfl⟩
  | @cons w part ws parts hw _ ih =>
    obtain ⟨kept, isClosed, hkept, hbalanced, hheader⟩ := hw.outsideSettings
    rw [List.flatten_cons, hkept, List.flatMap_append, List.filterMap_append, hheader]
    exact ⟨hbalanced.append ih.1, congrArg ((w.keyword.word, w.name) :: ·) ih.2⟩

/-- The headers of one keyword are those of its blocks. -/
theorem map_name_filter_headers {ws : List WrittenBlock} {bs : List Block} {hs : List HeaderLine}
    (h : hs.map (fun header => (header.keyword, header.name)) =
      ws.map fun w => (w.keyword.word, w.name))
    (hbare : bs.map Block.bare = ws.map WrittenBlock.block) (k : Keyword) :
    (bs.filter fun b => b.keyword = k).map Block.name =
      (hs.filter fun header => header.keyword = k.word).map HeaderLine.name := by
  have hblocks : bs.map (fun b => (b.keyword.word, b.name)) =
      ws.map fun w => (w.keyword.word, w.name) := by
    have := congrArg (List.map fun b : Block => (b.keyword.word, b.name)) hbare
    rwa [List.map_map, List.map_map] at this
  have hword : (bs.filter fun b => b.keyword = k) =
      bs.filter fun b => b.keyword.word = k.word :=
    List.filter_congr fun b _ => by
      rw [decide_eq_decide]
      exact ⟨congrArg Keyword.word, Keyword.word_injective⟩
  have hselect := congrArg
    (fun pairs : List (String × String) => (pairs.filter fun p => p.1 = k.word).map Prod.snd)
    (hblocks.trans h.symm)
  simp only [List.filter_map, List.map_map] at hselect
  rw [hword]
  exact hselect

namespace Schema

/-- **The brackets of an accepted text** match and are properly nested, outside of literals, of
comments and of the bodies of settings, and the headers that stand there open a block each: in the
order of the text the models, enums and composite types are those that have a header. -/
theorem brackets_of_parse {text : String} {s : Schema} (h : parse text = .ok s) :
    Balanced true ((outsideSettings false (codeOf text)).flatMap (brackets .outside)) ∧
      (∃ ws, Spelled ws (codeOf text) ∧
        (headers (codeOf text)).map (fun header => (header.keyword, header.name)) =
          ws.map fun w => (w.keyword.word, w.name)) ∧
      s.models.map Model.name =
        ((headers (codeOf text)).filter fun header => header.keyword = "model").map
          HeaderLine.name ∧
      s.enums.map Enum.name =
        ((headers (codeOf text)).filter fun header => header.keyword = "enum").map
          HeaderLine.name ∧
      s.compositeTypes.map CompositeType.name =
        ((headers (codeOf text)).filter fun header => header.keyword = "type").map
          HeaderLine.name := by
  obtain ⟨bs, hbs, -, rfl⟩ := parse_eq_ok_iff.mp h
  obtain ⟨ws, hspelled, hbare⟩ := Block.ofLines_spelled hbs
  obtain ⟨hbalanced, hheaders⟩ := hspelled.outsideSettings
  refine ⟨hbalanced, ⟨ws, hspelled, hheaders⟩, ?_, ?_, ?_⟩
  · rw [map_models_assemble]
    exact map_name_filter_headers hheaders hbare .model
  · rw [map_enums_assemble]
    exact map_name_filter_headers hheaders hbare .enum
  · rw [map_compositeTypes_assemble]
    exact map_name_filter_headers hheaders hbare .type

/-- A text with a bracket in its settings that is never closed. -/
theorem brackets_of_parse_settings :
    ∃ s, parse "datasource d \x7b\n  u = env(\n\x7d\nmodel A \x7b\n  a Int @x([1])\n\x7d" = .ok s ∧
      s.models.map Model.name = ["A"] ∧
        Balanced true ((outsideSettings false (codeOf
          "datasource d \x7b\n  u = env(\n\x7d\nmodel A \x7b\n  a Int @x([1])\n\x7d")).flatMap
            (brackets .outside)) := by
  have h : parse "datasource d \x7b\n  u = env(\n\x7d\nmodel A \x7b\n  a Int @x([1])\n\x7d" = .ok
      { models := [{
          name := "A"
          fields := [{
            name := "a"
            type := { name := "Int", kind := .scalar }
            attributes := [{ name := "x", arguments := [{ value := "[1]" }] }] }] }] } := by
    with_unfolding_all rfl
  exact ⟨_, h, rfl, (brackets_of_parse h).1⟩

/-- A block of settings that is not closed ends where the block below it does, and swallows it. -/
theorem swallowed_by_settings :
    parse "datasource d \x7b\nmodel A \x7b\n\x7d" = .ok {} ∧
      ¬ Balanced true ((codeOf "datasource d \x7b\nmodel A \x7b\n\x7d").flatMap
        (brackets .outside)) := by
  constructor
  · with_unfolding_all rfl
  · intro hbalanced
    have hbrackets : (codeOf "datasource d \x7b\nmodel A \x7b\n\x7d").flatMap (brackets .outside) =
        ['{', '{', '}'] := by
      with_unfolding_all rfl
    rw [hbrackets] at hbalanced
    obtain ⟨pieces, hpieces⟩ := exists_splitAtCommas hbalanced
    have hopen : splitAtCommas ['{', '{', '}'] = .error (.unclosedGroup .curly) := by decide
    rw [hopen] at hpieces
    simp at hpieces

end Schema
end SchemaDiagram
