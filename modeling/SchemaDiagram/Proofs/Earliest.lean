import SchemaDiagram.Proofs.Block.Place
import SchemaDiagram.Proofs.Concatenation

/-!
# Which error is reported

A text can have many errors, and one is reported. The first pass stops on the first line that it
cannot read, which is decided by this line and the lines above it (`FailsOn.congr`), so nothing that
is written further down changes that error. A block that is still open where the text ends is
reported only if every line could be read. The second pass reports a name that is declared again
before any type that is not declared, and of either kind the topmost, because blocks and fields
are looked at in the order in which they stand.
-/

namespace SchemaDiagram

/-! ## The first pass -/

/-- Whether all lines above the line of the given number can be read, and that line cannot. -/
def FailsOn (texts : List (List Char)) (n : Nat) (cause : Cause) : Prop :=
  ∃ r text, BlockReader.run {} 1 (texts.take (n - 1)) = .ok r ∧ IsLine texts n text ∧
    r.step n text = .error cause

/-- Whether all lines can be read, and the block is open where they end. -/
def StaysOpen (texts : List (List Char)) (b : Block) : Prop :=
  ∃ r, BlockReader.run {} 1 texts = .ok r ∧ r.current = some b

/-- The lines below the failing one have no say in the failure. -/
theorem FailsOn.congr {texts texts' : List (List Char)} {n : Nat} {cause : Cause}
    (h : FailsOn texts n cause) (hsame : texts'.take n = texts.take n) :
    FailsOn texts' n cause := by
  obtain ⟨r, text, hrun, ⟨hn, hget⟩, hstep⟩ := h
  have hbelow : n - 1 < n := by omega
  refine ⟨r, text, ?_, ⟨hn, ?_⟩, hstep⟩
  · have htake := congrArg (List.take (n - 1)) hsame
    rw [List.take_take, List.take_take, Nat.min_eq_left hbelow.le] at htake
    rwa [htake]
  · rw [← List.getElem?_take_of_lt hbelow, hsame, List.getElem?_take_of_lt hbelow]
    exact hget

namespace BlockReader

theorem run_eq_error_iff {texts : List (List Char)} {e : SchemaError} :
    run {} 1 texts = .error e ↔ ∃ n cause, FailsOn texts n cause ∧ e = .atLine n cause := by
  constructor
  · intro h
    obtain ⟨before, text, after, m, cause, rfl, hrun, hstep, rfl⟩ := exists_step_of_run h
    refine ⟨1 + before.length, cause, ⟨m, text, ?_, ?_, hstep⟩, rfl⟩
    · rw [Nat.add_sub_cancel_left, List.take_left]
      exact hrun
    · rw [Nat.add_comm]
      exact isLine_append_cons before text after
  · rintro ⟨n, cause, ⟨r, text, hrun, ⟨hn, hget⟩, hstep⟩, rfl⟩
    obtain ⟨hlt, hline⟩ := List.getElem?_eq_some_iff.mp hget
    have hsplit : texts = texts.take (n - 1) ++ text :: texts.drop n := by
      have hdrop := List.drop_eq_getElem_cons hlt
      rw [hline, Nat.sub_add_cancel hn] at hdrop
      rw [← hdrop, List.take_append_drop]
    have hnumber : 1 + (texts.take (n - 1)).length = n := by
      rw [List.length_take, Nat.min_eq_left hlt.le]
      omega
    rw [hsplit, run_append, hrun]
    simp only [hnumber, run, hstep]

end BlockReader

/-- **Errors of the first pass.** A line cannot be read, or a block stays open. -/
theorem Block.ofLines_eq_error_iff {texts : List (List Char)} {e : SchemaError} :
    ofLines texts = .error e ↔
      (∃ n cause, FailsOn texts n cause ∧ e = .atLine n cause) ∨
        ∃ b, StaysOpen texts b ∧ e = .atLine b.line (.neverClosed b.keyword b.name) := by
  rw [← BlockReader.run_eq_error_iff, ofLines]
  simp only [StaysOpen]
  cases hrun : BlockReader.run {} 1 texts with
  | error e' => simp
  | ok r => cases hcurrent : r.current <;> simp [BlockReader.finish, hcurrent, eq_comm]

/-- A block that stays open has its header in the text. -/
theorem StaysOpen.isHeadedIn {texts : List (List Char)} {b : Block}
    (hone : ∀ t ∈ texts, Text.IsOneLine t) (h : StaysOpen texts b) : b.IsHeadedIn texts := by
  obtain ⟨r, hrun, hcurrent⟩ := h
  exact (BlockReader.forall_of_run (Block.holdsWhenOpened_isHeadedIn texts)
    (Block.keptByEntries_isHeadedIn texts) hone hrun).2 b hcurrent

/-! ## Names that are declared again -/

/-- Whether the block declares a name that is built in or that one of the given blocks declares. -/
def Block.Repeats (before : List Block) (b : Block) : Prop :=
  b.keyword.isSettings = false ∧ (isScalarName b.name = true ∨
    ∃ b' ∈ before, b'.keyword.isSettings = false ∧ b'.name = b.name)

/-- Whether the block is one of the given ones and repeats a name of those above it. -/
def IsRepeated (bs : List Block) (b : Block) : Prop :=
  ∃ before after, bs = before ++ b :: after ∧ b.Repeats before

theorem IsRepeated.mem {bs : List Block} {b : Block} (h : IsRepeated bs b) : b ∈ bs := by
  obtain ⟨before, after, rfl, -⟩ := h
  exact List.mem_append_cons_self

namespace Names

/-- Names that can all be entered are not repeated. -/
theorem not_isRepeated_of_enterAll {bs : List Block} {names : Names}
    (h : enterAll [] bs = .ok names) (b : Block) : ¬ IsRepeated bs b := by
  obtain ⟨-, hnodup, hall⟩ := enterAll_eq_ok_iff.mp h
  rintro ⟨before, after, rfl, hsettings, hscalar | ⟨b', hb', hsettings', hname⟩⟩
  · have hmem : b.name ∈ (declared (before ++ b :: after)).map Prod.fst :=
      mem_map_fst_declared_iff.mpr ⟨b, List.mem_append_cons_self, hsettings, rfl⟩
    rw [(hall _ hmem).2] at hscalar
    exact Bool.false_ne_true hscalar
  · rw [declared_append, List.map_append, List.nodup_append] at hnodup
    exact hnodup.2.2 b.name (mem_map_fst_declared_iff.mpr ⟨b', hb', hsettings', hname⟩)
      b.name (mem_map_fst_declared_iff.mpr ⟨b, List.mem_cons_self .., hsettings, rfl⟩) rfl

/-- **The topmost name that is declared again** is the one that is reported. -/
theorem exists_isRepeated_of_enterAll {bs : List Block} {e : SchemaError}
    (hsorted : bs.Pairwise fun b b' => b.line < b'.line) (h : enterAll [] bs = .error e) :
    ∃ b, IsRepeated bs b ∧ (∀ b', IsRepeated bs b' → b.line ≤ b'.line) ∧
      e = .atLine b.line (.duplicateName b.name) := by
  obtain ⟨before, b, after, entered, rfl, hbefore, hfails⟩ := exists_enter_of_enterAll h
  obtain ⟨rfl, hsettings, htaken⟩ := enter_eq_error hfails
  have hentered : entered = declared before := (enterAll_eq_ok_iff.mp hbefore).1
  rw [hentered, mem_map_fst_declared_iff] at htaken
  refine ⟨b, ⟨before, after, rfl, hsettings, htaken⟩, fun b' hb' => ?_, rfl⟩
  obtain ⟨before', after', heq, hrepeats⟩ := hb'
  -- where the block of `hb'` stands: further down, at this very place, or above
  rcases List.append_eq_append_iff.mp heq with ⟨between, -, hafter⟩ | ⟨between, rfl, -⟩
  · have hmem : b' ∈ b :: after := by
      rw [hafter]
      exact List.mem_append_cons_self
    rcases List.mem_cons.mp hmem with rfl | hmem
    · exact le_refl _
    · exact ((List.pairwise_cons.mp (List.pairwise_append.mp hsorted).2.1).1 b' hmem).le
  · cases between with
    | nil =>
      rw [List.append_nil] at heq
      obtain ⟨rfl, -⟩ := List.cons.inj (List.append_cancel_left heq)
      exact le_refl _
    | cons c between =>
      rw [List.append_assoc] at heq
      obtain ⟨rfl, -⟩ := List.cons.inj (List.append_cancel_left heq)
      exact absurd ⟨before', between, rfl, hrepeats⟩ (not_isRepeated_of_enterAll hbefore _)

end Names

/-! ## Types that are not declared -/

/-- Whether the field belongs to one of the blocks and has a type that is neither built in nor
declared by any of them. -/
def IsUndeclared (bs : List Block) (f : FieldDecl) : Prop :=
  (∃ b ∈ bs, b.keyword.HasFields ∧ f ∈ b.fields) ∧
    ∃ n, f.type = .named n ∧ isScalarName n = false ∧
      ∀ b ∈ bs, b.keyword.isSettings = false → b.name ≠ n

/-- A type is unknown if it is neither built in nor declared. -/
theorem FieldDecl.isUnknown_iff {bs : List Block} {f : FieldDecl} :
    f.isUnknown (declared bs) = true ↔
      ∃ n, f.type = .named n ∧ isScalarName n = false ∧
        ∀ b ∈ bs, b.keyword.isSettings = false → b.name ≠ n := by
  rw [isUnknown, ← Option.not_isSome, Bool.not_eq_true', ← Bool.not_eq_true,
    Names.isSome_kindOf_iff]
  simp only [mem_map_fst_declared_iff]
  cases f.type with
  | unsupported raw => simp
  | named n => simp

/-- In a list that ascends the first element that is found is the smallest one. -/
theorem le_of_find?_eq_some {α : Type} {g : α → Nat} {p : α → Bool} {as : List α} {a : α}
    (hsorted : as.Pairwise fun a b => g a < g b) (h : as.find? p = some a) :
    ∀ b ∈ as, p b = true → g a ≤ g b := by
  obtain ⟨-, before, after, rfl, hbefore⟩ := List.find?_eq_some_iff_append.mp h
  intro b hb hp
  rcases List.mem_append.mp hb with hb | hb
  · simpa [hp] using hbefore b hb
  · rcases List.mem_cons.mp hb with rfl | hb
    · exact le_refl _
    · exact ((List.pairwise_cons.mp (List.pairwise_append.mp hsorted).2.1).1 b hb).le

namespace Schema

/-- The fields whose types are looked up are those of the blocks that have fields. -/
theorem mem_flatMap_typedFields_iff {bs : List Block} {f : FieldDecl} :
    f ∈ bs.flatMap Block.typedFields ↔ ∃ b ∈ bs, b.keyword.HasFields ∧ f ∈ b.fields := by
  have htyped : ∀ b : Block, f ∈ b.typedFields ↔ b.keyword.HasFields ∧ f ∈ b.fields := by
    intro b
    rw [Block.typedFields, Keyword.HasFields]
    cases b.keyword <;> simp
  simp only [List.mem_flatMap, htyped]

/-- **The topmost field of a type that is not declared** is the one that is reported. -/
theorem exists_isUndeclared_of_ofBlocksIn {bs : List Block} {e : SchemaError}
    (hsorted : (bs.flatMap Block.typedFields).Pairwise fun f f' => f.line < f'.line)
    (h : ofBlocksIn (declared bs) bs = .error e) :
    ∃ f, IsUndeclared bs f ∧ (∀ f', IsUndeclared bs f' → f.line ≤ f'.line) ∧
      e = f.undeclaredError := by
  obtain ⟨f, hfind, rfl⟩ := find?_of_ofBlocksIn h
  have hmem := mem_flatMap_typedFields_iff.mp (List.mem_of_find?_eq_some hfind)
  refine ⟨f, ⟨hmem, FieldDecl.isUnknown_iff.mp (List.find?_some hfind)⟩, ?_, rfl⟩
  rintro f' ⟨hmem', hunknown⟩
  exact le_of_find?_eq_some hsorted hfind f' (mem_flatMap_typedFields_iff.mpr hmem')
    (FieldDecl.isUnknown_iff.mpr hunknown)

/-! ## The reported error -/

theorem parse_eq_error_of_blocksOf {text : String} {e : SchemaError}
    (h : blocksOf text = .error e) : parse text = .error e := by
  rw [parse, parseChars]
  rw [blocksOf] at h
  rw [h]

theorem parse_of_failsOn {text : String} {n : Nat} {cause : Cause}
    (h : FailsOn (linesOf text) n cause) : parse text = .error (.atLine n cause) :=
  parse_eq_error_of_blocksOf (Block.ofLines_eq_error_iff.mpr (Or.inl ⟨n, cause, h, rfl⟩))

theorem parse_of_staysOpen {text : String} {b : Block} (h : StaysOpen (linesOf text) b) :
    parse text = .error (.atLine b.line (.neverClosed b.keyword b.name)) :=
  parse_eq_error_of_blocksOf (Block.ofLines_eq_error_iff.mpr (Or.inr ⟨b, h, rfl⟩))

/-- The first pass ends with blocks exactly if it neither fails nor leaves a block open. -/
theorem exists_blocksOf_iff {text : String} :
    (∃ bs, blocksOf text = .ok bs) ↔
      (∀ n cause, ¬ FailsOn (linesOf text) n cause) ∧ ∀ b, ¬ StaysOpen (linesOf text) b := by
  constructor
  · rintro ⟨bs, hbs⟩
    have hnone : ∀ e, blocksOf text ≠ .error e := by simp [hbs]
    exact ⟨fun n cause h => hnone _ (Block.ofLines_eq_error_iff.mpr (Or.inl ⟨n, cause, h, rfl⟩)),
      fun b h => hnone _ (Block.ofLines_eq_error_iff.mpr (Or.inr ⟨b, h, rfl⟩))⟩
  · rintro ⟨hreads, hcloses⟩
    cases hbs : blocksOf text with
    | ok bs => exact ⟨bs, rfl⟩
    | error e =>
      rcases Block.ofLines_eq_error_iff.mp hbs with ⟨n, cause, h, -⟩ | ⟨b, h, -⟩
      · exact absurd h (hreads n cause)
      · exact absurd h (hcloses b)

/-- **The earliest error of its class is reported.** If a line cannot be read, the error is that of
the first such line, and every text with the same lines up to there has this error too. Otherwise it
is that of the block that stays open; otherwise that of the topmost block that declares a name
again; and otherwise that of the topmost field whose type is not declared. -/
theorem earliest_of_parse {text : String} {e : SchemaError} (h : parse text = .error e) :
    (∀ n cause, FailsOn (linesOf text) n cause →
      e = .atLine n cause ∧
        ∀ text', (linesOf text').take n = (linesOf text).take n → parse text' = .error e) ∧
    ((∀ n cause, ¬ FailsOn (linesOf text) n cause) →
      (∀ b, StaysOpen (linesOf text) b →
        b.IsHeadedIn (linesOf text) ∧ e = .atLine b.line (.neverClosed b.keyword b.name)) ∧
      ((∀ b, ¬ StaysOpen (linesOf text) b) →
        ∃ bs, blocksOf text = .ok bs ∧
          ((∃ b, IsRepeated bs b) →
            ∃ b, IsRepeated bs b ∧ (∀ b', IsRepeated bs b' → b.line ≤ b'.line) ∧
              b.IsHeadedIn (linesOf text) ∧ e = .atLine b.line (.duplicateName b.name)) ∧
          ((∀ b, ¬ IsRepeated bs b) →
            ∃ f, IsUndeclared bs f ∧ (∀ f', IsUndeclared bs f' → f.line ≤ f'.line) ∧
              f.IsWrittenIn (linesOf text) ∧
              e = .atLine f.line (.undefinedType f.type.name f.name)))) := by
  have hone := Text.isOneLine_of_mem_lines (Text.dropMark text.toList)
  refine ⟨fun n cause hfails => ?_, fun hreads => ⟨fun b hopen => ?_, fun hcloses => ?_⟩⟩
  · obtain rfl := Except.error.inj (h.symm.trans (parse_of_failsOn hfails))
    exact ⟨rfl, fun text' hsame => parse_of_failsOn (hfails.congr hsame)⟩
  · exact ⟨hopen.isHeadedIn hone, Except.error.inj (h.symm.trans (parse_of_staysOpen hopen))⟩
  obtain ⟨bs, hbs⟩ := exists_blocksOf_iff.mpr ⟨hreads, hcloses⟩
  have hsecond : ofBlocks bs = .error e := (parse_eq_ofBlocks hbs).symm.trans h
  rw [ofBlocks] at hsecond
  refine ⟨bs, hbs, ?_⟩
  cases hnames : Names.enterAll [] bs with
  | error e' =>
    rw [hnames] at hsecond
    obtain rfl := Except.error.inj hsecond
    obtain ⟨b, hrepeated, hleast, heq⟩ :=
      Names.exists_isRepeated_of_enterAll (Block.pairwise_line_of_ofLines hbs) hnames
    have hheaded := Block.isHeadedIn_of_ofLines hone hbs b hrepeated.mem
    exact ⟨fun _ => ⟨b, hrepeated, hleast, hheaded, heq⟩,
      fun hnone => absurd hrepeated (hnone b)⟩
  | ok names =>
    rw [hnames] at hsecond
    obtain rfl : names = declared bs := (Names.enterAll_eq_ok_iff.mp hnames).1
    have htyped : bs.flatMap Block.typedFields = bs.flatMap Block.fields :=
      List.flatMap_congr (Block.typedFields_of_ofLines hone hbs)
    have hsorted := Block.pairwise_fields_of_ofLines hbs
    rw [← htyped] at hsorted
    obtain ⟨f, hundeclared, hleast, heq⟩ := exists_isUndeclared_of_ofBlocksIn hsorted hsecond
    obtain ⟨b, hb, -, hf⟩ := hundeclared.1
    refine ⟨?_, fun _ =>
      ⟨f, hundeclared, hleast, FieldDecl.isWrittenIn_of_ofLines hone hbs b hb f hf, heq⟩⟩
    rintro ⟨b, hb⟩
    exact absurd hb (Names.not_isRepeated_of_enterAll hnames b)

/-- A line that cannot be read, with other errors below it that change nothing; and a name that is
declared again, which is reported although a type above it is not declared. -/
theorem earliest_of_parse_model :
    (∃ e, parse "model A \x7b\n  a ?\n\x7d" = .error e ∧ e = .atLine 2 (.invalidField "a ?") ∧
      parse "model A \x7b\n  a ?\nmodel A \x7b" = .error e) ∧
    ∃ bs b, parse "model A \x7b\n  b B\n\x7d\nview A \x7b\x7d" =
        .error (.atLine 4 (.duplicateName "A")) ∧
      blocksOf "model A \x7b\n  b B\n\x7d\nview A \x7b\x7d" = .ok bs ∧ IsRepeated bs b ∧
      (∀ b', IsRepeated bs b' → b.line ≤ b'.line) ∧
      SchemaError.atLine 4 (.duplicateName "A") = .atLine b.line (.duplicateName b.name) := by
  constructor
  · have h : parse "model A \x7b\n  a ?\n\x7d" = .error (.atLine 2 (.invalidField "a ?")) := by
      with_unfolding_all rfl
    have hfails : FailsOn (linesOf "model A \x7b\n  a ?\n\x7d") 2 (.invalidField "a ?") :=
      ⟨{ current := some { keyword := .model, name := "A", line := 1 } }, "  a ?".toList,
        by with_unfolding_all rfl, ⟨by decide, by with_unfolding_all rfl⟩,
        by with_unfolding_all rfl⟩
    obtain ⟨heq, hstable⟩ := (earliest_of_parse h).1 2 _ hfails
    exact ⟨_, h, heq, hstable _ (by with_unfolding_all rfl)⟩
  · have h : parse "model A \x7b\n  b B\n\x7d\nview A \x7b\x7d" =
        .error (.atLine 4 (.duplicateName "A")) := by
      with_unfolding_all rfl
    have hblocks : blocksOf "model A \x7b\n  b B\n\x7d\nview A \x7b\x7d" = .ok
        [{ keyword := .model, name := "A", line := 1
           fields := [{ line := 2, name := "b", type := .named "B" }] },
         { keyword := .view, name := "A", line := 4 }] := by
      with_unfolding_all rfl
    obtain ⟨hreads, hcloses⟩ := exists_blocksOf_iff.mp ⟨_, hblocks⟩
    obtain ⟨bs, hbs, hagain, -⟩ := ((earliest_of_parse h).2 hreads).2 hcloses
    obtain rfl := Except.ok.inj (hblocks.symm.trans hbs)
    obtain ⟨b, hrepeated, hleast, -, heq⟩ :=
      hagain ⟨_, [_], [], rfl, rfl, Or.inr ⟨_, List.mem_cons_self .., rfl, rfl⟩⟩
    exact ⟨_, b, h, hblocks, hrepeated, hleast, heq⟩

end Schema

end SchemaDiagram
