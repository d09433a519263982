import SchemaDiagram.Proofs.Text.Name

/-!
# Patterns

A pattern describes the front of a text, and may do so in several ways: a choice has two sides, and
a repetition may stop early. `Pattern.ways` lists all of them, in the order in which a search tries
them that prefers the first side of a choice, and one more repetition to one less. Some of what is
taken off the text is kept under names.

What a pattern takes is said by `Pattern.Takes`, and for each kind of pattern there is one
equivalence about it, in which nothing is left of the order of the search. The patterns that follow
are made of these kinds, and for each of them the texts that it takes are given.
-/

namespace SchemaDiagram
namespace Text

/-! ## The search -/

/-- A pattern for the front of a text. -/
inductive Pattern where
  /-- One character of some class. -/
  | one (isIn : Char → Bool)
  /-- Nothing. -/
  | nothing
  /-- Nothing, if the text ends or if only a line feed is left of it. -/
  | atEnd
  /-- A pattern and another one behind it. -/
  | andThen (p q : Pattern)
  /-- A pattern or else another one. -/
  | orElse (p q : Pattern)
  /-- A pattern any number of times, each time with at least one character. -/
  | many (p : Pattern)
  /-- A pattern, and what it takes is kept under a name. -/
  | group (name : String) (p : Pattern)

/-- One way to find a pattern at the front of a text: what it takes, what it keeps, each under its
name, and what it leaves. -/
structure Way where
  taken : List Char
  kept : List (String × List Char)
  rest : List Char
  deriving DecidableEq, Repr

namespace Way

/-- Nothing is taken. -/
def stay (text : List Char) : Way :=
  { taken := [], kept := [], rest := text }

/-- One way and, where it ends, another one. -/
def andThen (w v : Way) : Way :=
  { taken := w.taken ++ v.taken, kept := w.kept ++ v.kept, rest := v.rest }

/-- Keeps what is taken under a name, in front of what is kept already. -/
def keepAs (name : String) (w : Way) : Way :=
  { w with kept := (name, w.taken) :: w.kept }

end Way

namespace Pattern

/-- The ways to find something up to so many times in a row, with at least one character each time.
More often comes before less often. -/
def repeated (ways : List Char → List Way) : Nat → List Char → List Way
  | 0, text => [.stay text]
  | n + 1, text =>
    (((ways text).filter (·.taken ≠ [])).flatMap fun w => (repeated ways n w.rest).map w.andThen) ++
      [.stay text]

/-- All ways to find the pattern at the front of the text, in the order of the search. A pattern
cannot be found more often in a row than the text has characters. -/
def ways : Pattern → List Char → List Way
  | one _, [] => []
  | one isIn, c :: text => if isIn c then [{ taken := [c], kept := [], rest := text }] else []
  | nothing, text => [.stay text]
  | atEnd, text => if text = [] ∨ text = ['\n'] then [.stay text] else []
  | andThen p q, text => (p.ways text).flatMap fun w => (q.ways w.rest).map w.andThen
  | orElse p q, text => p.ways text ++ q.ways text
  | many p, text => repeated p.ways text.length text
  | group name p, text => (p.ways text).map (Way.keepAs name)

/-- One more repetition is preferred to one less. -/
example : ((many (one (· == 'a'))).ways "aab".toList).map Way.taken =
    ["aa".toList, "a".toList, []] := by
  decide

/-- The way that the search finds first. -/
def search (p : Pattern) (text : List Char) : Option Way :=
  (p.ways text).head?

/-- Whether the pattern takes the text off what has the rest behind it, and keeps what is listed. -/
def Takes (p : Pattern) (taken rest : List Char) (kept : List (String × List Char)) : Prop :=
  { taken, kept, rest } ∈ p.ways (taken ++ rest)

/-! ### What is found makes up the text -/

theorem append_of_mem_repeated {ways : List Char → List Way}
    (hways : ∀ text, ∀ w ∈ ways text, w.taken ++ w.rest = text) (n : Nat) (text : List Char) :
    ∀ w ∈ repeated ways n text, w.taken ++ w.rest = text := by
  induction n generalizing text with
  | zero =>
    intro w hw
    rw [List.mem_singleton.mp hw]
    rfl
  | succ n ih =>
    intro w hw
    rcases List.mem_append.mp hw with hw | hw
    · obtain ⟨u, hu, hw⟩ := List.mem_flatMap.mp hw
      obtain ⟨v, hv, rfl⟩ := List.mem_map.mp hw
      have hrest := ih u.rest v hv
      rw [← hways text u (List.mem_filter.mp hu).1, ← hrest]
      exact List.append_assoc ..
    · rw [List.mem_singleton.mp hw]
      rfl

/-- What is taken and what is left are the text. -/
theorem append_of_mem_ways (p : Pattern) (text : List Char) :
    ∀ w ∈ p.ways text, w.taken ++ w.rest = text := by
  induction p generalizing text with
  | one isIn =>
    cases text with
    | nil => exact List.forall_mem_nil _
    | cons c text =>
      intro w hw
      rw [ways] at hw
      split at hw
      · rw [List.mem_singleton.mp hw]
        rfl
      · exact absurd hw List.not_mem_nil
  | nothing =>
    intro w hw
    rw [List.mem_singleton.mp hw]
    rfl
  | atEnd =>
    intro w hw
    rw [ways] at hw
    split at hw
    · rw [List.mem_singleton.mp hw]
      rfl
    · exact absurd hw List.not_mem_nil
  | andThen p q ihp ihq =>
    intro w hw
    obtain ⟨u, hu, hw⟩ := List.mem_flatMap.mp hw
    obtain ⟨v, hv, rfl⟩ := List.mem_map.mp hw
    rw [← ihp text u hu, ← ihq u.rest v hv]
    exact List.append_assoc ..
  | orElse p q ihp ihq =>
    intro w hw
    rcases List.mem_append.mp hw with hw | hw
    · exact ihp text w hw
    · exact ihq text w hw
  | many p ih => exact append_of_mem_repeated ih text.length text
  | group name p ih =>
    intro w hw
    obtain ⟨u, hu, rfl⟩ := List.mem_map.mp hw
    exact ih text u hu

/-- A way is found if the pattern takes what it takes. -/
theorem mem_ways_iff {p : Pattern} {text : List Char} {w : Way} :
    w ∈ p.ways text ↔ w.taken ++ w.rest = text ∧ p.Takes w.taken w.rest w.kept := by
  constructor
  · intro hw
    have htext := append_of_mem_ways p text w hw
    refine ⟨htext, ?_⟩
    rwa [Takes, htext]
  · rintro ⟨rfl, hw⟩
    exact hw

/-! ## The kinds of patterns -/

variable {p q : Pattern} {s rest : List Char} {kept : List (String × List Char)}

theorem takes_one {isIn : Char → Bool} :
    (one isIn).Takes s rest kept ↔ ∃ c, isIn c = true ∧ s = [c] ∧ kept = [] := by
  rcases s with _ | ⟨c, s⟩
  · cases rest with
    | nil => simp [Takes, ways]
    | cons c rest => by_cases hc : isIn c <;> simp [Takes, ways, hc]
  · by_cases hc : isIn c
    · simp only [Takes, List.cons_append, ways, if_pos hc, List.mem_singleton, Way.mk.injEq]
      constructor
      · rintro ⟨hs, hkept, -⟩
        exact ⟨c, hc, hs, hkept⟩
      · rintro ⟨d, -, hs, hkept⟩
        obtain ⟨rfl, rfl⟩ := List.cons.inj hs
        exact ⟨rfl, hkept, rfl⟩
    · simp only [Takes, List.cons_append, ways, if_neg hc, List.not_mem_nil, false_iff]
      rintro ⟨d, hd, hs, -⟩
      rw [(List.cons.inj hs).1] at hc
      exact hc hd

theorem takes_nothing : nothing.Takes s rest kept ↔ s = [] ∧ kept = [] := by
  simp only [Takes, ways, Way.stay, List.mem_singleton, Way.mk.injEq]
  constructor
  · exact fun h => ⟨h.1, h.2.1⟩
  · rintro ⟨rfl, rfl⟩
    exact ⟨rfl, rfl, rfl⟩

theorem takes_atEnd :
    atEnd.Takes s rest kept ↔ s = [] ∧ kept = [] ∧ (rest = [] ∨ rest = ['\n']) := by
  simp only [Takes, ways]
  split
  · next hend =>
    simp only [Way.stay, List.mem_singleton, Way.mk.injEq]
    constructor
    · rintro ⟨rfl, rfl, -⟩
      exact ⟨rfl, rfl, hend⟩
    · rintro ⟨rfl, rfl, -⟩
      exact ⟨rfl, rfl, rfl⟩
  · next hend =>
    refine iff_of_false List.not_mem_nil ?_
    rintro ⟨rfl, -, hrest⟩
    exact hend hrest

theorem takes_andThen :
    (p.andThen q).Takes s rest kept ↔ ∃ s₁ s₂ kept₁ kept₂, s = s₁ ++ s₂ ∧ kept = kept₁ ++ kept₂ ∧
      p.Takes s₁ (s₂ ++ rest) kept₁ ∧ q.Takes s₂ rest kept₂ := by
  constructor
  · intro h
    obtain ⟨u, hu, h⟩ := List.mem_flatMap.mp h
    obtain ⟨v, hv, h⟩ := List.mem_map.mp h
    obtain ⟨rfl, rfl, rfl⟩ := Way.mk.inj h
    obtain ⟨hrest, hv⟩ := mem_ways_iff.mp hv
    refine ⟨_, _, _, _, rfl, rfl, ?_, hv⟩
    rw [hrest]
    exact (mem_ways_iff.mp hu).2
  · rintro ⟨s₁, s₂, kept₁, kept₂, rfl, rfl, h₁, h₂⟩
    rw [Takes, List.append_assoc]
    exact List.mem_flatMap.mpr ⟨_, h₁, List.mem_map.mpr ⟨_, h₂, rfl⟩⟩

theorem takes_orElse :
    (p.orElse q).Takes s rest kept ↔ p.Takes s rest kept ∨ q.Takes s rest kept :=
  List.mem_append

theorem takes_group {name : String} :
    (group name p).Takes s rest kept ↔
      ∃ inner, kept = (name, s) :: inner ∧ p.Takes s rest inner := by
  constructor
  · intro h
    obtain ⟨u, hu, h⟩ := List.mem_map.mp h
    obtain ⟨rfl, rfl, rfl⟩ := Way.mk.inj h
    exact ⟨_, rfl, (mem_ways_iff.mp hu).2⟩
  · rintro ⟨inner, rfl, h⟩
    exact List.mem_map.mpr ⟨_, h, rfl⟩

/-! ### Repetitions -/

section Repeated

variable {ways : List Char → List Way}
  (hways : ∀ text, ∀ w ∈ ways text, w.taken ++ w.rest = text)
include hways

theorem repeated_nil (n : Nat) : repeated ways n [] = [.stay []] := by
  cases n with
  | zero => rfl
  | succ n =>
    have hnone : (ways []).filter (·.taken ≠ []) = [] := by
      refine List.filter_eq_nil_iff.mpr fun w hw => ?_
      simp [(List.append_eq_nil_iff.mp (hways [] w hw)).1]
    rw [repeated, hnone]
    rfl

/-- What takes a character leaves less. -/
theorem length_rest_lt {text : List Char} {w : Way} (hw : w ∈ (ways text).filter (·.taken ≠ [])) :
    w.rest.length < text.length := by
  obtain ⟨hw, hne⟩ := List.mem_filter.mp hw
  have hpos := List.length_pos_iff.mpr (of_decide_eq_true hne)
  rw [← hways text w hw, List.length_append]
  omega

/-- It makes no difference how often something may be found in a row, if it may be found as often as
there are characters. -/
theorem repeated_eq {n m : Nat} {text : List Char} (hn : text.length ≤ n) (hm : text.length ≤ m) :
    repeated ways n text = repeated ways m text := by
  induction n generalizing m text with
  | zero =>
    obtain rfl := List.length_eq_zero_iff.mp (Nat.le_zero.mp hn)
    rw [repeated_nil hways, repeated_nil hways]
  | succ n ih =>
    cases m with
    | zero =>
      obtain rfl := List.length_eq_zero_iff.mp (Nat.le_zero.mp hm)
      rw [repeated_nil hways, repeated_nil hways]
    | succ m =>
      rw [repeated, repeated]
      congr 1
      refine List.flatMap_congr fun w hw => ?_
      have hless := length_rest_lt hways hw
      rw [ih (by omega) (by omega : w.rest.length ≤ m)]

end Repeated

theorem ways_many (p : Pattern) (text : List Char) :
    (many p).ways text = (((p.ways text).filter (·.taken ≠ [])).flatMap fun w =>
      ((many p).ways w.rest).map w.andThen) ++ [.stay text] := by
  have hsound := append_of_mem_ways p
  have hmore : repeated p.ways (text.length + 1) text = repeated p.ways text.length text :=
    repeated_eq hsound (Nat.le_succ _) (Nat.le_refl _)
  rw [ways, ← hmore, repeated]
  congr 1
  refine List.flatMap_congr fun w hw => ?_
  rw [ways, repeated_eq hsound (Nat.le_of_lt (length_rest_lt hsound hw)) (Nat.le_refl _)]

theorem takes_many :
    (many p).Takes s rest kept ↔ s = [] ∧ kept = [] ∨
      ∃ s₁ s₂ kept₁ kept₂, s₁ ≠ [] ∧ s = s₁ ++ s₂ ∧ kept = kept₁ ++ kept₂ ∧
        p.Takes s₁ (s₂ ++ rest) kept₁ ∧ (many p).Takes s₂ rest kept₂ := by
  constructor
  · intro h
    rw [Takes, ways_many] at h
    rcases List.mem_append.mp h with h | h
    · obtain ⟨u, hu, h⟩ := List.mem_flatMap.mp h
      obtain ⟨v, hv, h⟩ := List.mem_map.mp h
      obtain ⟨hu, hne⟩ := List.mem_filter.mp hu
      obtain ⟨rfl, rfl, rfl⟩ := Way.mk.inj h
      obtain ⟨hrest, hv⟩ := mem_ways_iff.mp hv
      refine Or.inr ⟨_, _, _, _, of_decide_eq_true hne, rfl, rfl, ?_, hv⟩
      rw [hrest]
      exact (mem_ways_iff.mp hu).2
    · obtain ⟨rfl, rfl, -⟩ := Way.mk.inj (List.mem_singleton.mp h)
      exact Or.inl ⟨rfl, rfl⟩
  · rintro (⟨rfl, rfl⟩ | ⟨s₁, s₂, kept₁, kept₂, hne, rfl, rfl, h₁, h₂⟩)
    · rw [Takes, ways_many]
      exact List.mem_append_right _ (List.mem_singleton.mpr rfl)
    · rw [Takes, ways_many, List.append_assoc]
      exact List.mem_append_left _ (List.mem_flatMap.mpr
        ⟨_, List.mem_filter.mpr ⟨h₁, decide_eq_true hne⟩, List.mem_map.mpr ⟨_, h₂, rfl⟩⟩)

/-- What holds of nothing, and of a repetition if it holds of all but its first part, holds of every
repetition. -/
theorem many_induction {motive : List Char → List (String × List Char) → Prop} (nil : motive [] [])
    (cons : ∀ s₁ s₂ kept₁ kept₂, p.Takes s₁ (s₂ ++ rest) kept₁ → motive s₂ kept₂ →
      motive (s₁ ++ s₂) (kept₁ ++ kept₂))
    (h : (many p).Takes s rest kept) : motive s kept := by
  induction hn : s.length using Nat.strong_induction_on generalizing s kept with
  | _ n ih =>
    rcases takes_many.mp h with ⟨rfl, rfl⟩ | ⟨s₁, s₂, kept₁, kept₂, hne, rfl, rfl, h₁, h₂⟩
    · exact nil
    · have hpos := List.length_pos_iff.mpr hne
      rw [List.length_append] at hn
      exact cons s₁ s₂ kept₁ kept₂ h₁ (ih s₂.length (by omega) h₂ rfl)

/-- Characters of one class, as many as there are. -/
theorem takes_many_one {isIn : Char → Bool} :
    (many (one isIn)).Takes s rest kept ↔ (∀ c ∈ s, isIn c = true) ∧ kept = [] := by
  constructor
  · refine many_induction (motive := fun s kept => (∀ c ∈ s, isIn c = true) ∧ kept = [])
      ⟨List.forall_mem_nil _, rfl⟩ ?_
    rintro s₁ s₂ kept₁ _ h ⟨hall, rfl⟩
    obtain ⟨c, hc, rfl, rfl⟩ := takes_one.mp h
    exact ⟨List.forall_mem_cons.mpr ⟨hc, hall⟩, rfl⟩
  · rintro ⟨hall, rfl⟩
    induction s with
    | nil => exact takes_many.mpr (Or.inl ⟨rfl, rfl⟩)
    | cons c s ih =>
      obtain ⟨hc, hall⟩ := List.forall_mem_cons.mp hall
      exact takes_many.mpr (Or.inr ⟨[c], s, [], [], List.cons_ne_nil c [], rfl, rfl,
        takes_one.mpr ⟨c, hc, rfl, rfl⟩, ih hall⟩)

/-! ## Patterns made of others -/

/-- Several patterns, one behind the other. -/
def inOrder (ps : List Pattern) : Pattern :=
  ps.foldr andThen nothing

/-- A given text. -/
def literal (text : List Char) : Pattern :=
  inOrder (text.map fun c => one (· == c))

/-- A pattern, or nothing where that is not to be found. -/
def optional (p : Pattern) : Pattern :=
  p.orElse nothing

/-- A pattern at least once. -/
def atLeastOnce (p : Pattern) : Pattern :=
  p.andThen (many p)

/-- A name. -/
def name : Pattern :=
  (one isNameStart).andThen (many (one isWord))

/-- Any number of blanks. -/
def blanks : Pattern :=
  many (one isBlank)

/-- At least one blank. -/
def gap : Pattern :=
  atLeastOnce (one isBlank)

theorem takes_inOrder_nil : (inOrder []).Takes s rest kept ↔ s = [] ∧ kept = [] :=
  takes_nothing

theorem takes_inOrder_cons {ps : List Pattern} :
    (inOrder (p :: ps)).Takes s rest kept ↔ ∃ s₁ s₂ kept₁ kept₂,
      s = s₁ ++ s₂ ∧ kept = kept₁ ++ kept₂ ∧
        p.Takes s₁ (s₂ ++ rest) kept₁ ∧ (inOrder ps).Takes s₂ rest kept₂ :=
  takes_andThen

/-- One more pattern in front of the others. -/
theorem Takes.inOrder {ps : List Pattern} {s₁ s₂ : List Char}
    {kept₁ kept₂ : List (String × List Char)} (h₁ : p.Takes s₁ (s₂ ++ rest) kept₁)
    (h₂ : (inOrder ps).Takes s₂ rest kept₂) :
    (Pattern.inOrder (p :: ps)).Takes (s₁ ++ s₂) rest (kept₁ ++ kept₂) :=
  takes_inOrder_cons.mpr ⟨s₁, s₂, kept₁, kept₂, rfl, rfl, h₁, h₂⟩

theorem takes_optional :
    (optional p).Takes s rest kept ↔ p.Takes s rest kept ∨ s = [] ∧ kept = [] := by
  rw [optional, takes_orElse, takes_nothing]

/-- A group of what keeps nothing keeps just what is taken. -/
theorem takes_group_iff {name : String} {P : Prop}
    (h : ∀ inner, p.Takes s rest inner ↔ P ∧ inner = []) :
    (group name p).Takes s rest kept ↔ P ∧ kept = [(name, s)] := by
  simp only [takes_group, h]
  constructor
  · rintro ⟨_, rfl, hP, rfl⟩
    exact ⟨hP, rfl⟩
  · rintro ⟨hP, rfl⟩
    exact ⟨[], rfl, hP, rfl⟩

theorem takes_literal {text : List Char} :
    (literal text).Takes s rest kept ↔ s = text ∧ kept = [] := by
  induction text generalizing s kept with
  | nil => exact takes_inOrder_nil
  | cons c text ih =>
    rw [literal, List.map_cons, takes_inOrder_cons]
    constructor
    · rintro ⟨s₁, s₂, kept₁, kept₂, rfl, rfl, h₁, h₂⟩
      obtain ⟨d, hd, rfl, rfl⟩ := takes_one.mp h₁
      obtain ⟨rfl, rfl⟩ := ih.mp h₂
      rw [eq_of_beq hd]
      exact ⟨rfl, rfl⟩
    · rintro ⟨rfl, rfl⟩
      exact ⟨[c], text, [], [], rfl, rfl, takes_one.mpr ⟨c, beq_self_eq_true c, rfl, rfl⟩,
        ih.mpr ⟨rfl, rfl⟩⟩

/-- A given text that may be there or not. -/
theorem takes_optional_literal {name : String} {text : List Char} :
    (optional (group name (literal text))).Takes s rest kept ↔
      ∃ isThere : Bool, s = (if isThere then text else []) ∧
        kept = if isThere then [(name, text)] else [] := by
  rw [takes_optional, takes_group_iff fun _ => takes_literal]
  constructor
  · rintro (⟨rfl, rfl⟩ | ⟨rfl, rfl⟩)
    · exact ⟨true, rfl, rfl⟩
    · exact ⟨false, rfl, rfl⟩
  · rintro ⟨_ | _, rfl, rfl⟩
    · exact Or.inr ⟨rfl, rfl⟩
    · exact Or.inl ⟨rfl, rfl⟩

theorem takes_atLeastOnce_one {isIn : Char → Bool} :
    (atLeastOnce (one isIn)).Takes s rest kept ↔
      (s ≠ [] ∧ ∀ c ∈ s, isIn c = true) ∧ kept = [] := by
  rw [atLeastOnce, takes_andThen]
  constructor
  · rintro ⟨s₁, s₂, kept₁, kept₂, rfl, rfl, h₁, h₂⟩
    obtain ⟨c, hc, rfl, rfl⟩ := takes_one.mp h₁
    obtain ⟨hall, rfl⟩ := takes_many_one.mp h₂
    exact ⟨⟨List.cons_ne_nil c s₂, List.forall_mem_cons.mpr ⟨hc, hall⟩⟩, rfl⟩
  · rintro ⟨⟨hne, hall⟩, rfl⟩
    obtain ⟨c, s, rfl⟩ := List.exists_cons_of_ne_nil hne
    obtain ⟨hc, hall⟩ := List.forall_mem_cons.mp hall
    exact ⟨[c], s, [], [], rfl, rfl, takes_one.mpr ⟨c, hc, rfl, rfl⟩,
      takes_many_one.mpr ⟨hall, rfl⟩⟩

theorem takes_name : name.Takes s rest kept ↔ isName s = true ∧ kept = [] := by
  rw [name, takes_andThen]
  constructor
  · rintro ⟨s₁, s₂, kept₁, kept₂, rfl, rfl, h₁, h₂⟩
    obtain ⟨c, hc, rfl, rfl⟩ := takes_one.mp h₁
    obtain ⟨hall, rfl⟩ := takes_many_one.mp h₂
    exact ⟨isName_cons.mpr ⟨hc, hall⟩, rfl⟩
  · rintro ⟨hname, rfl⟩
    obtain ⟨c, s, rfl⟩ := List.exists_cons_of_ne_nil (ne_nil_of_isName hname)
    obtain ⟨hc, hall⟩ := isName_cons.mp hname
    exact ⟨[c], s, [], [], rfl, rfl, takes_one.mpr ⟨c, hc, rfl, rfl⟩,
      takes_many_one.mpr ⟨hall, rfl⟩⟩

theorem takes_blanks : blanks.Takes s rest kept ↔ IsGap s ∧ kept = [] :=
  takes_many_one

theorem takes_gap : gap.Takes s rest kept ↔ (s ≠ [] ∧ IsGap s) ∧ kept = [] :=
  takes_atLeastOnce_one

end Pattern
end Text
end SchemaDiagram
