import Mathlib.Data.List.Nodup
import SchemaDiagram.Proofs.Json.Shape

/-!
# Sites

What a check has to list is best described from the value and its shape alone. A *site* is a place
where something is asked, with what stands there; its *parts* are the sites below it, and there are
some only if what stands there is of the sort that is asked, an array or an object. Sites form a
tree (`Site.induction`), and there are two things that can happen at one. Either what stands there
is not what is asked, and this is all that is listed (`Site.issues_of_not_fits`), or it is, and what
is listed are the issues of the parts, one part after the other (`Site.issues_of_fits`). Everything
else follows from these two.

* An issue is listed just if its path leads to a site that has the fault (`Site.mem_issues_iff`).
* The issues come in the order of the sites, depth first (`Site.pairwise_before_issues`).
* If the members of a record have different names, a path leads to one site at most
  (`Site.Reaches.unique`), no path is listed twice (`Site.nodup_paths`), and the issues at a site
  and below are those of the site, whatever stands elsewhere (`Site.issuesBelow_issues`).
-/

namespace SchemaDiagram
namespace Json

/-! ## Sites -/

/-- A place where a value of some shape is expected, with the value that stands there, if one
does. -/
structure Site where
  shape : Shape
  value : Option Json

/-- The site of a member, unless the member is missing and has a default. -/
def Member.site? (m : Member Shape) (given : List (String × Json)) : Option Site :=
  match given.lookup m.name, m.default with
  | none, some _ => none
  | v, _ => some ⟨m.shape, v⟩

/-- The sites right below a site, in the order in which the shape names them. There are none below
a value that is not of the expected sort. -/
def Site.parts : Site → List (Step × Site)
  | ⟨.list _ t, some (.array vs)⟩ => vs.mapIdx fun i v => (.item i, ⟨t, some v⟩)
  | ⟨.record ms, some (.object given)⟩ =>
    ms.filterMap fun m => (m.site? given).map (Step.member m.name, ·)
  | _ => []

/-- A path leads from a site to another one, from part to part. -/
inductive Site.Reaches : Site → List Step → Site → Prop
  | here (s : Site) : Reaches s [] s
  | part {s part target : Site} {step : Step} {path : List Step}
      (hpart : (step, part) ∈ s.parts) (h : Reaches part path target) :
      Reaches s (step :: path) target

/-- The order of the paths from a site, depth first: a path comes before those that go on from its
end, and of paths that part the one comes first whose next step the shape names first. -/
inductive Site.Before : Site → List Step → List Step → Prop
  | above {s : Site} {step : Step} {path : List Step} : Before s [] (step :: path)
  | apart {s : Site} {step step' : Step} {path path' : List Step}
      (h : [step, step'].Sublist (s.parts.map Prod.fst)) : Before s (step :: path) (step' :: path')
  | within {s part : Site} {step : Step} {path path' : List Step} (hpart : (step, part) ∈ s.parts)
      (h : Before part path path') : Before s (step :: path) (step :: path')

/-- What stands at a site is of the sort that is asked, whatever its parts are. -/
inductive Site.Fits : Site → Prop
  | leaf {l : Leaf} {v : Json} (h : l.Fits v) : Fits ⟨.leaf l, some v⟩
  | list (distinct : Bool) (t : Shape) (vs : List Json) :
      Fits ⟨.list distinct t, some (.array vs)⟩
  | record (ms : List (Member Shape)) (given : List (String × Json)) :
      Fits ⟨.record ms, some (.object given)⟩

/-- What is wrong at a site where nothing stands that is of the sort that is asked. -/
def Site.fault : Site → Fault
  | ⟨_, none⟩ => .missing
  | ⟨.leaf l, some v⟩ => l.fault v
  | ⟨.list .., some _⟩ => .notAList
  | ⟨.record _, some _⟩ => .notAnObject

/-! ## What a check lists at a site -/

/-- The issue, seen from one step further out. -/
def Issue.under (step : Step) (i : Issue) : Issue :=
  { i with path := step :: i.path }

theorem Checked.issues_under {α : Type} (step : Step) (x : Checked α) :
    (x.under step).issues = x.issues.map (Issue.under step) := by
  cases x <;> rfl

/-- Everything that is wrong at a site and below. -/
def Site.issues : Site → List Issue
  | ⟨_, none⟩ => [⟨[], .missing⟩]
  | ⟨t, some v⟩ => (t.check v).issues

theorem Check.issues_items {α : Type} (check : Json → Checked α) (k : Nat) (vs : List Json) :
    (Check.items check k vs).issues =
      (vs.zipIdx k).flatMap fun p => (check p.1).issues.map (Issue.under (.item p.2)) := by
  induction vs generalizing k with
  | nil => rfl
  | cons v vs ih =>
    simp [Check.items, Checked.issues_under, ih]

theorem Check.issues_member (m : Member Shape) (given : List (String × Json)) :
    (Check.member m.name m.default m.shape.check given).issues =
      ((m.site? given).map fun s => s.issues.map (Issue.under (.member m.name))).getD [] := by
  obtain ⟨name, default, t⟩ := m
  cases hlookup : given.lookup name <;> cases default <;>
    simp [Check.member, Check.required, Check.optional, Member.site?, hlookup, Site.issues,
      Checked.issues_under]

theorem Shape.issues_checkMembers (ms : List (Member Shape)) (given : List (String × Json)) :
    (checkMembers ms given).issues = ms.flatMap fun m =>
      ((m.site? given).map fun s => s.issues.map (Issue.under (.member m.name))).getD [] := by
  induction ms with
  | nil => rfl
  | cons m ms ih =>
    rw [List.flatMap_cons, ← ih, ← Check.issues_member m given, checkMembers, Checked.issues_seq,
      Checked.issues_map]

namespace Site

variable {s : Site}

/-- Where what stands there is not what is asked, this is all that is listed. -/
theorem issues_of_not_fits (h : ¬ s.Fits) : s.issues = [⟨[], s.fault⟩] := by
  obtain ⟨t, v⟩ := s
  cases v with
  | none => rfl
  | some v =>
    cases t with
    | leaf l => exact Leaf.issues_check_of_not_fits fun hl => h (.leaf hl)
    | list distinct t =>
      cases v with
      | array vs => exact absurd (.list ..) h
      | _ => rfl
    | record ms =>
      cases v with
      | object given => exact absurd (.record ..) h
      | _ => rfl

/-- Where what stands there is what is asked, the issues are those of the parts. -/
theorem issues_of_fits (h : s.Fits) :
    s.issues = s.parts.flatMap fun p => p.2.issues.map (Issue.under p.1) := by
  cases h with
  | leaf h =>
    rw [issues, Shape.check, Leaf.check_of_fits h]
    rfl
  | list distinct t vs =>
    simp [issues, parts, Shape.check, Check.list, Check.issues_items, List.mapIdx_eq_zipIdx_map,
      List.flatMap_map]
  | record ms given =>
    simp only [issues, parts, Shape.check, Check.object, Checked.issues_map,
      Shape.issues_checkMembers, List.filterMap_eq_flatMap_toList, List.flatMap_assoc]
    refine List.flatMap_congr fun m _ => ?_
    cases m.site? given <;> simp

theorem parts_of_not_fits (h : ¬ s.Fits) : s.parts = [] := by
  unfold parts
  split
  · exact absurd (.list ..) h
  · exact absurd (.record ..) h
  · rfl

end Site

/-! ## Issues and paths -/

theorem Member.shape_of_site? {m : Member Shape} {given : List (String × Json)} {s : Site}
    (h : m.site? given = some s) : s.shape = m.shape := by
  unfold site? at h
  split at h
  · simp at h
  · rw [← Option.some.inj h]

namespace Site

variable {s part : Site} {step : Step}

/-- The shape of a part is a part of the shape. -/
theorem shape_of_mem_parts (h : (step, part) ∈ s.parts) :
    (∃ distinct, s.shape = .list distinct part.shape) ∨
      ∃ ms, s.shape = .record ms ∧ ∃ m ∈ ms, part.shape = m.shape := by
  unfold parts at h
  split at h
  · obtain ⟨i, hi, heq⟩ := List.mem_mapIdx.mp h
    obtain ⟨-, rfl⟩ := Prod.mk.inj heq
    exact Or.inl ⟨_, rfl⟩
  · next ms given =>
    obtain ⟨m, hm, hmap⟩ := List.mem_filterMap.mp h
    obtain ⟨part', hsite, heq⟩ := Option.map_eq_some_iff.mp hmap
    obtain ⟨-, rfl⟩ := Prod.mk.inj heq
    exact Or.inr ⟨ms, rfl, m, hm, Member.shape_of_site? hsite⟩
  · simp at h

theorem isProper_of_mem_parts (h : s.shape.IsProper) (hpart : (step, part) ∈ s.parts) :
    part.shape.IsProper := by
  rcases shape_of_mem_parts hpart with ⟨distinct, hs⟩ | ⟨ms, hs, m, hm, hshape⟩
  · rw [hs] at h
    cases h with
    | list h => exact h
  · rw [hs] at h
    cases h with
    | record _ h =>
      rw [hshape]
      exact h m hm

theorem sizeOf_lt_of_mem_parts (hpart : (step, part) ∈ s.parts) :
    sizeOf part.shape < sizeOf s.shape := by
  rcases shape_of_mem_parts hpart with ⟨distinct, hs⟩ | ⟨ms, hs, m, hm, hshape⟩
  · rw [hs, Shape.list.sizeOf_spec]
    omega
  · have hms := List.sizeOf_lt_of_mem hm
    have hm : sizeOf m.shape < sizeOf m := by
      obtain ⟨name, default, t⟩ := m
      show sizeOf t < sizeOf (Member.mk name default t)
      rw [Member.mk.sizeOf_spec]
      omega
    rw [hs, hshape, Shape.record.sizeOf_spec]
    omega

/-- What holds of a site if it holds of its parts holds of every site. The parts may hold any
values; it is their shapes that get smaller. -/
theorem induction {P : Site → Prop} (h : ∀ s, (∀ p ∈ s.parts, P p.2) → P s) (s : Site) : P s :=
  h s fun p hp =>
    have := sizeOf_lt_of_mem_parts hp
    induction h p.2
  termination_by sizeOf s.shape

/-- **What is listed** at the end of a path is what is wrong with a site there. -/
theorem mem_issues_iff {path : List Step} {f : Fault} :
    ⟨path, f⟩ ∈ s.issues ↔ ∃ target, s.Reaches path target ∧ ¬ target.Fits ∧ f = target.fault := by
  induction path generalizing s with
  | nil =>
    have hreaches : ∀ target, s.Reaches [] target ↔ target = s := by
      intro target
      constructor
      · intro h
        cases h
        rfl
      · rintro rfl
        exact .here target
    simp only [hreaches, exists_eq_left]
    by_cases hs : s.Fits
    · simp [issues_of_fits hs, hs, Issue.under]
    · simp [issues_of_not_fits hs, hs]
  | cons step path ih =>
    have hissues : ⟨step :: path, f⟩ ∈ s.issues ↔
        ∃ part, (step, part) ∈ s.parts ∧ ⟨path, f⟩ ∈ part.issues := by
      by_cases hs : s.Fits
      · rw [issues_of_fits hs]
        constructor
        · intro h
          obtain ⟨⟨step', part⟩, hpart, h⟩ := List.mem_flatMap.mp h
          obtain ⟨⟨path', f'⟩, hi, heq⟩ := List.mem_map.mp h
          simp only [Issue.under, Issue.mk.injEq, List.cons.injEq] at heq
          obtain ⟨⟨rfl, rfl⟩, rfl⟩ := heq
          exact ⟨part, hpart, hi⟩
        · rintro ⟨part, hpart, hi⟩
          exact List.mem_flatMap.mpr ⟨(step, part), hpart, List.mem_map.mpr ⟨_, hi, rfl⟩⟩
      · simp [issues_of_not_fits hs, parts_of_not_fits hs]
    rw [hissues]
    constructor
    · rintro ⟨part, hpart, hi⟩
      obtain ⟨target, htarget, h⟩ := ih.mp hi
      exact ⟨target, .part hpart htarget, h⟩
    · rintro ⟨target, htarget, h⟩
      cases htarget with
      | part hpart htarget => exact ⟨_, hpart, ih.mpr ⟨target, htarget, h⟩⟩

/-- **The order of the issues** is that of the sites. -/
theorem pairwise_before_issues (s : Site) : (s.issues.map Issue.path).Pairwise s.Before := by
  induction s using Site.induction with
  | h s ih =>
    by_cases hs : s.Fits
    · rw [issues_of_fits hs, List.map_flatMap, List.pairwise_flatMap]
      constructor
      · intro p hp
        rw [List.map_map, List.pairwise_map]
        exact (List.pairwise_map.mp (ih p hp)).imp fun h => .within hp h
      · rw [List.pairwise_iff_forall_sublist]
        intro p q hpq path hpath path' hpath'
        simp only [List.map_map, List.mem_map] at hpath hpath'
        obtain ⟨i, -, rfl⟩ := hpath
        obtain ⟨i', -, rfl⟩ := hpath'
        exact .apart (hpq.map Prod.fst)
    · rw [issues_of_not_fits hs]
      exact List.pairwise_singleton ..

/-! ## Where names differ -/

/-- The parts of a site are told apart by the step that leads to them. -/
theorem nodup_steps (h : s.shape.IsProper) : (s.parts.map Prod.fst).Nodup := by
  unfold parts
  split
  · next t vs =>
    have hsteps : (vs.mapIdx fun i v => (Step.item i, Site.mk t (some v))).map Prod.fst =
        (List.range' 0 vs.length).map Step.item := by
      rw [List.mapIdx_eq_zipIdx_map, List.map_map, ← List.zipIdx_map_snd, List.map_map]
      rfl
    rw [hsteps]
    exact (List.nodup_range' _).map fun _ _ => Step.item.inj
  · next ms given =>
    -- a member that is missing and has a default is no part, so not every name is among the steps
    have hsteps : ((ms.filterMap fun m => (m.site? given).map (Step.member m.name, ·)).map
        Prod.fst).Sublist ((ms.map Member.name).map Step.member) := by
      clear h
      induction ms with
      | nil => exact List.Sublist.slnil
      | cons m ms ih =>
        cases hsite : m.site? given with
        | none =>
          rw [List.filterMap_cons_none (by rw [hsite]; rfl)]
          exact ih.cons _
        | some s =>
          rw [List.filterMap_cons_some (by rw [hsite]; rfl)]
          exact ih.cons_cons _
    cases h with
    | record hnodup _ => exact (hnodup.map fun _ _ => Step.member.inj).sublist hsteps
  · exact List.nodup_nil

/-- A path leads to one site at most. -/
theorem Reaches.unique (h : s.shape.IsProper) {path : List Step} {target target' : Site}
    (hreaches : s.Reaches path target) (hreaches' : s.Reaches path target') : target = target' := by
  induction hreaches with
  | here s =>
    cases hreaches'
    rfl
  | part hpart hreaches ih =>
    cases hreaches' with
    | part hpart' hreaches' =>
      obtain rfl := (Prod.mk.inj (List.inj_on_of_nodup_map (nodup_steps h) hpart hpart' rfl)).2
      exact ih (isProper_of_mem_parts h hpart) hreaches'

theorem not_before_self {path : List Step} (h : s.shape.IsProper) : ¬ s.Before path path := by
  induction path generalizing s with
  | nil => nofun
  | cons step path ih =>
    intro hbefore
    cases hbefore with
    -- a step would come before itself among steps that differ
    | apart hsub => exact absurd ((nodup_steps h).sublist hsub) (by simp)
    | within hpart hbefore => exact ih (isProper_of_mem_parts h hpart) hbefore

/-- **No path is listed twice.** -/
theorem nodup_paths (h : s.shape.IsProper) : (s.issues.map Issue.path).Nodup :=
  s.pairwise_before_issues.imp fun hbefore => by
    rintro rfl
    exact not_before_self h hbefore

end Site

/-! ## Issues below a path -/

/-- Of lists that are told apart by a key, the ones under one key. -/
theorem flatMap_ite_of_nodup {α β γ : Type} [DecidableEq α] {l : List (α × β)}
    (h : (l.map Prod.fst).Nodup) {a : α} {b : β} (hmem : (a, b) ∈ l) (f : β → List γ) :
    (l.flatMap fun p => if p.1 = a then f p.2 else []) = f b := by
  induction l with
  | nil => simp at hmem
  | cons p l ih =>
    rw [List.map_cons, List.nodup_cons] at h
    rw [List.flatMap_cons]
    rcases List.mem_cons.mp hmem with rfl | hmem
    · have hrest : (l.flatMap fun p => if p.1 = a then f p.2 else []) = [] := by
        rw [List.flatMap_eq_nil_iff]
        intro p hp
        exact if_neg fun heq => h.1 (List.mem_map.mpr ⟨p, hp, heq⟩)
      rw [if_pos rfl, hrest, List.append_nil]
    · have hne : p.1 ≠ a := fun heq => h.1 (List.mem_map.mpr ⟨(a, b), hmem, heq.symm⟩)
      rw [if_neg hne, List.nil_append, ih h.2 hmem]

/-- The issue as seen from the end of a step, if the step leads to it. -/
def Issue.from? (step : Step) (i : Issue) : Option Issue :=
  match i.path with
  | step' :: path => if step' = step then some { i with path } else none
  | [] => none

/-- The issues at the end of a path and below, as seen from there. -/
def issuesBelow : List Step → List Issue → List Issue
  | [], is => is
  | step :: path, is => issuesBelow path (is.filterMap (Issue.from? step))

namespace Site

variable {s part : Site} {step : Step}

theorem filterMap_from?_issues (h : s.shape.IsProper) (hpart : (step, part) ∈ s.parts) :
    s.issues.filterMap (Issue.from? step) = part.issues := by
  have hfits : s.Fits := Classical.not_not.mp fun hs => by simp [parts_of_not_fits hs] at hpart
  have hfrom : ∀ p : Step × Site, (p.2.issues.map (Issue.under p.1)).filterMap (Issue.from? step) =
      if p.1 = step then p.2.issues else [] := by
    intro p
    rw [List.filterMap_map]
    split_ifs with hp
    · rw [show Issue.from? step ∘ Issue.under p.1 = some from funext fun i => if_pos hp,
        List.filterMap_some]
    · rw [show Issue.from? step ∘ Issue.under p.1 = fun _ => none from funext fun i => if_neg hp,
        List.filterMap_none]
  rw [issues_of_fits hfits, List.filterMap_flatMap]
  simp only [hfrom]
  exact flatMap_ite_of_nodup (nodup_steps h) hpart Site.issues

/-- **What stands elsewhere does not matter** to what is listed at and below a site. -/
theorem issuesBelow_issues (h : s.shape.IsProper) {path : List Step} {target : Site}
    (hreaches : s.Reaches path target) : issuesBelow path s.issues = target.issues := by
  induction hreaches with
  | here s => rfl
  | part hpart hreaches ih =>
    rw [issuesBelow, filterMap_from?_issues h hpart]
    exact ih (isProper_of_mem_parts h hpart)

end Site

end Json
end SchemaDiagram
