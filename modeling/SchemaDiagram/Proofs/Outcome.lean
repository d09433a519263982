/-!
# Outcomes

Every reader of this library returns its result or the cause of its failure. What a mapped outcome
says about the one it was mapped from is used throughout. Two outcomes are compared by `Related`:
both are failures, or both are results.
-/

namespace SchemaDiagram

variable {ε α β : Type}

theorem map_eq_ok_iff {f : α → β} {x : Except ε α} {b : β} :
    x.map f = .ok b ↔ ∃ a, x = .ok a ∧ f a = b := by
  cases x with
  | error e => simp [Except.map]
  | ok a => simp [Except.map]

theorem map_eq_error_iff {f : α → β} {x : Except ε α} {e : ε} :
    x.map f = .error e ↔ x = .error e := by
  cases x with
  | error e' => simp [Except.map]
  | ok a => simp [Except.map]

theorem mapError_eq_ok_iff {ε' : Type} {f : ε → ε'} {x : Except ε α} {a : α} :
    x.mapError f = .ok a ↔ x = .ok a := by
  cases x with
  | error e => exact ⟨nofun, nofun⟩
  | ok b =>
    change Except.ok b = .ok a ↔ Except.ok b = .ok a
    rw [Except.ok.injEq, Except.ok.injEq]

/-! ## Two outcomes -/

variable {ε' α' β' : Type}

/-- Two outcomes that correspond to each other: either both are failures that do, or both are
results that do. -/
inductive Related (E : ε → ε' → Prop) (R : α → α' → Prop) : Except ε α → Except ε' α' → Prop where
  | error {e : ε} {e' : ε'} : E e e' → Related E R (.error e) (.error e')
  | ok {a : α} {a' : α'} : R a a' → Related E R (.ok a) (.ok a')

namespace Related

variable {E : ε → ε' → Prop} {R : α → α' → Prop} {x : Except ε α} {y : Except ε' α'}

theorem outcomes (h : Related E R x y) :
    (∃ e e', x = .error e ∧ y = .error e' ∧ E e e') ∨ ∃ a a', x = .ok a ∧ y = .ok a' ∧ R a a' := by
  cases h with
  | error he => exact .inl ⟨_, _, rfl, rfl, he⟩
  | ok hr => exact .inr ⟨_, _, rfl, rfl, hr⟩

theorem exists_ok {a : α} (h : Related E R (.ok a) y) : ∃ a', y = .ok a' ∧ R a a' := by
  cases h with
  | ok hr => exact ⟨_, rfl, hr⟩

theorem exists_error {e : ε} (h : Related E R (.error e) y) : ∃ e', y = .error e' ∧ E e e' := by
  cases h with
  | error he => exact ⟨_, rfl, he⟩

theorem map {S : β → β' → Prop} {f : α → β} {g : α' → β'} (h : Related E R x y)
    (hfg : ∀ a a', R a a' → S (f a) (g a')) : Related E S (x.map f) (y.map g) := by
  cases h with
  | error he => exact .error he
  | ok hr => exact .ok (hfg _ _ hr)

/-- One outcome that is mapped in two ways. -/
theorem map_same {S : β → β' → Prop} {f : α → β} {g : α → β'} (x : Except ε α)
    (hfg : ∀ a, S (f a) (g a)) : Related Eq S (x.map f) (x.map g) := by
  cases x with
  | error e => exact .error rfl
  | ok a => exact .ok (hfg a)

end Related

end SchemaDiagram
