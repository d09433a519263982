import SchemaDiagram.Log.Event

/-!
# Work that is reported

A piece of work ends in a value or an error, and on the way there it reports events. `Traced` keeps
the events next to the outcome, in order, also when the work fails half way. The outcome of a
composed piece of work does not depend on what was reported, which is what `outcome_bind` says.
-/

namespace SchemaDiagram
namespace Log

/-- The outcome of some work, with the events that were reported on the way. -/
structure Traced (ε α : Type) where
  events : List Event
  outcome : Except ε α

namespace Traced

variable {ε α β : Type}

/-- Reports one event. -/
def report (e : Event) : Traced ε Unit :=
  ⟨[e], .ok ()⟩

/-- Work that ends at once and reports nothing. -/
def ofExcept (outcome : Except ε α) : Traced ε α :=
  ⟨[], outcome⟩

/-- Goes on with the value of the first piece of work; an error ends both. -/
protected def bind (x : Traced ε α) (f : α → Traced ε β) : Traced ε β :=
  match x.outcome with
  | .error e => ⟨x.events, .error e⟩
  | .ok a => ⟨x.events ++ (f a).events, (f a).outcome⟩

instance : Monad (Traced ε) where
  pure a := ofExcept (.ok a)
  bind := Traced.bind

/-- Reports one more event if the work fails. -/
def onError (x : Traced ε α) (e : ε → Event) : Traced ε α :=
  match x.outcome with
  | .error err => { x with events := x.events ++ [e err] }
  | .ok _ => x

@[simp] theorem outcome_pure (a : α) : (pure a : Traced ε α).outcome = .ok a := rfl

@[simp] theorem outcome_ofExcept (r : Except ε α) : (ofExcept r).outcome = r := rfl

@[simp] theorem outcome_report (e : Event) : (report e : Traced ε Unit).outcome = .ok () := rfl

/-- The outcome of composed work is the composed outcome. -/
@[simp] theorem outcome_bind (x : Traced ε α) (f : α → Traced ε β) :
    (x >>= f).outcome = x.outcome >>= fun a => (f a).outcome := by
  obtain ⟨events, outcome⟩ := x
  cases outcome <;> rfl

@[simp] theorem outcome_onError (x : Traced ε α) (e : ε → Event) :
    (x.onError e).outcome = x.outcome := by
  obtain ⟨events, outcome⟩ := x
  cases outcome <;> rfl

end Traced
end Log
end SchemaDiagram
