import SchemaDiagram.Diagram.Basic
import SchemaDiagram.Schema.Basic

/-!
# What a field contributes to a diagram

Three attributes of a field mean something to a diagram, and they are told by their names alone:
`id` and `unique` each put a constraint on the column, and `relation` draws an edge from the table
to the type of the field. Neither the arguments of an attribute nor a namespace in front of its
name change that; a namespaced name is simply another name.

The attributes are gone through in order. A constraint that is there already is not added again,
while an attribute that draws an edge draws it every time.
-/

namespace SchemaDiagram

/-- What an attribute means to a diagram. -/
inductive Meaning where
  | primaryKey
  | unique
  | relation
  | nothing
  deriving DecidableEq, Repr, Inhabited

/-- The meaning of an attribute of the given name. -/
def Meaning.ofName (name : String) : Meaning :=
  if name = "id" then .primaryKey
  else if name = "unique" then .unique
  else if name = "relation" then .relation
  else .nothing

/-- What one field adds to a diagram: constraints on its column, and edges. -/
structure Contribution where
  constraints : List Constraint := []
  relations : List Relation := []
  deriving DecidableEq, Repr, Inhabited

namespace Contribution

/-- Adds a constraint that is not there yet. -/
def addConstraint (r : Contribution) (k : Constraint) : Contribution :=
  if k ∈ r.constraints then r else { r with constraints := r.constraints ++ [k] }

/-- Adds what one attribute means, for a field that leads from one table to another. -/
def addAttribute (table target : String) (r : Contribution) (a : Attribute) : Contribution :=
  match Meaning.ofName a.name with
  | .primaryKey => r.addConstraint .primaryKey
  | .unique => r.addConstraint .unique
  | .relation => { r with relations := r.relations ++ [{ source := table, target }] }
  | .nothing => r

/-- What a field of the given table adds to a diagram. -/
def ofField (table : String) (f : Field) : Contribution :=
  f.attributes.foldl (addAttribute table f.type.name) {}

/-- The constraints after each step of adding several, one after the other. -/
def constraintSteps (r : Contribution) : List Constraint → List (List Constraint)
  | [] => []
  | k :: ks => (r.addConstraint k).constraints :: (r.addConstraint k).constraintSteps ks

end Contribution
end SchemaDiagram
