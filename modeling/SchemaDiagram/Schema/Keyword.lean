/-!
# Block keywords

A schema is a sequence of blocks, and the word that opens a block says what it declares.
-/

namespace SchemaDiagram

/-- The words that open a block. -/
inductive Keyword where
  | model
  | enum
  | type
  | view
  | datasource
  | generator
  deriving DecidableEq, Repr, Inhabited

namespace Keyword

/-- Every keyword. -/
def all : List Keyword :=
  [.model, .enum, .type, .view, .datasource, .generator]

/-- The word itself. -/
def word : Keyword → String
  | .model => "model"
  | .enum => "enum"
  | .type => "type"
  | .view => "view"
  | .datasource => "datasource"
  | .generator => "generator"

/-- The keyword that is written as the given word. Case matters. -/
def ofWord? (word : String) : Option Keyword :=
  all.find? fun k => k.word == word

@[simp] theorem ofWord?_word (k : Keyword) : ofWord? k.word = some k := by
  cases k <;> decide

theorem mem_all (k : Keyword) : k ∈ all := by
  cases k <;> decide

/-- Whether the block holds settings, whose lines mean nothing to a diagram. -/
def isSettings : Keyword → Bool
  | .datasource | .generator => true
  | _ => false

end Keyword
end SchemaDiagram
