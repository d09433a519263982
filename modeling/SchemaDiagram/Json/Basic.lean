import SchemaDiagram.Decimal.Shortest
import SchemaDiagram.Text.Quoted

/-!
# JSON values

The values that tools take and return. The members of an object keep their order, and a number that
was written with a fraction or an exponent is not the same as a whole number.
-/

namespace SchemaDiagram

/-- A JSON value. -/
inductive Json where
  | null
  | bool (value : Bool)
  | integer (value : Int)
  | decimal (value : Decimal)
  | string (value : String)
  | array (items : List Json)
  | object (members : List (String × Json))
  deriving Inhabited

namespace Json

/-- The member of the given name, if the value is an object that has one. -/
def member? (name : String) : Json → Option Json
  | .object members => members.lookup name
  | _ => none

/-- The value of a natural number. -/
def ofNat (n : Nat) : Json := .integer n

/-- A string, or null where there is none. -/
def ofOption : Option String → Json
  | some s => .string s
  | none => .null

/-- Whether the value counts as true where any value may stand for a yes or a no: everything does,
except null, false, the zeros, and empty strings, arrays and objects. -/
def isTruthy : Json → Bool
  | .null => false
  | .bool b => b
  | .integer n => n != 0
  | .decimal d => match Binary.ofDecimal? d with
    | some b => b.mantissa != 0
    | none => true
  | .string s => !s.isEmpty
  | .array items => !items.isEmpty
  | .object members => !members.isEmpty

/-! ## Values in messages

A message that quotes a value writes it on one line, with text in quotes and with `None`, `True` and
`False` for the three constants. -/

mutual

/-- The value as a message shows it. -/
def shown : Json → List Char
  | .null => ['N', 'o', 'n', 'e']
  | .bool true => ['T', 'r', 'u', 'e']
  | .bool false => ['F', 'a', 'l', 's', 'e']
  | .integer n => (toString n).toList
  | .decimal d => d.text
  | .string s => Text.quoted s.toList
  | .array items => '[' :: (shownItems items ++ [']'])
  | .object members => '{' :: (shownMembers members ++ ['}'])

/-- The items of an array as a message shows them. -/
def shownItems : List Json → List Char
  | [] => []
  | [v] => shown v
  | v :: w :: vs => shown v ++ ',' :: ' ' :: shownItems (w :: vs)

/-- The members of an object as a message shows them. -/
def shownMembers : List (String × Json) → List Char
  | [] => []
  | [(k, v)] => Text.quoted k.toList ++ ':' :: ' ' :: shown v
  | (k, v) :: m :: ms =>
    Text.quoted k.toList ++ ':' :: ' ' :: (shown v ++ ',' :: ' ' :: shownMembers (m :: ms))

end

end Json
end SchemaDiagram
