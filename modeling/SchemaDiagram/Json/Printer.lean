import SchemaDiagram.Json.Basic

/-!
# Writing JSON

JSON text is written with ASCII characters only. A string escapes the quote, the backslash and
every character outside the visible ASCII range; five controls have escapes of one letter, and a
character past U+FFFF is written as the two halves of its surrogate pair.

There are two layouts. On one line, a blank follows every comma and every colon. Indented, every
item and every member has a line of its own, two blanks deeper than the bracket around it, and
only a colon is followed by a blank. Empty arrays and objects are a pair of brackets in both.
-/

namespace SchemaDiagram
namespace Json

/-! ## Strings -/

/-- A UTF-16 code unit as an escape. -/
def unitEscape (n : Nat) : List Char :=
  '\\' :: 'u' :: Text.hexDigits 4 n

/-- One character of a string as it is written. -/
def encodeChar (c : Char) : List Char :=
  if c = '"' then ['\\', '"']
  else if c = '\\' then ['\\', '\\']
  else if c = '\n' then ['\\', 'n']
  else if c = '\r' then ['\\', 'r']
  else if c = '\t' then ['\\', 't']
  else if c = '\x08' then ['\\', 'b']
  else if c = '\x0C' then ['\\', 'f']
  else if 0x20 ≤ c.toNat ∧ c.toNat ≤ 0x7E then [c]
  else if c.toNat < 0x10000 then unitEscape c.toNat
  else
    unitEscape (0xD800 + (c.toNat - 0x10000) / 0x400)
      ++ unitEscape (0xDC00 + (c.toNat - 0x10000) % 0x400)

/-- A string as it is written, with its quotes. -/
def encodeString (s : List Char) : List Char :=
  '"' :: (s.flatMap encodeChar ++ ['"'])

/-! ## Layout -/

/-- How a value is laid out: all on one line, or with one item to a line at a depth of
indentation. -/
inductive Layout where
  | oneLine
  | indented (depth : Nat)
  deriving DecidableEq, Repr

namespace Layout

/-- The layout inside one more pair of brackets. -/
def inner : Layout → Layout
  | .oneLine => .oneLine
  | .indented depth => .indented (depth + 1)

/-- What stands in front of an item, and in front of a closing bracket. -/
def lineStart : Layout → List Char
  | .oneLine => []
  | .indented depth => '\n' :: List.replicate (2 * depth) ' '

/-- What stands between two items. -/
def separator : Layout → List Char
  | .oneLine => [',', ' ']
  | .indented depth => ',' :: lineStart (.indented depth)

end Layout

/-! ## Values -/

mutual

/-- A value in the given layout. -/
def print (l : Layout) : Json → List Char
  | .null => ['n', 'u', 'l', 'l']
  | .bool true => ['t', 'r', 'u', 'e']
  | .bool false => ['f', 'a', 'l', 's', 'e']
  | .integer n => (toString n).toList
  | .decimal d => d.text
  | .string s => encodeString s.toList
  | .array [] => ['[', ']']
  | .array (v :: vs) =>
    '[' :: (l.inner.lineStart ++ printItems l.inner (v :: vs) ++ l.lineStart ++ [']'])
  | .object [] => ['{', '}']
  | .object (m :: ms) =>
    '{' :: (l.inner.lineStart ++ printMembers l.inner (m :: ms) ++ l.lineStart ++ ['}'])

/-- Items with the separators between them. -/
def printItems (l : Layout) : List Json → List Char
  | [] => []
  | [v] => print l v
  | v :: w :: vs => print l v ++ l.separator ++ printItems l (w :: vs)

/-- Members with the separators between them. -/
def printMembers (l : Layout) : List (String × Json) → List Char
  | [] => []
  | [(k, v)] => encodeString k.toList ++ ':' :: ' ' :: print l v
  | (k, v) :: m :: ms =>
    encodeString k.toList ++ ':' :: ' ' :: (print l v ++ l.separator ++ printMembers l (m :: ms))

end

/-- The value on one line. -/
def oneLine (v : Json) : String :=
  String.ofList (v.print .oneLine)

/-- The value with one item to a line. -/
def indented (v : Json) : String :=
  String.ofList (v.print (.indented 0))

end Json
end SchemaDiagram
