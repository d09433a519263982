import SchemaDiagram.Schema.Resolve
import SchemaDiagram.Text.Decoding

/-!
# Reading a schema

Reading a schema takes two passes: one that groups the lines of the text into blocks, and one that
looks up the types. An error of the first pass wins over one of the second, so a text with a
mistake in its form is reported by that mistake however many of its types are missing.

One byte order mark at the very start of the text is dropped.
-/

namespace SchemaDiagram
namespace Schema

/-- Reads the schema that a sequence of characters spells. -/
def parseChars (text : List Char) : Except SchemaError Schema :=
  match Block.ofLines (Text.lines (Text.dropMark text)) with
  | .error e => .error e
  | .ok blocks => ofBlocks blocks

/-- Reads a schema. -/
def parse (text : String) : Except SchemaError Schema :=
  parseChars text.toList

end Schema
end SchemaDiagram
