import SchemaDiagram.Schema.Basic
import SchemaDiagram.Schema.Nesting
import SchemaDiagram.Text.Blank
import SchemaDiagram.Text.Word

/-!
# Arguments

The text between the parentheses of an attribute is a list of arguments separated by commas. A
piece that is a name, a colon and a value, with any blanks around the colon, is a named argument;
every other piece is a positional one. A name with a colon and nothing behind it is positional,
colon and all. Blank pieces are skipped, so a comma too many is no error.
-/

namespace SchemaDiagram
namespace Argument

/-- Reads a piece without surrounding blanks as a name, a colon and a value. -/
def readNamed (piece : List Char) : Option Argument :=
  match Text.readName piece with
  | none => none
  | some (name, rest) => match Text.stripStart rest with
    | ':' :: value =>
      if (Text.strip value).isEmpty then none
      else some { name := some (String.ofList name), value := String.ofList (Text.strip value) }
    | _ => none

/-- Reads a piece as an argument; a blank piece is none. -/
def ofPiece (piece : List Char) : Option Argument :=
  let text := Text.strip piece
  if text.isEmpty then none
  else match readNamed text with
    | some arg => some arg
    | none => some { value := String.ofList text }

/-- Reads a list of arguments. -/
def parseList (text : List Char) : Except Cause (List Argument) :=
  (splitAtCommas text).map (List.filterMap ofPiece)

end Argument
end SchemaDiagram
