import SchemaDiagram.Text.Digit
import SchemaDiagram.Text.Quoted

/-!
# Command line arguments

The command line takes at most one operand, the file to read, and three switches. A switch has a
short spelling, a long one, or both. A long spelling may be shortened as long as it stays clear
which one is meant. A value is attached to a switch with an equals sign, or directly to a short
spelling, or it is the next argument. Short switches without a value can be run together, whether or
not there is an equals sign behind the first. Everything behind a separator is an operand.

Reading goes in two steps. `Word.ofArgument` says of each argument by itself whether it is an
operand, a switch or unknown. `Request.ofWords` then goes through the words from left to right. A
request for help or for the version ends the reading where it stands, so nothing after it matters;
what could not be used is reported only at the end.

There are two customs of reading what is attached to a switch, and the older one is followed. A
separator that is attached is taken away, so that no name is left (`Destination.ofAttached`), and
what is attached to a switch without a value has to be switches from end to end (`checkCluster`). By
the newer custom the separator is a name like any other, so `-o--` names a file, and the first
switch acts before something behind it is found to be none, so `-hx` asks for help.
-/

namespace SchemaDiagram
namespace CommandLine

/-- A switch of the command line. -/
inductive Switch where
  | help
  | output
  | version
  deriving DecidableEq, Repr

namespace Switch

/-- Every switch. -/
def all : List Switch :=
  [.help, .output, .version]

/-- The ways to write the switch, short before long. -/
def spellings : Switch → List String
  | .help => ["-h", "--help"]
  | .output => ["-o", "--output-file"]
  | .version => ["--version"]

/-- Whether the switch has a value. -/
def takesValue : Switch → Bool
  | .output => true
  | _ => false

/-- The switch that is written as the given text. -/
def ofSpelling? (text : String) : Option Switch :=
  all.find? fun s => s.spellings.contains text

/-- The switches and spellings that a text may be short for. -/
def longMatches (beginning : List Char) : List (Switch × String) :=
  (all.flatMap fun s => s.spellings.map fun sp => (s, sp)).filter fun m =>
    beginning.isPrefixOf m.2.toList

end Switch

/-- An argument, taken by itself. -/
inductive Word where
  | operand (text : String)
  | switch (switch : Switch) (isLong : Bool) (attached : Option (List Char))
  | unknown (text : String)
  deriving DecidableEq, Repr

/-- A mistake on the command line. -/
inductive UsageError where
  /-- A switch without the value it needs. -/
  | missingValue (switch : Switch)
  /-- A value for a switch that has none. -/
  | ignoredValue (switch : Switch) (value : List Char)
  /-- A shortened spelling that may stand for several. -/
  | ambiguous (text : String) (candidates : List String)
  /-- Arguments for which there is no use. -/
  | unrecognized (arguments : List String)
  deriving DecidableEq, Repr

/-- The mistake in words. -/
def UsageError.message : UsageError → String
  | .missingValue s => "argument " ++ "/".intercalate s.spellings ++ ": expected one argument"
  | .ignoredValue s value =>
    "argument " ++ "/".intercalate s.spellings ++ ": ignored explicit argument "
      ++ String.ofList (Text.quoted value)
  | .ambiguous text candidates =>
    "ambiguous option: " ++ text ++ " could match " ++ ", ".intercalate candidates
  | .unrecognized arguments => "unrecognized arguments: " ++ " ".intercalate arguments

/-! ## One argument -/

/-- Cuts a text at its first equals sign. -/
def cutAtEquals : List Char → List Char × Option (List Char)
  | [] => ([], none)
  | c :: r => if c = '=' then ([], some r) else (c :: (cutAtEquals r).1, (cutAtEquals r).2)

/-- Whether the text, but for a line feed at its end, consists of digits. -/
def endsInDigits (text : List Char) : Bool :=
  match text.dropWhile Text.isDecimalDigit with
  | [] | ['\n'] => (text.head?.map Text.isDecimalDigit).getD false
  | _ => false

/-- Whether the text after a dash makes a negative number: digits, or a point among digits with at
least one behind it. -/
def isNumeral (text : List Char) : Bool :=
  endsInDigits text ||
    match text.dropWhile Text.isDecimalDigit with
    | '.' :: behind => endsInDigits behind
    | _ => false

namespace Word

/-- A word of which it is not known what switch it is. It may be a negative number or hold a space,
which no switch does, and then it is an operand. -/
def ofUnmatched (text : String) : Word :=
  if isNumeral (text.toList.drop 1) || text.toList.contains ' ' then .operand text
  else .unknown text

/-- Takes one argument by itself. -/
def ofArgument (text : String) : Except UsageError Word :=
  match text.toList with
  | '-' :: second :: rest =>
    let (beginning, value) := cutAtEquals ('-' :: second :: rest)
    match Switch.ofSpelling? text with
    | some s => .ok (.switch s (second == '-') none)
    | none => match Switch.ofSpelling? (String.ofList beginning), value with
      | some s, some _ => .ok (.switch s (second == '-') value)
      | _, _ =>
        if second = '-' then
          match Switch.longMatches beginning with
          | [] => .ok (ofUnmatched text)
          | [(s, _)] => .ok (.switch s true value)
          | several => .error (.ambiguous text (several.map Prod.snd))
        else
          match Switch.ofSpelling? (String.ofList ['-', second]) with
          | some s => .ok (.switch s false (some rest))
          | none => .ok (ofUnmatched text)
  | _ => .ok (.operand text)

/-- Takes each of several arguments by itself. -/
def ofArguments : List String → Except UsageError (List Word)
  | [] => .ok []
  | a :: as => match ofArgument a with
    | .error e => .error e
    | .ok w => (ofArguments as).map (w :: ·)

end Word

/-! ## All arguments -/

/-- The argument behind which everything is an operand. -/
def separator : String := "--"

/-- Where a diagram is written to. -/
inductive Destination where
  | standardOutput
  | file (path : String)
  /-- A file was asked for, but it was given no name. -/
  | unnamedFile
  deriving DecidableEq, Repr

/-- The file that a value attached to a switch names. The separator is no name, by the older
custom. -/
def Destination.ofAttached (value : List Char) : Destination :=
  if String.ofList value = separator then .unnamedFile else .file (String.ofList value)

/-- What is asked for. -/
inductive Request where
  | help
  | version
  /-- Draw the schema of a file, or of standard input. -/
  | draw (input : Option String) (output : Destination)
  deriving DecidableEq, Repr

/-- What is known after some of the words. -/
structure Reading where
  input : Option String := none
  output : Destination := .standardOutput
  unused : List String := []
  deriving DecidableEq, Repr

namespace Reading

/-- The request at the end of the words. -/
def close (r : Reading) : Except UsageError Request :=
  if r.unused.isEmpty then .ok (.draw r.input r.output) else .error (.unrecognized r.unused)

/-- The request at the end of the words, when the operands after a `--` are still to be used. The
`--` is one of the arguments without a use if no operand after it has one. -/
def closeWith (r : Reading) : Option (List String) → Except UsageError Request
  | none => r.close
  | some operands => match r.input, operands with
    | some _, _ => close { r with unused := r.unused ++ separator :: operands }
    | none, [] => r.close
    | none, first :: others =>
      close { r with input := some first, unused := r.unused ++ others }

end Reading

/-- What a switch does once its spelling has been read to the end. -/
inductive SwitchEffect where
  /-- It acts at once. -/
  | answer (request : Request)
  /-- It says where to write. -/
  | write (destination : Destination)
  /-- The next argument says where to write. -/
  | writeNext
  deriving DecidableEq, Repr

/-- Checks what is attached to a switch without a value. It has to be further short switches that
are run together with the first, each of which is one character. They have no effect beside that
of the first, but a mistake among them is one all the same: the switch in front of a character
that is no switch is told to have a value it does not take. The last may take what is left for its
value, or the next argument if nothing is left. This is the older custom, too: no switch acts before
all of them are known. -/
def checkCluster (s : Switch) (hasNext : Bool) : List Char → Except UsageError Unit
  | [] => .error (.ignoredValue s [])
  | c :: rest => match Switch.ofSpelling? (String.ofList ['-', c]) with
    | none => .error (.ignoredValue s (c :: rest))
    | some next =>
      if rest.isEmpty then
        if next.takesValue && !hasNext then .error (.missingValue next) else .ok ()
      else if next.takesValue then .ok ()
      else checkCluster next hasNext rest

/-- What a switch does. It is known whether the next argument can be its value. -/
def switchEffect (s : Switch) (isLong : Bool) (attached : Option (List Char)) (hasNext : Bool) :
    Except UsageError SwitchEffect :=
  match s, attached with
  | .output, some value => .ok (.write (.ofAttached value))
  | .output, none => if hasNext then .ok .writeNext else .error (.missingValue s)
  | .help, none => .ok (.answer .help)
  | .version, none => .ok (.answer .version)
  | s, some value =>
    if isLong then .error (.ignoredValue s value)
    else (checkCluster s hasNext value).map fun _ =>
      .answer (if s = .help then .help else .version)

namespace Request

/-- Whether the next word can be the value of a switch. -/
def startsWithOperand : List Word → Bool
  | .operand _ :: _ => true
  | _ => false

/-- Goes through the words. `trailing` are the operands after a separator, if there is one; a
separator right behind the operand that is used is passed over. -/
def ofWords (trailing : Option (List String)) (r : Reading) :
    List Word → Except UsageError Request
  | [] => r.closeWith trailing
  | .unknown text :: words => ofWords trailing { r with unused := r.unused ++ [text] } words
  | .operand text :: words => match r.input, words, trailing with
    | none, [], some operands =>
      Reading.close { r with input := some text, unused := r.unused ++ operands }
    | none, words, _ => ofWords trailing { r with input := some text } words
    | some _, words, _ => ofWords trailing { r with unused := r.unused ++ [text] } words
  | .switch s isLong attached :: words =>
    match switchEffect s isLong attached (startsWithOperand words), words with
    | .error e, _ => .error e
    | .ok (.answer request), _ => .ok request
    | .ok (.write destination), words => ofWords trailing { r with output := destination } words
    | .ok .writeNext, .operand path :: words =>
      ofWords trailing { r with output := .file path } words
    | .ok .writeNext, _ => .error (.missingValue s)

/-- The operands after the first separator, if there is one. -/
def trailingOperands (arguments : List String) : Option (List String) :=
  match arguments.dropWhile (· ≠ separator) with
  | [] => none
  | _ :: operands => some operands

/-- Reads the arguments of the command line. -/
def ofArguments (arguments : List String) : Except UsageError Request :=
  match Word.ofArguments (arguments.takeWhile (· ≠ separator)) with
  | .error e => .error e
  | .ok words => ofWords (trailingOperands arguments) {} words

end Request
end CommandLine
end SchemaDiagram
