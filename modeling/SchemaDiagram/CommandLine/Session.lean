import SchemaDiagram.CommandLine.Arguments
import SchemaDiagram.CommandLine.Workspace
import SchemaDiagram.Drawing

/-!
# A run of the program

A run reads a schema, from a file or from standard input, and draws its diagram into a file or to
standard output. What the run does with files is left open: `Session.run` asks for them through
`FileAccess`, so the same definition runs on a real file system and on a `Workspace`, where it is
a pure function.

The order of the work is fixed. The level of the log is looked at first and the command line
second. Then the input is read, the diagram is drawn, and only after that is the output touched. A
file that is written to is emptied when it is opened, and what follows can fail only if the diagram
has no encoding. This takes a standard input with bytes that are not UTF-8, and a place that does
not take these for an error (`Invocation.inputErrors`). A run that fails for any other reason has
not written anything.
-/

namespace SchemaDiagram
namespace CommandLine

/-- What is given to a run. -/
structure Invocation where
  arguments : List String
  /-- The level of the log, if one is asked for. -/
  logLevel : Option String := none
  /-- What becomes of bytes on standard input that are not UTF-8. This is settled by the place where
  the program runs and not by its arguments. -/
  inputErrors : Text.ErrorHandler := .strict

/-- How a run ends, and what it has put on standard output and standard error. How a character that
stands for a byte is shown there is up to the place where the program runs. -/
structure Outcome where
  exitCode : Nat
  output : String := ""
  errors : String := ""
  deriving DecidableEq, Repr

/-- Why a run breaks off without an exit code of its own. -/
inductive Breakdown where
  /-- There is no level of that name. -/
  | unknownLevel (name : String)
  /-- The input is not valid UTF-8. -/
  | undecodable
  /-- A path has a zero character in it, which no path can. -/
  | zeroInPath
  /-- There is a diagram to be written to a file that was given no name. -/
  | unnamedOutput
  /-- The diagram to be written to a file has a character in it that stands for a byte. -/
  | unencodable
  deriving DecidableEq, Repr

/-- The breakdown in words. -/
def Breakdown.message : Breakdown → String
  | .unknownLevel name => "Level '" ++ name ++ "' does not exist"
  | .undecodable => "the input is not valid UTF-8"
  | .zeroInPath => "embedded null byte"
  | .unnamedOutput => "the output file has no name"
  | .unencodable => "the diagram cannot be written in UTF-8"

/-- How a run gets at standard input and at files. A file that is written to has nothing in it but
the given bytes. -/
structure FileAccess (m : Type → Type) where
  readInput : m ByteArray
  readFile : String → m (Except FileFault ByteArray)
  writeFile : String → ByteArray → m (Except FileFault Unit)

/-! ## Fixed texts -/

/-- The name of the program. -/
def programName : String := "prisma-d2"

/-- The version of the program. -/
def version : String := "0.1.0"

/-- The line that shows how the program is called. -/
def usageLine : String :=
  "usage: prisma-d2 [-h] [-o OUTPUT_FILE] [--version] [input_file]\n"

/-- The text that answers a request for help. -/
def helpText : String :=
  usageLine ++ "\n" ++
  "Visualize a Prisma schema as a d2 diagram.\n" ++
  "\n" ++
  "positional arguments:\n" ++
  "  input_file            Parse the Prisma schema from a file. Defaults to\n" ++
  "                        stdin.\n" ++
  "\n" ++
  "options:\n" ++
  "  -h, --help            show this help message and exit\n" ++
  "  -o OUTPUT_FILE, --output-file OUTPUT_FILE\n" ++
  "                        Write the d2 diagram to a file. Defaults to stdout.\n" ++
  "  --version             show program's version number and exit\n"

/-- The level of the log if none is asked for. -/
def defaultLevel : Log.Level := .warning

/-! ## The run -/

namespace Outcome

/-- The end of a run that has reported the given events. -/
def ofEvents (threshold : Log.Level) (exitCode : Nat) (events : List Log.Event)
    (output : String) : Outcome :=
  { exitCode, output, errors := Log.text threshold events }

/-- The end of a run that was called in a wrong way. -/
def ofUsageError (e : UsageError) : Outcome :=
  { exitCode := 2, errors := usageLine ++ programName ++ ": error: " ++ e.message ++ "\n" }

end Outcome

/-- Whether a path has a zero character in it. -/
def hasZero (path : String) : Bool :=
  path.toList.contains '\x00'

/-- What came of reading the input. -/
inductive Source where
  | text (text : Text.Decoded)
  | unavailable (path : String) (fault : FileFault)
  | broken (why : Breakdown)

/-- The text in the given bytes, if they can be decoded. -/
def Source.ofText? : Option Text.Decoded → Source
  | some t => .text t
  | none => .broken .undecodable

namespace Session

variable {m : Type → Type} [Monad m]

/-- Reads the input. -/
def readSource (access : FileAccess m) (errors : Text.ErrorHandler) : Option String → m Source
  | none => do
    let bytes ← access.readInput
    pure (.ofText? (Text.ofStream? errors bytes))
  | some path =>
    if hasZero path then pure (.broken .zeroInPath)
    else do
      match ← access.readFile path with
      | .error fault => pure (.unavailable path fault)
      | .ok bytes => pure (.ofText? (Text.ofFile? bytes))

/-- Puts the diagram of a text where it was asked for, after the given events were reported. On
standard output, characters that stand for bytes are no hindrance: there they become these bytes
again. -/
def writeDiagram (access : FileAccess m) (threshold : Log.Level) (events : List Log.Event)
    (text : Text.Decoded) (diagram : String) : Destination → m (Except Breakdown Outcome)
  | .standardOutput => pure (.ok (.ofEvents threshold 0 events diagram))
  | .unnamedFile => pure (.error .unnamedOutput)
  | .file path =>
    if hasZero path then pure (.error .zeroInPath)
    else do
      -- the file is opened first, and so it is empty if there is nothing to write to it
      let bytes := text.encode? diagram
      match ← access.writeFile path (bytes.getD .empty) with
      | .error fault =>
        pure (.ok (.ofEvents threshold 1 (events ++ [.outputUnavailable path fault.message]) ""))
      | .ok () =>
        if bytes.isSome then
          pure (.ok (.ofEvents threshold 0 (events ++ [.diagramWritten path]) ""))
        else pure (.error .unencodable)

/-- Draws the schema of the input. -/
def drawSource (access : FileAccess m) (threshold : Log.Level) (output : Destination) :
    Source → m (Except Breakdown Outcome)
  | .broken why => pure (.error why)
  | .unavailable path fault =>
    pure (.ok (.ofEvents threshold 1 [.inputUnavailable path fault.message] ""))
  | .text text =>
    let result := traceDiagram text.text
    match result.outcome with
    | .error e =>
      pure (.ok (.ofEvents threshold 1 (result.events ++ [.schemaInvalid e.message]) ""))
    | .ok d => writeDiagram access threshold result.events text d.render output

/-- Does what is asked for. -/
def perform (access : FileAccess m) (errors : Text.ErrorHandler) (threshold : Log.Level) :
    Request → m (Except Breakdown Outcome)
  | .help => pure (.ok { exitCode := 0, output := helpText })
  | .version => pure (.ok { exitCode := 0, output := programName ++ " " ++ version ++ "\n" })
  | .draw input output => do
    let source ← readSource access errors input
    drawSource access threshold output source

/-- The level of the log, from its name. -/
def threshold : Option String → Except Breakdown Log.Level
  | none => .ok defaultLevel
  | some name => (Log.Level.ofName name).mapError .unknownLevel

/-- Runs the program. -/
def run (access : FileAccess m) (invocation : Invocation) : m (Except Breakdown Outcome) :=
  match threshold invocation.logLevel with
  | .error why => pure (.error why)
  | .ok level => match Request.ofArguments invocation.arguments with
    | .error e => pure (.ok (.ofUsageError e))
    | .ok request => perform access invocation.inputErrors level request

end Session

/-! ## Running on a workspace -/

/-- Access to the files of a workspace, with the given bytes on standard input. -/
def Workspace.access (input : ByteArray) : FileAccess (StateM Workspace) where
  readInput := pure input
  readFile path := do
    let w ← get
    pure (w.read path)
  writeFile path bytes := do
    let w ← get
    match w.write path bytes with
    | .error fault => pure (.error fault)
    | .ok w' => do
      set w'
      pure (.ok ())

/-- The end of a run on a workspace, and the workspace after it. -/
def runOn (w : Workspace) (input : ByteArray) (invocation : Invocation) :
    Except Breakdown Outcome × Workspace :=
  (Session.run (Workspace.access input) invocation).run w

end CommandLine
end SchemaDiagram
