import SchemaDiagram.CommandLine.Session

/-!
# The program

The outermost layer: it gives a run access to the real standard input and the real files, and puts
what the run has written where it belongs. Bytes on standard input that are not UTF-8 are an error
here. A run that breaks off is told on standard error.
-/

namespace SchemaDiagram
namespace CommandLine

/-- The number by which the system says that a file is a directory. -/
def isDirectoryCode : UInt32 := 21

/-- The number by which the system says that something on a path is no directory. -/
def notADirectoryCode : UInt32 := 20

/-- The number by which the system says that a name or a path is too long. -/
def nameTooLongCode : UInt32 := 36

/-- Whether an error has the given number. Some calls give the number and some its negative. -/
def hasCode (code number : UInt32) : Bool :=
  code == number || code == 0 - number

/-- The fault behind an error of the file system. -/
def FileFault.ofError : IO.Error → FileFault
  | .noFileOrDirectory .. => .notFound
  | .inappropriateType _ code details =>
    if hasCode code isDirectoryCode then .isDirectory
    else if hasCode code notADirectoryCode then .notADirectory
    else .other details
  | .invalidArgument _ code details =>
    if hasCode code nameTooLongCode then .nameTooLong else .other details
  | e => .other (toString e)

/-- Runs an action on a file. -/
def attempt {α : Type} (action : IO α) : IO (Except FileFault α) := do
  match ← action.toBaseIO with
  | .ok a => pure (.ok a)
  | .error e => pure (.error (.ofError e))

/-- Reads everything that is left on a stream. -/
partial def readAll (stream : IO.FS.Stream) (read : ByteArray) : IO ByteArray := do
  let chunk ← stream.read 65536
  if chunk.isEmpty then pure read else readAll stream (read ++ chunk)

/-- Access to standard input and to the files of the system. -/
def systemAccess : FileAccess IO where
  readInput := do readAll (← IO.getStdin) .empty
  readFile path := attempt (IO.FS.readBinFile path)
  writeFile path bytes := attempt (IO.FS.writeBinFile path bytes)

end CommandLine
end SchemaDiagram

/-- Runs the program on the arguments of the command line. -/
def main (arguments : List String) : IO UInt32 := do
  let logLevel ← IO.getEnv "LOG_LEVEL"
  match ← SchemaDiagram.CommandLine.Session.run SchemaDiagram.CommandLine.systemAccess
    { arguments, logLevel } with
  | .error why => do
    (← IO.getStderr).putStr (why.message ++ "\n")
    pure 1
  | .ok outcome => do
    (← IO.getStdout).putStr outcome.output
    (← IO.getStderr).putStr outcome.errors
    pure outcome.exitCode.toUInt32
