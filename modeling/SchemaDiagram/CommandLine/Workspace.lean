/-!
# Files and directories

A workspace is the part of a file system that a run can see: a directory with files and further
directories in it. A path is followed one name at a time, and every name but the last has to lead
to a directory. The empty name and a single dot stay where they are, and two dots go up, also past
the top of the workspace; nothing is known about what lies out there.

Reading and writing fail for the reasons a file system gives, and a write that fails leaves the
workspace as it was.
-/

namespace SchemaDiagram
namespace CommandLine

/-- Why a file cannot be read or written. -/
inductive FileFault where
  | notFound
  | isDirectory
  | notADirectory
  | nameTooLong
  /-- Any other reason, in the words of the system. -/
  | other (reason : String)
  deriving DecidableEq, Repr

/-- The fault in words. -/
def FileFault.message : FileFault → String
  | .notFound => "No such file or directory"
  | .isDirectory => "Is a directory"
  | .notADirectory => "Not a directory"
  | .nameTooLong => "File name too long"
  | .other reason => reason

/-- A place in the file system, as the names that lead to it from the top of the workspace. -/
abbrev Location := List String

/-- The name that leads to the directory above. -/
def upwards : String := ".."

/-- The directory above a place. Out of the workspace the way is not forgotten. -/
def Location.parent (l : Location) : Location :=
  match l.getLast? with
  | none => [upwards]
  | some name =>
    if name = upwards then l ++ [upwards] else if name = "/" then l else l.dropLast

/-- The files and directories a run can see. -/
structure Workspace where
  directories : List Location := []
  files : List (Location × ByteArray) := []

namespace Workspace

/-- The contents of the file at a place. -/
def file? (w : Workspace) (l : Location) : Option ByteArray :=
  w.files.lookup l

/-- Whether there is a directory at a place. The top of the workspace is one, and so is everything
above it. -/
def isDirectory (w : Workspace) (l : Location) : Bool :=
  (l.all fun name => name == upwards || name == "/") || w.directories.contains l

/-- The names of a path, and the place from which they are followed. -/
def split (path : String) : Location × List String :=
  let names := path.splitOn "/"
  if path.startsWith "/" then (["/"], names) else ([], names)

/-- The most bytes that a name may have, in UTF-8. -/
def maxNameBytes : Nat := 255

/-- The most bytes that a path may have, in UTF-8. -/
def maxPathBytes : Nat := 4095

/-- Whether a name on the way to a place is too long for any file. -/
def hasLongName (l : Location) : Bool :=
  l.any fun name => decide (maxNameBytes < name.utf8ByteSize)

/-- Why there is nothing at a place. -/
def absence (l : Location) : FileFault :=
  if hasLongName l then .nameTooLong else .notFound

/-- Why a path as a whole leads nowhere, if it does. -/
def pathFault? (path : String) : Option FileFault :=
  if path = "" then some .notFound
  else if maxPathBytes < path.utf8ByteSize then some .nameTooLong
  else none

/-- Follows one name to a directory. -/
def enter (w : Workspace) (l : Location) (name : String) : Except FileFault Location :=
  if name = "" ∨ name = "." then .ok l
  else if name = upwards then .ok l.parent
  else if w.isDirectory (l ++ [name]) then .ok (l ++ [name])
  else if (w.file? (l ++ [name])).isSome then .error .notADirectory
  else .error (absence (l ++ [name]))

/-- Follows several names to a directory. -/
def walk (w : Workspace) (l : Location) : List String → Except FileFault Location
  | [] => .ok l
  | name :: names => match w.enter l name with
    | .error e => .error e
    | .ok l' => w.walk l' names

/-- The place where the last name of a path leads. A path that ends in a slash leads to a directory,
and so does one that ends in dots. -/
def locate (w : Workspace) (path : String) : Except FileFault Location :=
  let (start, names) := split path
  match names.getLast? with
  | none => .error .notFound
  | some last =>
    match w.walk start names.dropLast with
    | .error e => .error e
    | .ok l =>
      if last = "" ∨ last = "." ∨ last = upwards then w.enter l last else .ok (l ++ [last])

/-- The contents of the file that a path leads to. -/
def read (w : Workspace) (path : String) : Except FileFault ByteArray :=
  match pathFault? path with
  | some fault => .error fault
  | none => match w.locate path with
    | .error e => .error e
    | .ok l =>
      if w.isDirectory l then .error .isDirectory
      else match w.file? l with
        | some bytes => .ok bytes
        | none => .error (absence l)

/-- The path without the slashes it ends with. -/
def withoutEndSlashes (path : String) : String :=
  String.ofList (path.toList.reverse.dropWhile (· == '/')).reverse

/-- The files after one of them was given the bytes; it is added if it is new. -/
def put (l : Location) (bytes : ByteArray) :
    List (Location × ByteArray) → List (Location × ByteArray)
  | [] => [(l, bytes)]
  | f :: fs => if f.1 = l then (l, bytes) :: fs else f :: put l bytes fs

/-- The workspace after the bytes were written to the file that a path leads to. A path that ends in
a slash can only mean a directory, even if there is none. -/
def write (w : Workspace) (path : String) (bytes : ByteArray) : Except FileFault Workspace :=
  match pathFault? path with
  | some fault => .error fault
  | none => match w.locate (withoutEndSlashes path) with
    | .error e => .error e
    | .ok l =>
      if path.endsWith "/" ∨ w.isDirectory l then .error .isDirectory
      else if hasLongName l then .error .nameTooLong
      else .ok { w with files := put l bytes w.files }

/-- Every directory that a place lies in, from the top down. -/
def enclosing : Location → List Location
  | [] => []
  | [_] => []
  | name :: names => [name] :: (enclosing names).map (name :: ·)

/-- The workspace with the given directories and files. The directories that they lie in are there,
too. -/
def ofPaths (directories : List String) (files : List (String × ByteArray)) : Workspace :=
  let place (path : String) : Location :=
    (path.splitOn "/").filter fun name => name ≠ "" ∧ name ≠ "."
  let dirs := directories.map place
  let fs := files.map fun f => (place f.1, f.2)
  { directories := dirs.flatMap (fun d => enclosing d ++ [d]) ++ fs.flatMap fun f => enclosing f.1
    files := fs }

/-- Whether a place lies outside of the workspace. -/
def isOutside (l : Location) : Bool :=
  l.head?.any fun name => name == upwards || name == "/"

/-- The files that are new in the second workspace, or have other contents, with their paths. Files
outside of the workspace are not among them. -/
def changes (before after : Workspace) : List (String × ByteArray) :=
  (after.files.filter fun f => before.file? f.1 != some f.2 && !isOutside f.1).map fun f =>
    ("/".intercalate f.1, f.2)

end Workspace
end CommandLine
end SchemaDiagram
