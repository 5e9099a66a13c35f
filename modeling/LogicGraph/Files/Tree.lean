import LogicGraph.Files.Path
import LogicGraph.Text.Quoted
import LogicGraph.Text.Utf8

/-!
# File trees

The files that a command reads and writes, as a value. A location is the list of names on the way
from the top of the tree; a path is resolved to a location name by name, starting from the working
directory. The operations that change files are those of a disk (`LogicGraph.Disk`).

## Main definitions

* `LogicGraph.FileError` — why an operation on files fails.
* `LogicGraph.FileTree` — files and directories.
* `LogicGraph.FileTree.walk` — the location that a path leads to.
* `LogicGraph.FileTree.isThere`, `LogicGraph.FileTree.readFile` — what is at a path.
* `LogicGraph.FileTree.changesSince` — the files that are new or different.
-/

namespace LogicGraph

/-- What is wrong with a path. -/
inductive FileProblem where
  /-- There is nothing there. -/
  | notFound
  /-- There is something there already. -/
  | alreadyExists
  /-- A name on the way is no directory. -/
  | notADirectory
  /-- There is a directory there. -/
  | isADirectory
  /-- The path holds a null character. -/
  | nullInPath
  /-- The path, or a name in it, is too long. -/
  | nameTooLong
  deriving DecidableEq, Repr

/-- Why an operation on files fails. -/
structure FileError where
  /-- What is wrong. -/
  problem : FileProblem
  /-- The path as it is written. -/
  path : String
  deriving DecidableEq, Repr

/-- The wording of an error. -/
def FileError.message (e : FileError) : String :=
  match e.problem with
  | .notFound => "[Errno 2] No such file or directory: " ++ Text.quoted e.path
  | .alreadyExists => "[Errno 17] File exists: " ++ Text.quoted e.path
  | .notADirectory => "[Errno 20] Not a directory: " ++ Text.quoted e.path
  | .isADirectory => "[Errno 21] Is a directory: " ++ Text.quoted e.path
  | .nullInPath => "embedded null byte"
  | .nameTooLong => "[Errno 36] File name too long: " ++ Text.quoted e.path

/-- The names on the way from the top of the tree. -/
abbrev Location := List String

/-- Files and directories; the top is always a directory. The working directory is called by the
empty name unless it is given another one, so that no path leads to it from outside. -/
structure FileTree where
  /-- The directories below the top. -/
  directories : List Location := [[""]]
  /-- The files. -/
  files : List (Location × List UInt8) := []
  /-- The working directory. -/
  workingDirectory : Location := [""]
  deriving DecidableEq, Repr

namespace FileTree

/-- Whether a location is a directory. -/
def isDirectory (t : FileTree) (spot : Location) : Bool :=
  spot.isEmpty || t.directories.contains spot

/-- Whether a location is a file or a directory. -/
def occupied (t : FileTree) (spot : Location) : Bool :=
  t.isDirectory spot || (t.files.lookup spot).isSome

/-- The greatest number of bytes in a name. -/
def nameLimit : Nat := 255

/-- The greatest number of bytes in a path. -/
def pathLimit : Nat := 4095

/-- The location that names lead to from a location. -/
def walk (t : FileTree) (here : Location) : List String → Except FileProblem Location
  | [] => .ok here
  | name :: rest =>
    if !t.isDirectory here then .error .notADirectory
    else if nameLimit < name.utf8ByteSize then .error .nameTooLong
    else
      let next := if name = ".." then here.dropLast else here ++ [name]
      if t.occupied next then t.walk next rest else .error .notFound

/-- Where the names of a path start. -/
def start (t : FileTree) (p : Path) : Location :=
  if p.root = "" then t.workingDirectory else []

/-- What is wrong with the text of a path, whatever files there are. -/
def textProblem? (p : Path) : Option FileProblem :=
  if p.hasNull then some .nullInPath
  else if pathLimit < p.text.utf8ByteSize then some .nameTooLong
  else none

/-- The location of a path. -/
def resolve (t : FileTree) (p : Path) : Except FileProblem Location :=
  match textProblem? p with
  | some problem => .error problem
  | none => t.walk (t.start p) p.parts

/-- Whether there is something at a path; this cannot be told of one that is too long. -/
def isThere (t : FileTree) (p : Path) : Except FileError Bool :=
  match t.resolve p with
  | .ok _ => .ok true
  | .error .nameTooLong => .error ⟨.nameTooLong, p.text⟩
  | .error _ => .ok false

/-- Whether there is a directory at a path. -/
def directoryAt (t : FileTree) (p : Path) : Bool :=
  match t.resolve p with
  | .ok spot => t.isDirectory spot
  | .error _ => false

/-- The bytes of a file. -/
def readFile (t : FileTree) (p : Path) : Except FileError (List UInt8) :=
  match t.resolve p with
  | .error problem => .error ⟨problem, p.text⟩
  | .ok spot =>
    match t.files.lookup spot with
    | some bytes => .ok bytes
    | none => .error ⟨.isADirectory, p.text⟩

/-- The location that a new name in an existing directory gets. -/
def newLocation (t : FileTree) (p : Path) : Except FileProblem Location :=
  match textProblem? p, p.parts.getLast? with
  | some problem, _ => .error problem
  | none, none => .error .alreadyExists
  | none, some name => do
    let parent ← t.walk (t.start p) p.parts.dropLast
    if !t.isDirectory parent then .error .notADirectory
    else if name = ".." then .error .alreadyExists
    else if nameLimit < name.utf8ByteSize then .error .nameTooLong
    else .ok (parent ++ [name])

/-- The files with one more, or with other contents of one. -/
def putFile (files : List (Location × List UInt8)) (spot : Location) (bytes : List UInt8) :
    List (Location × List UInt8) :=
  (spot, bytes) :: files.filter (·.1 ≠ spot)

/-- The tree with a file at a location. -/
def withFile (t : FileTree) (spot : Location) (bytes : List UInt8) : FileTree :=
  { t with files := putFile t.files spot bytes }

/-- The tree with nothing but a working directory and the directories on the way to it. -/
def atDirectory (spot : Location) : FileTree where
  directories := (List.range spot.length).map fun k => spot.take (k + 1)
  workingDirectory := spot

/-- The locations that names lead through from a location, whether there is something or not. -/
def way (here : Location) : List String → List Location
  | [] => [here]
  | name :: rest => here :: way (if name = ".." then here.dropLast else here ++ [name]) rest

/-- The tree with a file at a path, and with the directories on the way. -/
def add (t : FileTree) (p : Path) (bytes : List UInt8) : FileTree :=
  let spots := way (t.start p) p.parts
  { t with
    directories := spots.dropLast.filter (!t.isDirectory ·) ++ t.directories
    files := putFile t.files (spots.getLast?.getD []) bytes }

/-- The tree with the given files in an otherwise empty working directory. -/
def ofFiles (files : List (String × List UInt8)) : FileTree :=
  files.foldl (fun t f => t.add (Path.ofString f.1) f.2) {}

/-- The files that are new or different. -/
def changesSince (before after : FileTree) : List (Location × List UInt8) :=
  after.files.filter fun f => before.files.lookup f.1 ≠ some f.2

/-- Those of some files that are below the working directory, by their path from there, in order. -/
def fromWorkingDirectory (t : FileTree) (files : List (Location × List UInt8)) :
    List (String × List UInt8) :=
  let here := t.workingDirectory
  let below := files.filter fun f => f.1.take here.length = here
  (below.map fun f => ("/".intercalate (f.1.drop here.length), f.2)).mergeSort fun a b => a.1 ≤ b.1

end FileTree

end LogicGraph
