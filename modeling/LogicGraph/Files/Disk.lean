import LogicGraph.Files.Tree

/-!
# Disks

A disk carries out what is asked of a file tree, or fails at it. Its failures are not about paths:
it may be full, it may refuse access, or it may be damaged. Nothing is known of them but what they
leave behind. In particular a file is opened before it is written, which empties it, and a disk that
fails between the two leaves a part of the bytes.

## Main definitions

* `LogicGraph.Disk` — where a disk fails.
* `LogicGraph.Disk.sound` — the disk that never fails.
* `LogicGraph.Disk.Update` — an operation that changes files.
* `LogicGraph.Disk.readFile`, `LogicGraph.Disk.makeDirectories`, `LogicGraph.Disk.writeFile` — the
  operations.
-/

namespace LogicGraph

/-- How a disk keeps a file from being written. -/
inductive WriteFault (ε : Type) where
  /-- The file is not opened and stays as it is. -/
  | unopened (x : ε)
  /-- The file is opened, and then writing stops after some bytes. -/
  | cutOff (count : Nat) (x : ε)
  deriving DecidableEq, Repr

/-- Where a disk fails, for each operation that the files and the path allow; `ε` are its
failures. -/
structure Disk (ε : Type) where
  /-- The failure to read a file. -/
  readFault? : FileTree → Path → Option ε
  /-- The failure to make a directory. -/
  makeFault? : FileTree → Path → Option ε
  /-- The failure to write bytes to a file. -/
  writeFault? : FileTree → Path → List UInt8 → Option (WriteFault ε)

namespace Disk

variable {ε : Type}

/-- The disk that never fails. -/
def sound : Disk ε where
  readFault? _ _ := none
  makeFault? _ _ := none
  writeFault? _ _ _ := none

/-- The bytes of a file. -/
def readFile (d : Disk ε) (t : FileTree) (p : Path) : Except (FileError ⊕ ε) (List UInt8) :=
  match t.readFile p with
  | .error e => .error (.inl e)
  | .ok bytes =>
    match d.readFault? t p with
    | some x => .error (.inr x)
    | none => .ok bytes

/-- An operation that changes files. If it fails, then what it has done before stays done. -/
abbrev Update (ε α : Type) := EStateM (FileError ⊕ ε) FileTree α

/-- Makes one directory. -/
def makeDirectory (d : Disk ε) (t : FileTree) (p : Path) : Except (FileProblem ⊕ ε) FileTree :=
  match t.newLocation p with
  | .error problem => .error (.inl problem)
  | .ok spot =>
    if t.occupied spot then .error (.inl .alreadyExists)
    else
      match d.makeFault? t p with
      | some x => .error (.inr x)
      | none => .ok { t with directories := spot :: t.directories }

/-- Makes a directory, unless it is there already. -/
def ensureDirectory (d : Disk ε) (p : Path) : Update ε Unit := fun t =>
  match d.makeDirectory t p with
  | .ok made => .ok () made
  | .error (.inl problem) =>
    if problem ≠ .nullInPath ∧ t.directoryAt p then .ok () t else .error (.inl ⟨problem, p.text⟩) t
  | .error (.inr x) => .error (.inr x) t

/-- Makes a directory and the directories on the way; the names come in reverse. -/
def makeAll (d : Disk ε) (root : String) : List String → Update ε Unit
  | [] => d.ensureDirectory ⟨root, []⟩
  | name :: parents => fun t =>
    let p : Path := ⟨root, (name :: parents).reverse⟩
    match d.makeDirectory t p with
    | .error (.inl .notFound) =>
      match d.makeAll root parents t with
      | .ok () made => d.ensureDirectory p made
      | .error e left => .error e left
    | _ => d.ensureDirectory p t

/-- Makes a directory and the directories on the way, as far as they are not there. -/
def makeDirectories (d : Disk ε) (p : Path) : Update ε Unit :=
  d.makeAll p.root p.parts.reverse

/-- Writes a file. It is opened first, so that a failure may leave only a part of the bytes in
it. -/
def writeFile (d : Disk ε) (p : Path) (bytes : List UInt8) : Update ε Unit := fun t =>
  match t.newLocation p with
  | .error .alreadyExists => .error (.inl ⟨.isADirectory, p.text⟩) t
  | .error problem => .error (.inl ⟨problem, p.text⟩) t
  | .ok spot =>
    if t.isDirectory spot then .error (.inl ⟨.isADirectory, p.text⟩) t
    else
      match d.writeFault? t p bytes with
      | none => .ok () (t.withFile spot bytes)
      | some (.unopened x) => .error (.inr x) t
      | some (.cutOff count x) => .error (.inr x) (t.withFile spot (bytes.take count))

end Disk

end LogicGraph
