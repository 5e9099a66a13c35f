import LogicGraph.Files.Disk
import LogicGraph.Proofs.Files.Tree

set_option relaxedAutoImplicit false
set_option autoImplicit false

/-!
# What operations on files leave

Making directories changes no file, whether it succeeds or not, and it takes no directory away.
Writing a file changes no other file and no directory. So after both there is one file that may be
different, in the directory that the path leads to. It has all the bytes unless the disk fails after
it has opened the file.

## Main definitions

* `LogicGraph.Disk.left` — the tree that an operation leaves.

## Main results

* `LogicGraph.Disk.extends_makeDirectories` — making directories changes no file.
* `LogicGraph.Disk.directoryAt_of_makeDirectories` — after it, the directory is there.
* `LogicGraph.Disk.writeFile_cases` — what writing a file in a directory leaves.
-/

namespace LogicGraph.Disk

variable {ε : Type} {d : Disk ε} {t t' : FileTree} {p : Path}

/-! ## Reading -/

/-- A file is read if it is there and the disk does not fail. -/
lemma readFile_eq_ok {bytes : List UInt8} :
    d.readFile t p = .ok bytes ↔ t.readFile p = .ok bytes ∧ d.readFault? t p = none := by
  unfold readFile
  cases t.readFile p with
  | error e => simp
  | ok found => cases d.readFault? t p <;> simp

/-! ## Making directories -/

/-- One directory that is made is new, and the only change. -/
lemma of_makeDirectory (h : d.makeDirectory t p = .ok t') :
    t.Extends t' ∧ t'.directoryAt p = true := by
  unfold makeDirectory at h
  split at h
  · cases h
  · next spot hspot =>
    split_ifs at h
    split at h
    · cases h
    · cases h
      have hextends : t.Extends { t with directories := spot :: t.directories } := by
        refine ⟨rfl, fun other hother => ?_, rfl⟩
        rw [FileTree.isDirectory, Bool.or_eq_true] at hother ⊢
        exact hother.imp_right fun hmem => by simp [List.contains_iff_mem.mp hmem]
      have hmade :
          FileTree.isDirectory { t with directories := spot :: t.directories } spot = true := by
        simp [FileTree.isDirectory]
      refine ⟨hextends, ?_⟩
      rw [FileTree.directoryAt, FileTree.resolve_of_newLocation hspot hextends.directory
        (fun _ => hextends.occupied) rfl (by simp [FileTree.occupied, hmade])]
      exact hmade

/-- The tree that an operation leaves. -/
def left {α : Type} : EStateM.Result (FileError ⊕ ε) FileTree α → FileTree
  | .ok _ t => t
  | .error _ t => t

/-- Ensuring a directory changes no file. -/
lemma extends_ensureDirectory (d : Disk ε) (t : FileTree) (p : Path) :
    t.Extends (left (d.ensureDirectory p t)) := by
  unfold ensureDirectory
  split
  · next made hmade => exact (of_makeDirectory hmade).1
  · split_ifs <;> exact .refl t
  · exact .refl t

/-- A directory that has been ensured is there. -/
lemma directoryAt_of_ensureDirectory (h : d.ensureDirectory p t = .ok () t') :
    t'.directoryAt p = true := by
  unfold ensureDirectory at h
  split at h
  · next made hmade =>
    cases h
    exact (of_makeDirectory hmade).2
  · split_ifs at h with hthere
    cases h
    exact hthere.2
  · cases h

/-- Making directories up to a path changes no file, and takes no directory away. -/
lemma extends_makeAll (d : Disk ε) (t : FileTree) (root : String) (names : List String) :
    t.Extends (left (d.makeAll root names t)) := by
  induction names with
  | nil => exact extends_ensureDirectory d t _
  | cons name parents ih =>
    unfold makeAll
    simp only
    split
    · split
      · next made hmade =>
        rw [hmade] at ih
        exact ih.trans (extends_ensureDirectory d made _)
      · next e remains hfailed =>
        rw [hfailed] at ih
        exact ih
    · exact extends_ensureDirectory d t _

/-- **Making directories changes no file**, whether it succeeds or not. -/
lemma extends_makeDirectories (d : Disk ε) (t : FileTree) (p : Path) :
    t.Extends (left (d.makeDirectories p t)) :=
  extends_makeAll d t _ _

/-- **After directories have been made up to a path, there is a directory at the path.** -/
lemma directoryAt_of_makeDirectories (h : d.makeDirectories p t = .ok () t') :
    t'.directoryAt p = true := by
  have hall : ∀ names, d.makeAll p.root names t = .ok () t' →
      t'.directoryAt ⟨p.root, names.reverse⟩ = true := by
    intro names hnames
    cases names with
    | nil => exact directoryAt_of_ensureDirectory hnames
    | cons name parents =>
      unfold makeAll at hnames
      simp only at hnames
      split at hnames
      · split at hnames
        · exact directoryAt_of_ensureDirectory hnames
        · cases hnames
      · exact directoryAt_of_ensureDirectory hnames
  have hpath := hall _ h
  rwa [List.reverse_reverse] at hpath

/-! ## Writing a file -/

/-- **Writing a file in a directory changes nothing else.** If it fails, then it changes nothing, or
the disk has failed after the file was opened, and the file has the first part of the bytes. -/
lemma writeFile_cases (d : Disk ε) (t : FileTree) (directory : Path) (name : String)
    (bytes : List UInt8) (hdirectory : t.directoryAt directory = true) :
    (∃ e, d.writeFile (directory.join name) bytes t = .error e t) ∨
    (∃ count x t', d.writeFault? t (directory.join name) bytes = some (.cutOff count x) ∧
      d.writeFile (directory.join name) bytes t = .error (.inr x) t' ∧
      t.Wrote t' directory name (bytes.take count)) ∨
    ∃ t', d.writeFile (directory.join name) bytes t = .ok () t' ∧
      t.Wrote t' directory name bytes := by
  unfold writeFile
  cases hnew : t.newLocation (directory.join name) with
  | error problem =>
    cases problem <;> exact .inl ⟨_, rfl⟩
  | ok spot =>
    simp only
    split_ifs with hspot
    · exact .inl ⟨_, rfl⟩
    · cases hfault : d.writeFault? t (directory.join name) bytes with
      | none => exact .inr (.inr ⟨_, rfl, FileTree.wrote_withFile bytes hdirectory hnew⟩)
      | some fault =>
        cases fault with
        | unopened x => exact .inl ⟨_, rfl⟩
        | cutOff count x =>
          exact .inr (.inl ⟨count, x, _, rfl, rfl, FileTree.wrote_withFile _ hdirectory hnew⟩)

end LogicGraph.Disk
