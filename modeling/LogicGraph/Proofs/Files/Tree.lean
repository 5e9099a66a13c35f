import Mathlib.Tactic.Common
import LogicGraph.Files.Tree
import LogicGraph.Proofs.Audited

set_option relaxedAutoImplicit false
set_option autoImplicit false

/-!
# Files and the paths to them

A path leads to the same location in every tree that has the same directories and at least the same
files. What is known of a path before something is made or written is carried over by this one fact.
A tree with one more file, or with other bytes in one, has its other files as they were.

## Main definitions

* `LogicGraph.FileTree.Extends` — a tree with the same files and possibly more directories.
* `LogicGraph.FileTree.Wrote` — a tree in which one file has been written.

## Main results

* `LogicGraph.FileTree.walk_mono` — a walk that succeeds does so in every tree with more directories
  and files.
* `LogicGraph.FileTree.wrote_withFile` — what putting a file into a directory changes.
-/

namespace LogicGraph.FileTree

variable {t t' u : FileTree} {p : Path}

/-! ## Walks -/

/-- The location that a name leads to. -/
def next (here : Location) (name : String) : Location :=
  if name = ".." then here.dropLast else here ++ [name]

/-- One step of a walk. -/
lemma walk_cons_eq_ok {here spot : Location} {name : String} {rest : List String} :
    t.walk here (name :: rest) = .ok spot ↔
      t.isDirectory here = true ∧ name.utf8ByteSize ≤ nameLimit ∧
      t.occupied (next here name) = true ∧
        t.walk (next here name) rest = .ok spot := by
  have hwalk : t.walk here (name :: rest) =
      if !t.isDirectory here then .error .notADirectory
      else if nameLimit < name.utf8ByteSize then .error .nameTooLong
      else if t.occupied (next here name) then t.walk (next here name) rest
      else .error .notFound := rfl
  rw [hwalk]
  split_ifs with hhere hlength hnext
  · simp_all
  · have hnot : ¬ name.utf8ByteSize ≤ nameLimit := by omega
    simp [hnot]
  · have hle : name.utf8ByteSize ≤ nameLimit := by omega
    simp_all
  · simp [hnext]

/-- A walk goes on where its first part has ended. -/
lemma walk_append_eq_ok {here spot : Location} {xs ys : List String} :
    t.walk here (xs ++ ys) = .ok spot ↔ ∃ mid, t.walk here xs = .ok mid ∧
      t.walk mid ys = .ok spot := by
  induction xs generalizing here with
  | nil => simp [walk]
  | cons name rest ih =>
    simp only [List.cons_append, walk_cons_eq_ok, ih]
    constructor
    · rintro ⟨hhere, hlength, hnext, mid, hfirst, hsecond⟩
      exact ⟨mid, ⟨hhere, hlength, hnext, hfirst⟩, hsecond⟩
    · rintro ⟨mid, ⟨hhere, hlength, hnext, hfirst⟩, hsecond⟩
      exact ⟨hhere, hlength, hnext, mid, hfirst, hsecond⟩

/-- **A walk that succeeds does so in every tree with more directories and files.** -/
lemma walk_mono (hdirectory : ∀ spot, t.isDirectory spot = true → t'.isDirectory spot = true)
    (hoccupied : ∀ spot, t.occupied spot = true → t'.occupied spot = true) {here spot : Location}
    {names : List String} (h : t.walk here names = .ok spot) : t'.walk here names = .ok spot := by
  induction names generalizing here with
  | nil => exact h
  | cons name rest ih =>
    rw [walk_cons_eq_ok] at h ⊢
    obtain ⟨hhere, hlength, hnext, hrest⟩ := h
    exact ⟨hdirectory _ hhere, hlength, hoccupied _ hnext, ih hrest⟩

/-- A path leads to a location if its text has no problem and the walk along its names succeeds. -/
lemma resolve_eq_ok {spot : Location} :
    t.resolve p = .ok spot ↔ textProblem? p = none ∧ t.walk (t.start p) p.parts = .ok spot := by
  unfold resolve
  cases textProblem? p <;> simp

/-- A file that is read is there. -/
lemma isThere_of_readFile {bytes : List UInt8} (h : t.readFile p = .ok bytes) :
    t.isThere p = .ok true := by
  unfold readFile at h
  unfold isThere
  cases hresolve : t.resolve p with
  | ok spot => rfl
  | error problem =>
    rw [hresolve] at h
    cases h

/-- The location of a new name is in the directory that the names before it lead to. -/
lemma of_newLocation {spot : Location} (h : t.newLocation p = .ok spot) :
    textProblem? p = none ∧ ∃ parents name here, p.parts = parents ++ [name] ∧
      t.walk (t.start p) parents = .ok here ∧ t.isDirectory here = true ∧ name ≠ ".." ∧
      name.utf8ByteSize ≤ nameLimit ∧ spot = here ++ [name] := by
  unfold newLocation at h
  split at h
  · cases h
  · cases h
  · rename_i name htext hlast
    obtain ⟨parents, hparts⟩ := List.getLast?_eq_some_iff.mp hlast
    rw [hparts, List.dropLast_concat, bind_eq_ok] at h
    obtain ⟨here, hwalk, h⟩ := h
    split_ifs at h with hdirectory hup hlength
    cases h
    exact ⟨htext, parents, name, here, hparts, hwalk, by
      simpa using hdirectory, hup, Nat.le_of_not_lt hlength, rfl⟩

/-- A new location that something is made at is where its path leads to afterwards. -/
lemma resolve_of_newLocation {spot : Location} (h : t.newLocation p = .ok spot)
    (hdirectory : ∀ spot, t.isDirectory spot = true → t'.isDirectory spot = true)
    (hoccupied : ∀ spot, t.occupied spot = true → t'.occupied spot = true)
    (hstart : t'.workingDirectory = t.workingDirectory) (hspot : t'.occupied spot = true) :
    t'.resolve p = .ok spot := by
  obtain ⟨htext, parents, name, here, hparts, hwalk, hhere, hup, hlength, rfl⟩ := of_newLocation h
  have hsame : t'.start p = t.start p := by rw [start, start, hstart]
  have hnext : next here name = here ++ [name] := if_neg hup
  rw [resolve_eq_ok, hparts, hsame, walk_append_eq_ok]
  refine ⟨htext, here, walk_mono hdirectory hoccupied hwalk, ?_⟩
  rw [walk_cons_eq_ok, hnext]
  exact ⟨hdirectory here hhere, hlength, hspot, rfl⟩

/-! ## Trees with more directories -/

/-- A tree has the files of another, and all its directories. -/
structure Extends (t t' : FileTree) : Prop where
  /-- The files are the same. -/
  files : t'.files = t.files
  /-- No directory is missing. -/
  directory : ∀ spot, t.isDirectory spot = true → t'.isDirectory spot = true
  /-- The working directory is the same. -/
  workingDirectory : t'.workingDirectory = t.workingDirectory

/-- A tree extends itself. -/
lemma Extends.refl (t : FileTree) : t.Extends t :=
  ⟨rfl, fun _ h => h, rfl⟩

/-- What extends an extension of a tree extends the tree. -/
lemma Extends.trans (h : t.Extends u) (h' : u.Extends t') : t.Extends t' :=
  ⟨h'.files.trans h.files, fun spot hspot => h'.directory spot (h.directory spot hspot),
    h'.workingDirectory.trans h.workingDirectory⟩

/-- What is there stays there. -/
lemma Extends.occupied (h : t.Extends t') {spot : Location} (hspot : t.occupied spot = true) :
    t'.occupied spot = true := by
  rw [FileTree.occupied, Bool.or_eq_true] at hspot ⊢
  rw [h.files]
  exact hspot.imp_left (h.directory spot)

/-! ## Trees with another file -/

/-- A file that is put somewhere is there. -/
lemma lookup_putFile_self (files : List (Location × List UInt8)) (spot : Location)
    (bytes : List UInt8) :
    (putFile files spot bytes).lookup spot = some bytes := by
  simp [putFile]

/-- Putting a file somewhere changes no other file. -/
lemma lookup_putFile_of_ne (files : List (Location × List UInt8)) {spot other : Location}
    (h : other ≠ spot) (bytes : List UInt8) :
    (putFile files spot bytes).lookup other = files.lookup other := by
  have hfilter : (files.filter (·.1 ≠ spot)).lookup other = files.lookup other := by
    induction files with
    | nil => rfl
    | cons file rest ih =>
      obtain ⟨key, contents⟩ := file
      by_cases hkey : key = spot
      · have hne : (other == key) = false := by simpa [hkey] using h
        rw [List.filter_cons_of_neg (by simp [hkey]), ih, List.lookup_cons, hne]
      · rw [List.filter_cons_of_pos (by simpa using hkey), List.lookup_cons, List.lookup_cons, ih]
  have hne : (other == spot) = false := by simpa using h
  rw [putFile, List.lookup_cons, hne]
  exact hfilter

/-- The second of two trees has a directory at a path and in it a file with a name and bytes; every
other file is as it was in the first. -/
def Wrote (before after : FileTree) (directory : Path) (name : String) (bytes : List UInt8) :
    Prop :=
  ∃ dir, after.resolve directory = .ok dir ∧ after.isDirectory dir = true ∧
    after.resolve (directory.join name) = .ok (dir ++ [name]) ∧
      after.files.lookup (dir ++ [name]) = some bytes ∧
    ∀ spot, spot ≠ dir ++ [name] → after.files.lookup spot = before.files.lookup spot

/-- What has been written is told from the files that were there before, and not from the
directories. -/
lemma Wrote.of_files {directory : Path} {name : String} {bytes : List UInt8}
    (h : t.Wrote t' directory name bytes) (hfiles : t.files = u.files) :
    u.Wrote t' directory name bytes := by
  obtain ⟨dir, hresolve, hdir, hfile, hlookup, hother⟩ := h
  exact ⟨dir, hresolve, hdir, hfile, hlookup, hfiles ▸ hother⟩

/-- A directory at a path is the location that the path leads to. -/
lemma directoryAt_iff :
    t.directoryAt p = true ↔ ∃ dir, t.resolve p = .ok dir ∧ t.isDirectory dir = true := by
  unfold directoryAt
  cases t.resolve p <;> simp

/-- **Putting a file into a directory** changes no other file. -/
lemma wrote_withFile {directory : Path} {name : String} {spot : Location} (bytes : List UInt8)
    (hdirectory : t.directoryAt directory = true)
    (hnew : t.newLocation (directory.join name) = .ok spot) :
    t.Wrote (t.withFile spot bytes) directory name bytes := by
  obtain ⟨-, parents, name', here, hparts, hwalk, -, -, -, rfl⟩ := of_newLocation hnew
  obtain ⟨rfl, rfl⟩ := List.append_singleton_inj.mp hparts
  obtain ⟨dir, hresolve, hdir⟩ := directoryAt_iff.mp hdirectory
  obtain ⟨htext, hwalk'⟩ := resolve_eq_ok.mp hresolve
  -- the new file is in the directory that the path of the directory leads to
  obtain rfl : dir = here := Except.ok.inj (hwalk'.symm.trans hwalk)
  set after : FileTree := t.withFile (dir ++ [name]) bytes
  have hlookup : after.files.lookup (dir ++ [name]) = some bytes := lookup_putFile_self _ _ _
  have hdirectories : ∀ spot, t.isDirectory spot = true → after.isDirectory spot = true :=
    fun _ h => h
  have hoccupied : ∀ spot, t.occupied spot = true → after.occupied spot = true := by
    intro spot hspot
    rw [occupied, Bool.or_eq_true] at hspot ⊢
    refine hspot.imp_right fun hfile => ?_
    by_cases heq : spot = dir ++ [name]
    · rw [heq, hlookup, Option.isSome_some]
    · exact (congrArg Option.isSome (lookup_putFile_of_ne t.files heq bytes)).trans hfile
  refine ⟨dir, ?_, hdir, ?_, hlookup, fun spot hspot => lookup_putFile_of_ne t.files hspot bytes⟩
  · exact resolve_eq_ok.mpr ⟨htext, walk_mono hdirectories hoccupied hwalk'⟩
  · exact resolve_of_newLocation hnew hdirectories hoccupied rfl (by simp [occupied, hlookup])

end LogicGraph.FileTree
