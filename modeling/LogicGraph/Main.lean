import LogicGraph.Command.Run

/-!
# The program

Reads the graph that the arguments name, runs the command on it, prints what it says and writes the
file that it makes.
-/

namespace LogicGraph.Main

/-- The path of a location. -/
def locationText (spot : Location) : String :=
  (Path.mk "/" spot).text

/-- The tree with the working directory and the one file that the arguments name, if it can be
read. -/
def readInput (args : List String) : IO FileTree := do
  let here ← IO.currentDir
  let tree := FileTree.atDirectory (Path.ofString here.toString).parts
  match Command.parse args with
  | .run o =>
    let name := o.graph.getD ""
    try
      let bytes ← IO.FS.readBinFile name
      return tree.add (Path.ofString name) bytes.toList
    catch _ => return tree
  | _ => return tree

/-- Writes files, and makes the directories that they are in. -/
def writeFiles (files : List (Location × List UInt8)) : IO Unit := do
  for (spot, bytes) in files do
    IO.FS.createDirAll (locationText spot.dropLast)
    IO.FS.writeBinFile (locationText spot) bytes.toByteArray

end LogicGraph.Main

open LogicGraph LogicGraph.Main in
/-- Runs the command. -/
def main (args : List String) : IO UInt32 := do
  let tree ← readInput args
  let run := Command.execute tree args
  IO.print run.console.out
  IO.eprint run.console.err
  match run.ending with
  | .ok code =>
    writeFiles (FileTree.changesSince tree run.tree)
    return code.toUInt32
  | .error e =>
    IO.eprintln e.message
    return 1
