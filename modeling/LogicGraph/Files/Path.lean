/-!
# Paths

A path is where it starts and a list of names. Repeated separators, a separator at the end and
single dots do not count; double dots do, as they may lead through a directory that does not exist.

## Main definitions

* `LogicGraph.Path` — paths.
* `LogicGraph.Path.ofString`, `LogicGraph.Path.text` — reading and writing a path.
* `LogicGraph.Path.stem` — the last name without its extension.
-/

namespace LogicGraph

/-- A path. -/
structure Path where
  /-- The separators at the start of an absolute path: one, or two if it is written with exactly
  two. -/
  root : String := ""
  /-- The names. -/
  parts : List String := []
  deriving DecidableEq, Repr

namespace Path

/-- The start of a path that is written with the given number of separators in front. -/
def rootOf (separators : Nat) : String :=
  if separators = 0 then "" else if separators = 2 then "//" else "/"

/-- The path that a text spells. -/
def ofString (s : String) : Path where
  root := rootOf (s.toList.takeWhile (· = '/')).length
  parts := ((s.toList.splitOnP (· = '/')).map String.ofList).filter fun p => p ≠ "" ∧ p ≠ "."

/-- A path as it is written; the path that is nothing at all is a single dot. -/
def text (p : Path) : String :=
  if p.root = "" ∧ p.parts = [] then "." else p.root ++ "/".intercalate p.parts

/-- The path of a name in a directory. -/
def join (p : Path) (name : String) : Path :=
  { p with parts := p.parts ++ [name] }

/-- The last name without its extension. A dot at either end of the name starts no extension. -/
def stem (p : Path) : String :=
  let name := (p.parts.getLast?.getD "").toList
  let extension := name.reverse.takeWhile (· ≠ '.')
  let before := name.take (name.length - extension.length - 1)
  if extension = [] ∨ extension.length = name.length ∨ before = [] then String.ofList name
  else String.ofList before

/-- Whether a null character stands in the path. -/
def hasNull (p : Path) : Bool :=
  p.parts.any fun s => s.toList.contains '\x00'

end Path

end LogicGraph
