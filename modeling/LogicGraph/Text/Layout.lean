/-!
# Indented lines

Program text is laid out line by line at a current depth of indentation, four spaces for each level.
Going shallower stops at depth zero. A negative depth, which only a caller can start from, indents
by nothing.

## Main definitions

* `LogicGraph.Layout` — the lines written so far and the current depth.
* `LogicGraph.Layout.line`, `LogicGraph.Layout.block`, `LogicGraph.Layout.verbatim` — write lines.
* `LogicGraph.Layout.deeper`, `LogicGraph.Layout.shallower` — change the depth.
* `LogicGraph.Layout.text` — the lines as one text.
-/

namespace LogicGraph

/-- Lines written so far and the depth at which the next one is written. -/
structure Layout where
  /-- The finished lines. -/
  lines : Array String := #[]
  /-- The depth of the next line. -/
  depth : Int := 0
  deriving DecidableEq, Repr

namespace Layout

/-- The white space in front of a line at the given depth. -/
def margin (depth : Int) : String :=
  String.ofList (List.replicate (4 * depth.toNat) ' ')

/-- Writes a line at the current depth; an empty line stays empty. -/
def line (l : Layout) (s : String) : Layout :=
  { l with lines := l.lines.push (if s = "" then "" else margin l.depth ++ s) }

/-- Writes an empty line. -/
def blank (l : Layout) : Layout :=
  l.line ""

/-- Writes a comment. -/
def comment (l : Layout) (s : String) : Layout :=
  l.line ("# " ++ s)

/-- Goes one level deeper. -/
def deeper (l : Layout) : Layout :=
  { l with depth := l.depth + 1 }

/-- Goes one level up, not above depth zero. -/
def shallower (l : Layout) : Layout :=
  { l with depth := max 0 (l.depth - 1) }

/-- Writes lines at the current depth. -/
def block (l : Layout) (ss : List String) : Layout :=
  ss.foldl line l

/-- Adds lines as they are. -/
def verbatim (l : Layout) (ss : List String) : Layout :=
  { l with lines := l.lines ++ ss }

/-- The lines as one text, without a line end after the last. -/
def text (l : Layout) : String :=
  "\n".intercalate l.lines.toList

/-- A line is written behind the others, with its margin unless it is empty. -/
@[simp] theorem lines_line (l : Layout) (s : String) :
    (l.line s).lines.toList =
      l.lines.toList ++ [if s = "" then "" else margin l.depth ++ s] := by
  simp [line]

/-- Writing a line does not change the depth. -/
@[simp] theorem depth_line (l : Layout) (s : String) : (l.line s).depth = l.depth := rfl

end Layout

end LogicGraph
