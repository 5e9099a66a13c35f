import LogicGraph.Graph.Kind
import LogicGraph.Number.Numeral
import LogicGraph.Text.Digit
import LogicGraph.Text.Stem

/-!
# Ports

Edges join ports. Each kind has a fixed list of ports, and a choice has one more output port for
each of its cases, numbered from zero. Two names of input ports mean the same port.

## Main definitions

* `LogicGraph.Direction` — whether a port takes or gives.
* `LogicGraph.Kind.ports` — the fixed ports of a kind, in order.
* `LogicGraph.casePort` — the output port of a case.
* `LogicGraph.portAliases` — all names of a port.
* `LogicGraph.Kind.hasPort` — whether a kind has a port of a name.
* `LogicGraph.Kind.defaultPort?` — the port of an edge that names none.
-/

namespace LogicGraph

/-- Whether a port takes values in or gives them out. -/
inductive Direction where
  /-- The port takes values in. -/
  | input
  /-- The port gives values out. -/
  | output
  deriving DecidableEq, Repr

/-- What the names of all case ports start with. -/
def casePortStem : String := "case_out_"

/-- The output port of a choice for what no case takes. -/
def defaultBranchPort : String := "default_branch"

/-- The output port of a trigger. -/
def triggerPort : String := "trigger"

/-- The output port of a case. -/
def casePort (index : Int) : String :=
  casePortStem ++ toString index

/-- All names of a port, the one in use first. -/
def portAliases (port : String) : List String :=
  if port = "input_val" ∨ port = "condition" then ["input_val", "condition"] else [port]

/-- The name in use of a port. -/
def canonicalPort (port : String) : String :=
  if port = "condition" then "input_val" else port

namespace Kind

/-- The fixed ports of a kind, in order. -/
def ports : Kind → List (String × Direction)
  | action | nav => [("chain_input", .input), (triggerPort, .output)]
  | state | media | object | player => [("set_value", .input), ("current_value", .output)]
  | cell => [("set", .input), ("get", .output)]
  | math | compare => [("a", .input), ("b", .input), ("val", .output)]
  | ifElse =>
    [("input_val", .input), ("condition", .input), ("exec", .input), (defaultBranchPort, .output)]
  | reward => [("value", .input)]

/-- The names of the fixed ports of a kind in one direction, in order. -/
def portsIn (k : Kind) (d : Direction) : List String :=
  (k.ports.filter (·.2 == d)).map (·.1)

/-- The port of an edge that names none: the first one of that direction. -/
def defaultPort? (k : Kind) (d : Direction) : Option String :=
  (k.portsIn d).head?

/-- Whether the rest of a case port's name numbers one of `caseCount` cases. It has to consist of
characters that are digits or look like digits; a text of that form that spells no integer is a
fault. -/
def numbersCase (suffix : List Char) (caseCount : Int) : Except Numeral.Fault Bool :=
  if suffix ≠ [] ∧ suffix.all Text.isDigitLike then
    (Numeral.readInt suffix).map fun n => decide (n < caseCount)
  else .ok false

/-- Whether a kind has a port of the given name and direction; a choice has `caseCount` cases. -/
def hasPort (k : Kind) (port : String) (d : Direction) (caseCount : Int) :
    Except Numeral.Fault Bool :=
  let port := canonicalPort port
  let suffix? :=
    if k = .ifElse ∧ d = .output then Text.afterStem? casePortStem.toList port.toList else none
  match suffix? with
  | some suffix => numbersCase suffix caseCount
  | none => .ok (k.ports.lookup port == some d)

end Kind

end LogicGraph
