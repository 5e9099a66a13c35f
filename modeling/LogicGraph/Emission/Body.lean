import LogicGraph.Graph.Reach
import LogicGraph.Naming
import LogicGraph.Program.Basic

/-!
# Bodies

The statements that carry out a node and what lies beneath it. A trigger is carried out by carrying
out the targets of its port; a choice becomes a statement with one body for each case; a node with a
value is assigned from its sources.

The walk follows edges of a graph that the user may have closed to a cycle. The ids on the way to a
node are kept, and a node on its own way is replaced by a statement that does nothing. The way may
not get longer than a limit.

## Main definitions

* `LogicGraph.Scope` — a graph and the identifiers of its nodes.
* `LogicGraph.Scope.valueTerm` — the term that reads a node.
* `LogicGraph.Scope.inputExpr` — the value of an input port.
* `LogicGraph.Scope.node` — the statements for a node.
* `LogicGraph.Scope.port` — the statements for the targets of a port.
* `LogicGraph.Scope.entryPoints` — the triggers with the names and bodies of their methods.
-/

namespace LogicGraph

/-- A graph and the identifiers of its nodes. -/
structure Scope where
  /-- The graph. -/
  graph : Graph
  /-- The identifiers. -/
  names : NameTable

/-- Why a graph gives no program. -/
inductive EmitError where
  /-- A way through the graph is longer than the limit. -/
  | tooDeep
  /-- A value has an integer with too many digits to be written. -/
  | longInteger
  deriving DecidableEq, Repr

/-- The usual greatest number of nodes on a way. -/
def depthLimit : Nat := 300

/-- What the walk to the statements of nodes gives. -/
abbrev Emission := Audited EmitError (List Stmt)

namespace Scope

/-- The identifier of a node. -/
def nameOf (s : Scope) (n : Node) : String :=
  s.names.name n.id

/-- The term that reads a node: its variable, or a constant if it has none. -/
def valueTerm (s : Scope) (n : Node) : Term :=
  if n.declaresVariable then .member (s.nameOf n)
  else if n.kind.isTrigger then .one
  else .zero

/-- The terms that read the sources of a port. -/
def sourceTerms (s : Scope) (n : Node) (port : String) : List Term :=
  (s.graph.sources n.id port).map s.valueTerm

/-- The notices about edges into a port that come from nowhere. -/
def danglingNotices (s : Scope) (n : Node) (port : String) : List Notice :=
  (s.graph.danglingEdges n.id port).map fun e => .danglingEdge e.id n.id port

/-- The value of an input port. -/
def inputExpr {ε : Type} (s : Scope) (n : Node) (port : String) (policy : FanIn) (default : Term) :
    Audited ε Expr := do
  Audited.report (s.danglingNotices n port)
  return policy.reduceTerms default (s.sourceTerms n port)

/-- The value of an input port as text, with any text for an unwired one. -/
def inputText {ε : Type} (s : Scope) (n : Node) (port : String) (policy : FanIn)
    (default : String) :
    Audited ε String := do
  Audited.report (s.danglingNotices n port)
  return policy.reduceTexts default ((s.sourceTerms n port).map Term.text)

/-- The port by which a node with a value is set. -/
def setPort (kind : Kind) : String :=
  if kind = .cell then "set" else "set_value"

/-- The statements for a node that is set from its sources: none if there are no sources. -/
def assignment (s : Scope) (n : Node) : Emission := do
  let port := setPort n.kind
  Audited.report (s.danglingNotices n port)
  match s.sourceTerms n port with
  | [] => return []
  | ts => return [.assign (s.nameOf n) (.expr (FanIn.sum.reduceTerms .zero ts)) none]

/-- The statement for an arithmetic node. -/
def arithmetic (s : Scope) (n : Node) : Emission := do
  let a ← s.inputExpr n "a" .sum .zero
  let b ← s.inputExpr n "b" .sum .zero
  return [.assign (s.nameOf n) (.arithmetic (Arithmetic.ofSign n.operation) a b) none]

/-- The statement for a comparison. -/
def comparison (s : Scope) (n : Node) : Emission := do
  let a ← s.inputExpr n "a" .sum .zero
  let b ← s.inputExpr n "b" .sum .zero
  return [.assign (s.nameOf n) (.comparison (Comparison.ofSign n.operation) a b) none]

/-- The literal for a value, with the given one for a blank value. -/
def literal (blank : Literal) (v : Json) : Audited EmitError Literal :=
  match Literal.ofValue? blank v with
  | some l => pure l
  | none => .fail .longInteger

/-- The statements for the targets of a port, each made by `visit`. -/
def port (s : Scope) (visit : String → Emission) (id port : String) : Emission := do
  let bodies ← Audited.mapList visit (s.graph.targets id port)
  return bodies.flatten

/-- The clauses for cases from number `i` on. -/
def clauses (s : Scope) (visit : String → Emission) (id : String) :
    Nat → List Case → Audited EmitError (List (Literal × List Stmt))
  | _, [] => pure []
  | i, c :: rest => do
    let l ← literal (.text "") c.value
    let body ← s.port visit id (casePort i)
    let more ← s.clauses visit id (i + 1) rest
    return (l, orPass body) :: more

/-- The statements for a choice: what belongs to the default branch if there are no cases. -/
def choice (s : Scope) (visit : String → Emission) (n : Node) : Emission := do
  let subject ← s.inputExpr n "input_val" .first .zero
  if n.cases.isEmpty then s.port visit n.id defaultBranchPort
  else do
    let clauses ← s.clauses visit n.id 0 n.cases
    let otherwise ← s.port visit n.id defaultBranchPort
    return [.choose subject clauses (orPass otherwise)]

/-- The statements for an existing node; `visit` makes those for what lies beneath. -/
def existing (s : Scope) (visit : String → Emission) (n : Node) : Emission :=
  match n.kind with
  | .action | .nav => s.port visit n.id triggerPort
  | .state | .media | .cell | .object | .player => s.assignment n
  | .math => s.arithmetic n
  | .compare => s.comparison n
  | .ifElse => s.choice visit n
  | .reward => pure []

/-- The statements for a node, where `way` holds the ids on the way to it and `limit` more nodes may
follow. -/
def node (s : Scope) (limit : Nat) (way : List String) (id : String) : Emission :=
  match s.graph.node? id with
  | none => do
    Audited.report [.missingNode id]
    return []
  | some n =>
    if id ∈ way then do
      Audited.report [.cycle id]
      return [.pass (some (s.nameOf n))]
    else
      match limit with
      | 0 => .fail .tooDeep
      | limit + 1 => s.existing (s.node limit (id :: way)) n

/-- The statements for the targets of a port of a node, never none. -/
def targetBody (s : Scope) (limit : Nat) (n : Node) (port : String) : Emission := do
  let body ← s.port (s.node limit [n.id]) n.id port
  return orPass body

end Scope

/-- A trigger, the name of its method and the statements there. -/
structure EntryPoint where
  /-- The trigger. -/
  node : Node
  /-- The name of the method. -/
  methodName : String
  /-- The statements. -/
  body : List Stmt

/-- The name of the method for a trigger with the given identifier. -/
def triggerMethod (name : String) : String :=
  s!"on_{name}_trigger"

namespace Scope

/-- The method for one trigger. -/
def entryPoint (s : Scope) (limit : Nat) (n : Node) : Audited EmitError EntryPoint := do
  let body ← s.targetBody limit n triggerPort
  return ⟨n, triggerMethod (s.nameOf n), body⟩

/-- The triggers with the names and bodies of their methods. -/
def entryPoints (s : Scope) (limit : Nat) : Audited EmitError (List EntryPoint) :=
  Audited.mapList (s.entryPoint limit) (s.graph.nodesOf [.action, .nav])

end Scope

end LogicGraph
