import LogicGraph.Document.Check
import LogicGraph.Json.Display

/-!
# Documents to graphs

Loading turns a checked document into a graph. Nodes of unknown kind are left out, and so are edges
that then end at no node or have no port to end at. An edge that names no port gets the default one,
and an edge without an id gets one made from its ends.

## Main definitions

* `LogicGraph.Document.LoadError` — why a value gives no graph.
* `LogicGraph.Document.load` — the graph of a checked document.
* `LogicGraph.Graph.ofJson` — checks a value and loads it.
-/

namespace LogicGraph

namespace Document

/-- Why a value gives no graph. -/
inductive LoadError where
  /-- The value is no document. -/
  | check (e : CheckError)
  /-- A coordinate is an integer beyond the doubles. -/
  | hugeCoordinate
  /-- The value of a case has an integer with too many digits. -/
  | longInteger
  /-- Ids are not distinct. -/
  | graph (f : GraphFault)
  deriving DecidableEq, Repr

/-- The wording of an error. -/
def LoadError.message : LoadError → String
  | .check e => e.message
  | .hugeCoordinate => "int too large to convert to float"
  | .longInteger => Numeral.tooLongToWrite
  | .graph f => f.message

/-- Whether the error is about the value that is loaded, and not about the range of numbers. -/
def LoadError.isInvalidValue : LoadError → Bool
  | .hugeCoordinate => false
  | _ => true

/-- The case of an entry. Its value becomes text; null becomes the empty text. -/
def loadCase (c : CaseEntry) : Except LoadError Case :=
  match c.value with
  | .null => .ok ⟨c.id, .string ""⟩
  | v => if v.isWritable then .ok ⟨c.id, .string v.plainText⟩ else .error .longInteger

/-- A coordinate as a double; absent and zero are positive zero. -/
def loadCoordinate (n : Option Number) : Except LoadError Number :=
  match n with
  | none => .ok (.float (Binary64.zero false))
  | some n =>
    if n.isZero then .ok (.float (Binary64.zero false))
    else
      match n.toBinary64? with
      | some x => .ok (.float x)
      | none => .error .hugeCoordinate

/-- The node of an entry of a known kind. -/
def loadNode (kind : Kind) (n : NodeEntry) : Except LoadError Node := do
  let cases ← n.cases.mapM loadCase
  let x ← loadCoordinate n.x
  let y ← loadCoordinate n.y
  let node : Node :=
    { id := n.id, kind, label := n.label.getD "", customName := nonempty? n.customName,
      variableName := nonempty? n.variableName, value := n.value, operation := n.operation,
      purpose := n.purpose, isLocked := n.isLocked.getD false,
      isBypassed := n.isBypassed.getD false, isAction := n.isAction,
      isObservation := n.isObservation, position := ⟨x, y⟩ }
  (node.withCases cases).mapError .graph

/-- The nodes of known kind. -/
def loadNodes : List NodeEntry → Audited LoadError (List Node)
  | [] => pure []
  | n :: rest =>
    match n.kind? with
    | none => do
      Audited.report [.droppedNode n.id n.typeName]
      loadNodes rest
    | some kind => do
      let node ← Audited.lift (loadNode kind n)
      let nodes ← loadNodes rest
      return node :: nodes

/-- The id of an edge that has none. -/
def derivedEdgeId (source sourceHandle target targetHandle : String) : String :=
  s!"{source}:{sourceHandle}→{target}:{targetHandle}"

/-- The edge of an entry, or the notice that it is left out. -/
def loadEdge (nodes : List Node) (e : EdgeEntry) : Except Notice Edge :=
  match nodes.find? (·.id == e.source), nodes.find? (·.id == e.target) with
  | some source, some target =>
    match nonempty? e.sourceHandle <|> source.kind.defaultPort? .output,
      nonempty? e.targetHandle <|> target.kind.defaultPort? .input with
    | some sourceHandle, some targetHandle =>
      .ok { id := (nonempty? e.id).getD (derivedEdgeId e.source sourceHandle e.target targetHandle)
            source := e.source, sourceHandle, target := e.target, targetHandle }
    | _, _ => .error (.portlessEdge e.source e.target)
  | _, _ => .error (.detachedEdge e.source e.target)

/-- The edges that join nodes of the graph. -/
def loadEdges (nodes : List Node) (es : List EdgeEntry) : List Edge :=
  es.filterMap fun e => (loadEdge nodes e).toOption

/-- The notices about the edges that are left out. -/
def droppedEdges (nodes : List Node) (es : List EdgeEntry) : List Notice :=
  es.filterMap fun e =>
    match loadEdge nodes e with
    | .ok _ => none
    | .error n => some n

/-- The graph of a checked document. -/
def load (d : Document) : Audited LoadError Graph := do
  let nodes ← loadNodes d.nodes
  Audited.report (droppedEdges nodes d.edges)
  let name := (nonempty? d.name).getD defaultGraphName
  Audited.lift ((Graph.ofParts nodes (loadEdges nodes d.edges) name).mapError .graph)

end Document

/-- Checks a value and loads it. -/
def Graph.ofJson (strict : Bool) (v : Json) : Audited Document.LoadError Graph := do
  let d ← (Document.check strict v).mapError .check
  d.load

end LogicGraph
