import LogicGraph.Graph.Port
import LogicGraph.Json.Basic

/-!
# Graphs

A graph is a list of nodes with distinct ids, a list of edges, and a name. The order of both lists
counts: it decides the order of names, of sources on one port, and of the steps of a simulation. An
edge may point to an id that no node has; whoever follows it treats it as absent.

## Main definitions

* `LogicGraph.Case`, `LogicGraph.Node`, `LogicGraph.Edge`, `LogicGraph.Graph` — the data.
* `LogicGraph.Graph.ofParts` — a graph from its parts, if ids are distinct.
* `LogicGraph.Graph.node?` — the node of an id.
* `LogicGraph.Graph.outgoing`, `LogicGraph.Graph.incoming` — the edges at a port.
* `LogicGraph.Graph.sources` — the nodes wired into a port.
* `LogicGraph.Node.bodyPorts` — the ports whose targets are carried out as part of a node.
* `LogicGraph.Graph.sameAs` — equality of graphs, numbers compared by value.

## Main results

* `LogicGraph.Graph.node?_eq_some_iff` — the node of an id is the one member of the graph that has
  it.
-/

namespace LogicGraph

/-- A case of a choice: the value that the subject is compared with. -/
structure Case where
  /-- The id of the case within its node. -/
  id : String
  /-- The value. -/
  value : Json
  deriving DecidableEq, Repr

/-- A place on the editor's canvas. -/
structure Position where
  /-- The horizontal coordinate. -/
  x : Number := .float (Binary64.zero false)
  /-- The vertical coordinate. -/
  y : Number := .float (Binary64.zero false)
  deriving DecidableEq, Repr

/-- A node. -/
structure Node where
  /-- The id, distinct within a graph. -/
  id : String
  /-- The kind. -/
  kind : Kind
  /-- The label in the editor. -/
  label : String := ""
  /-- The name that the user chose. -/
  customName : Option String := none
  /-- The name of the variable. -/
  variableName : Option String := none
  /-- The first value; null if there is none. -/
  value : Json := .null
  /-- The operation of an arithmetic node or a comparison. -/
  operation : Option String := none
  /-- A remark about the node. -/
  purpose : Option String := none
  /-- The cases of a choice. -/
  cases : List Case := []
  /-- Whether the editor shows the node as locked. -/
  isLocked : Bool := false
  /-- Whether the editor shows the node as bypassed. -/
  isBypassed : Bool := false
  /-- Whether a simulation adds to the node from its action; the kind decides if this is absent. -/
  isAction : Option Bool := none
  /-- Whether a simulation observes the node; the kind decides if this is absent. -/
  isObservation : Option Bool := none
  /-- The place on the canvas. -/
  position : Position := {}
  /-- Cases have distinct ids. -/
  cases_nodup : (cases.map Case.id).Nodup := by exact List.nodup_nil
  deriving DecidableEq, Repr

/-- An edge from an output port to an input port. -/
structure Edge where
  /-- The id. -/
  id : String
  /-- The id of the node that the edge leaves. -/
  source : String
  /-- The port that the edge leaves. -/
  sourceHandle : String
  /-- The id of the node that the edge enters. -/
  target : String
  /-- The port that the edge enters. -/
  targetHandle : String
  deriving DecidableEq, Repr

/-- The name of a graph that has been given none. -/
def defaultGraphName : String := "neuroflow-graph"

/-- A graph. -/
structure Graph where
  /-- The nodes. -/
  nodes : List Node := []
  /-- The edges. -/
  edges : List Edge := []
  /-- The name. -/
  name : String := defaultGraphName
  /-- Nodes have distinct ids. -/
  nodes_nodup : (nodes.map Node.id).Nodup := by exact List.nodup_nil
  deriving DecidableEq, Repr

/-- The given text, unless it is absent or empty. -/
def nonempty? (s : Option String) : Option String :=
  s.filter (· ≠ "")

namespace Node

/-- The name of a node for a reader: chosen name, label or id, whichever is first not empty. -/
def displayName (n : Node) : String :=
  (nonempty? n.customName).getD (if n.label = "" then n.id else n.label)

/-- The text a node's identifier is made from: chosen name, variable name or id, whichever is first
not empty. -/
def rawName (n : Node) : String :=
  (nonempty? n.customName).getD ((nonempty? n.variableName).getD n.id)

/-- Whether a simulation adds to the node from its action. -/
def takesAction (n : Node) : Bool :=
  n.isAction.getD (n.kind == .player)

/-- Whether a simulation observes the node. -/
def isObserved (n : Node) : Bool :=
  n.isObservation.getD (n.kind == .object)

/-- Whether a program has a variable for the node. -/
def declaresVariable (n : Node) : Bool :=
  n.kind.holdsValue || n.takesAction || n.isObserved

/-- The output ports whose targets are carried out as part of the node. -/
def bodyPorts (n : Node) : List String :=
  if n.kind.isTrigger then [triggerPort]
  else if n.kind = .ifElse then
    (List.range n.cases.length).map (fun (i : Nat) => casePort i) ++ [defaultBranchPort]
  else []

end Node

/-- Why parts make no graph. -/
inductive GraphFault where
  /-- Two cases of a node have one id. -/
  | repeatedCase (node : String)
  /-- Two nodes have one id. -/
  | repeatedNode (node : String)
  deriving DecidableEq, Repr

/-- The wording of a fault. -/
def GraphFault.message : GraphFault → String
  | .repeatedCase node => s!"node '{node}': duplicate branch case id"
  | .repeatedNode node => s!"duplicate node id '{node}'"

/-- The node with the given cases, if their ids are distinct. -/
def Node.withCases (n : Node) (cases : List Case) : Except GraphFault Node :=
  if h : (cases.map Case.id).Nodup then .ok { n with cases, cases_nodup := h }
  else .error (.repeatedCase n.id)

/-- The first member of a list that occurs in it before. -/
def firstRepeated? (seen : List String) : List String → Option String
  | [] => none
  | s :: rest => if s ∈ seen then some s else firstRepeated? (s :: seen) rest

namespace Graph

/-- A graph from its parts, or the first id that two nodes have. -/
def ofParts (nodes : List Node) (edges : List Edge) (name : String) : Except GraphFault Graph :=
  if h : (nodes.map Node.id).Nodup then .ok { nodes, edges, name, nodes_nodup := h }
  else .error (.repeatedNode ((firstRepeated? [] (nodes.map Node.id)).getD ""))

/-- The node of an id. -/
def node? (g : Graph) (id : String) : Option Node :=
  g.nodes.find? (·.id == id)

/-- The nodes of the given kinds. -/
def nodesOf (g : Graph) (kinds : List Kind) : List Node :=
  g.nodes.filter (kinds.contains ·.kind)

/-- The edges that leave a port. -/
def outgoing (g : Graph) (id port : String) : List Edge :=
  g.edges.filter fun e => e.source == id && e.sourceHandle == port

/-- The edges that enter one of some ports. -/
def incoming (g : Graph) (id : String) (ports : List String) : List Edge :=
  g.edges.filter fun e => e.target == id && ports.contains e.targetHandle

/-- The edges that enter a port under any of its names. -/
def wiredEdges (g : Graph) (id port : String) : List Edge :=
  g.incoming id (portAliases port)

/-- The nodes wired into a port, in the order of the edges. -/
def sources (g : Graph) (id port : String) : List Node :=
  (g.wiredEdges id port).filterMap fun e => g.node? e.source

/-- The edges wired into a port whose source is no node. -/
def danglingEdges (g : Graph) (id port : String) : List Edge :=
  (g.wiredEdges id port).filter fun e => (g.node? e.source).isNone

/-- The ids that a port leads to, in the order of the edges. -/
def targets (g : Graph) (id port : String) : List String :=
  (g.outgoing id port).map Edge.target

/-- The node of an id is the one node of the graph that has it. -/
theorem node?_eq_some_iff {g : Graph} {id : String} {n : Node} :
    g.node? id = some n ↔ n ∈ g.nodes ∧ n.id = id := by
  constructor
  · intro h
    exact ⟨List.mem_of_find?_eq_some h, by simpa using List.find?_some h⟩
  · rintro ⟨hn, rfl⟩
    have hd := g.nodes_nodup
    unfold node?
    revert hn hd
    generalize g.nodes = ns
    induction ns with
    | nil => simp
    | cons m ms ih =>
      intro hn hd
      rw [List.map_cons, List.nodup_cons] at hd
      rcases List.mem_cons.mp hn with rfl | hn
      · simp
      · have hne : m.id ≠ n.id := fun h => hd.1 (h ▸ List.mem_map_of_mem hn)
        rw [List.find?_cons_of_neg (by simpa using hne)]
        exact ih hn hd.2

end Graph

namespace Position

/-- Whether two places are the same, coordinates compared by value. -/
def sameAs (p q : Position) : Bool :=
  p.x.sameAs q.x && p.y.sameAs q.y

end Position

namespace Node

/-- Whether two nodes are the same, coordinates compared by value. -/
def sameAs (m n : Node) : Bool :=
  m.position.sameAs n.position && { m with position := n.position } == n

end Node

namespace Graph

/-- Whether two graphs are the same, coordinates compared by value. -/
def sameAs (g h : Graph) : Bool :=
  g.name == h.name && g.edges == h.edges && g.nodes.length == h.nodes.length &&
    (g.nodes.zip h.nodes).all fun (m, n) => m.sameAs n

end Graph

end LogicGraph
