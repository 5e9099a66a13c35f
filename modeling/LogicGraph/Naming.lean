import LogicGraph.Graph.Basic
import LogicGraph.Notice
import LogicGraph.Text.Identifier

/-!
# Identifiers of nodes

Every node of a graph gets an identifier of its own. Nodes are served in order: the first to ask for
an identifier gets it, and every later one gets the first free one with a number behind, from two
on. Reserved names, those of methods that every program has, are never free.

Some programs also have one method for each node of certain kinds, with a name made from the node's
identifier. Then, in a second round, nodes of other kinds that hold the name of such a method get
another one.

## Main definitions

* `LogicGraph.NameRules` — what is reserved and which nodes have methods.
* `LogicGraph.claim` — the identifier that a node gets.
* `LogicGraph.NameTable` — the identifiers of a graph.
* `LogicGraph.NameTable.ofGraph` — the table of a graph under given rules.

## Implementation notes

Among `taken.length + 1` numbered candidates one is free, so that many are tried.
-/

namespace LogicGraph

/-- What is reserved and which nodes have methods of their own. -/
structure NameRules where
  /-- The reserved names. -/
  reserved : List String := []
  /-- The kinds of nodes that have methods. -/
  handlerKinds : List Kind := []
  /-- The name of the method of a node with the given identifier; absent if there are no such
  methods. -/
  handlerName : Option (String → String) := none

/-- An identifier with a number behind. -/
def numbered (base : String) (k : Nat) : String :=
  s!"{base}_{k}"

/-- The first number from `k` on that makes a free identifier; at most `fuel` are tried. -/
def freeNumber (taken : List String) (base : String) : Nat → Nat → Nat
  | 0, k => k
  | fuel + 1, k => if numbered base k ∈ taken then freeNumber taken base fuel (k + 1) else k

/-- The identifier for a node that asks for `base`. -/
def claim (taken : List String) (base : String) : String :=
  if base ∈ taken then numbered base (freeNumber taken base (taken.length + 1) 2) else base

/-- The identifier that a node asks for. -/
def Node.baseName (n : Node) : String :=
  Text.identifier n.rawName n.id

/-- The first round: every node with its identifier. -/
def claimAll : List String → List Node → List (Node × String)
  | _, [] => []
  | taken, n :: rest =>
    let name := claim taken n.baseName
    (n, name) :: claimAll (name :: taken) rest

/-- The second round: nodes of other kinds give up the names of methods. -/
def yieldHandlers (kinds : List Kind) (handlers : List String) :
    List String → List (Node × String) → List (Node × String)
  | _, [] => []
  | taken, (n, name) :: rest =>
    if kinds.contains n.kind || !handlers.contains name then
      (n, name) :: yieldHandlers kinds handlers taken rest
    else
      let other := claim taken name
      (n, other) :: yieldHandlers kinds handlers (other :: taken) rest

/-- The names of the methods of nodes. -/
def handlerNames (kinds : List Kind) (handlerName : String → String)
    (named : List (Node × String)) : List String :=
  (named.filter fun p => kinds.contains p.1.kind).map fun p => handlerName p.2

/-- Every node with the identifier it ends up with. -/
def NameRules.apply (r : NameRules) (nodes : List Node) : List (Node × String) :=
  let named := claimAll r.reserved nodes
  match r.handlerName with
  | none => named
  | some handlerName =>
    let handlers := handlerNames r.handlerKinds handlerName named
    yieldHandlers r.handlerKinds handlers (handlers ++ named.map (·.2) ++ r.reserved) named

/-- The notices about nodes that ended up with another identifier than before. -/
def renamings (before after : List (Node × String)) : List Notice :=
  (before.zip after).filterMap fun (b, a) =>
    if b.2 = a.2 then none else some (.renamed b.1.id b.2 a.2)

/-- The notices about all renamings of both rounds. -/
def NameRules.notices (r : NameRules) (nodes : List Node) : List Notice :=
  let named := claimAll r.reserved nodes
  renamings (nodes.map fun n => (n, n.baseName)) named ++ renamings named (r.apply nodes)

/-- The identifiers of a graph, by node id. -/
structure NameTable where
  /-- Ids and identifiers, in the order of the nodes. -/
  entries : List (String × String)
  deriving DecidableEq, Repr

namespace NameTable

/-- The table of a graph under given rules. -/
def ofGraph (g : Graph) (r : NameRules) : NameTable :=
  ⟨(r.apply g.nodes).map fun p => (p.1.id, p.2)⟩

/-- The identifier of a node, if the table has it. -/
def name? (t : NameTable) (id : String) : Option String :=
  t.entries.lookup id

/-- The identifier of a node, or the one of last resort. -/
def name (t : NameTable) (id : String) : String :=
  (t.name? id).getD Text.lastResort

end NameTable

end LogicGraph
