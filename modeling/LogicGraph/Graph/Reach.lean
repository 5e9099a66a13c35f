import LogicGraph.Graph.Basic

/-!
# What lies beneath a node

A trigger and a choice are carried out together with the nodes that their body ports lead to, and
with what lies beneath those in turn. A graph may have cycles, so this module collects the ids
beneath a node by a search.

## Main definitions

* `LogicGraph.Graph.bodyTargets` — the ids that the body ports of a node lead to.
* `LogicGraph.Graph.beneath` — the ids that are reached from given ones by one or more such steps,
  missing nodes included.
* `LogicGraph.Graph.nested` — the ids beneath one node.
* `LogicGraph.Graph.stepRoots` — the nodes that a simulation evaluates in their own right.

## Implementation notes

The search takes an id at each step and puts back only ids that it has not found before. All of
these are targets of edges, so it ends after as many steps as there are edges and ids to start from;
that number is the `fuel`.
-/

namespace LogicGraph.Graph

/-- The ids that the body ports of a node lead to; none if there is no such node. -/
def bodyTargets (g : Graph) (id : String) : List String :=
  match g.node? id with
  | none => []
  | some n => n.bodyPorts.flatMap (g.targets n.id)

/-- Those members of a list that have not been found before, each once. -/
def unfound (found : List String) : List String → List String
  | [] => []
  | s :: rest => if s ∈ found then unfound found rest else s :: unfound (s :: found) rest

/-- The search: `waiting` ids are still to be followed, `found` ones have been reached. -/
def search (g : Graph) : Nat → List String → List String → List String
  | 0, _, found => found
  | _ + 1, [], found => found
  | fuel + 1, id :: waiting, found =>
    let fresh := unfound found (g.bodyTargets id)
    g.search fuel (fresh ++ waiting) (fresh ++ found)

/-- The ids beneath some of the given ids. -/
def beneath (g : Graph) (ids : List String) : List String :=
  g.search (g.edges.length + ids.length) ids []

/-- The ids beneath a node. -/
def nested (g : Graph) (id : String) : List String :=
  g.beneath [id]

/-! ## Roots of a step -/

/-- The nodes that a simulation evaluates. -/
def evaluated (g : Graph) : List Node :=
  g.nodes.filter (·.kind.isEvaluated)

/-- The ids beneath some choice. -/
def beneathChoices (g : Graph) : List String :=
  g.beneath ((g.nodesOf [.ifElse]).map Node.id)

/-- Goes through evaluated nodes and takes each that is not covered yet; `covered` grows by the node
and by what lies beneath it. -/
def promote (g : Graph) : List String → List Node → List Node
  | _, [] => []
  | covered, n :: rest =>
    if n.id ∈ covered then g.promote covered rest
    else n :: g.promote (n.id :: g.nested n.id ++ covered) rest

/-- The evaluated nodes beneath no choice. -/
def freeRoots (g : Graph) : List Node :=
  let taken := g.beneathChoices
  g.evaluated.filter fun n => !taken.contains n.id

/-- The nodes that a step carries out in their own right, as they are chosen: those beneath no
choice, and then those that nothing chosen so far covers. -/
def chosenRoots (g : Graph) : List Node :=
  let free := g.freeRoots
  let ids := free.map Node.id
  free ++ g.promote (ids ++ g.beneath ids) g.evaluated

/-- The number of nodes in front of a node. -/
def placeOf (g : Graph) (n : Node) : Nat :=
  (g.nodes.map Node.id).idxOf n.id

/-- A sorted list with one more node. -/
def insertByPlace (g : Graph) (n : Node) : List Node → List Node
  | [] => [n]
  | m :: rest => if g.placeOf n ≤ g.placeOf m then n :: m :: rest else m :: g.insertByPlace n rest

/-- The nodes that a step of a simulation carries out in their own right, sorted by their places:
those beneath no choice, and of every cycle that is entered from nowhere else its first node. -/
def stepRoots (g : Graph) : List Node :=
  g.chosenRoots.foldr g.insertByPlace []

end LogicGraph.Graph
