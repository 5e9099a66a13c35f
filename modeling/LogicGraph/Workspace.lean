import LogicGraph.Compile
import LogicGraph.Document.Write

/-!
# Workspaces

A workspace holds the graph that an editor shows. An action on it either succeeds, when it may put
another graph in place of the held one, or fails, when the held graph stays as it was. Actions are
performed on a machine, which may fail as well.

## Main definitions

* `LogicGraph.Workspace` — the held graph.
* `LogicGraph.Action` — what can be done.
* `LogicGraph.Action.effect` — the graph that an action puts in place, and its answer.
* `LogicGraph.Workspace.performOn` — an action on a workspace, on a machine.
* `LogicGraph.Workspace.perform`, `LogicGraph.Workspace.performAll` — actions on a workspace, on the
  standard machine.
-/

namespace LogicGraph

/-- The graph that an editor shows. -/
structure Workspace where
  /-- The graph. -/
  graph : Graph := {}
  deriving DecidableEq, Repr

/-- What can be done with a workspace. -/
inductive Action where
  /-- Start again, from a file if one is named. -/
  | restart (seed : Option String)
  /-- Put a loaded graph in place. -/
  | replace (source : GraphSource) (strict : Bool)
  /-- Put the graph of an interface description in place. -/
  | importInterface (v : Json)
  /-- Put the empty graph in place. -/
  | clear
  /-- Compile a given graph, or the held one. -/
  | compile (requested : Json) (source : Option GraphSource)
  deriving DecidableEq, Repr

/-- What an action answers. -/
inductive Answer where
  /-- Nothing. -/
  | done
  /-- The number of nodes. -/
  | count (n : Nat)
  /-- The text of a program. -/
  | source (s : String)
  deriving DecidableEq, Repr

variable {ε : Type}

/-- The graph that a workspace starts with. -/
def seedGraph (m : Machine ε) (t : FileTree) (seed : Option String) : Audited (Failure ε) Graph :=
  match nonempty? seed with
  | none => pure {}
  | some s => do
    let p := Path.ofString s
    if ← Audited.lift ((t.isThere p).mapError .file) then do
      let g ← m.graphOfFile t false p
      Audited.report [.seeded g.name p.text]
      return g
    else do
      Audited.report [.seedMissing p.text]
      return {}

/-- What an action does while a graph is held: the graph that it puts in place, if any, and its
answer. -/
def Action.effect (m : Machine ε) (t : FileTree) (held : Graph) :
    Action → Audited (Failure ε) (Option Graph × Answer)
  | .restart seed => do
    let g ← seedGraph m t seed
    return (some g, .done)
  | .replace source strict => do
    let g ← m.load t strict source
    Audited.report [.replaced g.nodes.length g.edges.length]
    return (some g, .count g.nodes.length)
  | .importInterface v => do
    let g ← (Graph.ofInterface v Interface.importedName).mapError .interface
    return (some g, .count g.nodes.length)
  | .clear => do
    Audited.report [.cleared]
    return (some {}, .done)
  | .compile requested source => do
    let g ← match source with
      | some source => m.load t false source
      | none => pure held
    let text ← m.compileFor g requested
    return (none, .source text)

namespace Workspace

/-- Performs an action on a machine: the workspace after it, and the answer with its notices. -/
def performOn (m : Machine ε) (t : FileTree) (w : Workspace) (a : Action) :
    Workspace × Audited (Failure ε) Answer :=
  let done := a.effect m t w.graph
  match done.outcome with
  | .ok (some g, answer) => (⟨g⟩, ⟨done.notices, .ok answer⟩)
  | .ok (none, answer) => (w, ⟨done.notices, .ok answer⟩)
  | .error e => (w, ⟨done.notices, .error e⟩)

/-- Performs an action on the standard machine. -/
def perform (t : FileTree) (w : Workspace) (a : Action) : Workspace × Audited Failure Answer :=
  w.performOn .standard t a

/-- Performs actions one after another. -/
def performAll (t : FileTree) (w : Workspace) (as : List Action) : Workspace :=
  as.foldl (fun w a => (w.perform t a).1) w

end Workspace

end LogicGraph
