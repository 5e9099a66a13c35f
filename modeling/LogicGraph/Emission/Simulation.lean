import LogicGraph.Emission.Event

/-!
# Simulations

The simulation of a graph is a class that is reset and then goes on step by step. A step adds the
entries of an action to the nodes that take one, evaluates nodes in the order of the graph, and
computes a reward. What lies beneath a choice is evaluated only where the choice leads to it.

## Main definitions

* `LogicGraph.simulationRules` — how the nodes of a simulation are named.
* `LogicGraph.simulationProgram` — the program.
-/

namespace LogicGraph

/-- How the nodes of a simulation are named. -/
def simulationRules : NameRules where
  reserved := ["reset", "step", "get_observation"]

/-- The statements that add the entries of the action. -/
def actionStmts (s : Scope) (actions : List Node) : List Stmt :=
  actions.mapIdx fun i n => .increment (s.nameOf n) i

/-- The statements that evaluate the roots of a step. -/
def rootStmts (s : Scope) (limit : Nat) (roots : List Node) : Emission := do
  let bodies ← Audited.mapList (fun n => s.node limit [] n.id) roots
  return bodies.flatten

/-- The reward: the value of the first reward node. -/
def rewardExpr (s : Scope) : Audited EmitError Expr :=
  match s.graph.nodesOf [.reward] with
  | [] => return .term .noReward
  | [n] => s.inputExpr n "value" .sum .noReward
  | n :: rest => do
    Audited.report [.extraRewards (rest.length + 1) n.id]
    s.inputExpr n "value" .sum .noReward

/-- The simulation of a graph. -/
def simulationProgram (limit : Nat) (g : Graph) : Audited EmitError Program := do
  Audited.report (simulationRules.notices g.nodes)
  let s : Scope := ⟨g, NameTable.ofGraph g simulationRules⟩
  let declared := g.nodes.filter Node.declaresVariable
  let actions := g.nodes.filter Node.takesAction
  let observations := g.nodes.filter Node.isObserved
  let resettable := g.nodes.filter (·.kind.isResettable)
  let roots := g.stepRoots
  let initial ← Audited.mapList (initialAssign s fun _ => none) declared
  let reset ← Audited.mapList (initialAssign s fun _ => none) resettable
  let evaluation ← rootStmts s limit roots
  let reward ← rewardExpr s
  Audited.report [.simulationProgram actions.length observations.length roots.length]
  return {
    title := "NeuroFlow Auto-Generated Simulation Environment"
    graphName := Text.oneLine g.name
    imports := ["import numpy as np"]
    className := "NeuroFlowSimEnv"
    constructor := { name := "__init__", body := orPass initial }
    methods := [
      { name := "get_observation", body := [.returnObservation (observations.map s.nameOf)] },
      { name := "reset", body := reset ++ [.returnReset] },
      { name := "step", parameters := ["action"],
        body := actionStmts s actions ++ evaluation ++ [.reward reward, .returnStep] }] }

end LogicGraph
