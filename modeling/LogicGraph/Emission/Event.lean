import LogicGraph.Emission.Body

/-!
# Event programs

The event program of a graph is a class with a variable for every node that declares one, a method
that returns all of them, and a method for every trigger.

## Main definitions

* `LogicGraph.eventRules` — how the nodes of an event program are named.
* `LogicGraph.eventProgram` — the program.
-/

namespace LogicGraph

/-- How the nodes of an event program are named. -/
def eventRules : NameRules where
  reserved := ["get_state"]
  handlerKinds := [.action, .nav]
  handlerName := some triggerMethod

/-- A text as it stands in the description of a method: on one line, backslashes doubled, double
quotes single. -/
def docstringText (s : String) : String :=
  String.ofList ((Text.oneLine s).toList.flatMap fun c =>
    if c = '\\' then ['\\', '\\'] else if c = '"' then ['\''] else [c])

/-- The assignment of its first value to the variable of a node. -/
def initialAssign (s : Scope) (remark : Node → Option String) (n : Node) :
    Audited EmitError Stmt := do
  let l ← Scope.literal (.int 0) n.value
  return .assign (s.nameOf n) (.literal l) (remark n)

/-- The remark behind the first value of a node. -/
def purposeRemark (n : Node) : Option String :=
  (nonempty? n.purpose).map Text.oneLine

/-- The statements of the constructor. -/
def eventConstructor (s : Scope) (declared : List Node) : Emission := do
  let assigns ← Audited.mapList (initialAssign s purposeRemark) declared
  return orPass
    ((if declared.isEmpty then [] else [.comment "UI State Variables (Mapped from Graph)"]) ++
      assigns)

/-- The method of a trigger. -/
def EntryPoint.toMethod (e : EntryPoint) : Method where
  name := e.methodName
  body := .docstring ("Logic triggered by " ++ docstringText e.node.displayName) :: e.body

/-- The event program of a graph. -/
def eventProgram (limit : Nat) (g : Graph) : Audited EmitError Program := do
  Audited.report (eventRules.notices g.nodes)
  let s : Scope := ⟨g, NameTable.ofGraph g eventRules⟩
  let declared := g.nodes.filter Node.declaresVariable
  let initial ← eventConstructor s declared
  let entryPoints ← s.entryPoints limit
  Audited.report [.eventProgram declared.length entryPoints.length]
  return {
    title := "NeuroFlow Auto-Generated Logic Engine"
    graphName := Text.oneLine g.name
    className := "NeuroFlowEnv"
    constructor := { name := "__init__", body := initial }
    methods :=
      { name := "get_state", body := [.returnState (declared.map s.nameOf)] } ::
        entryPoints.map EntryPoint.toMethod }

end LogicGraph
