import LogicGraph.Document.Problem

/-!
# Notices

Whatever happens on the way to a result is reported by notices, in the order in which it happens. A
notice is kept by its cause; its level and wording are functions of the cause.

## Main definitions

* `LogicGraph.Notice` — the causes.
* `LogicGraph.Notice.level`, `LogicGraph.Notice.text` — how a notice is logged.
* `LogicGraph.Notice.warning?` — the warning that a notice is for the caller, if it is one.
* `LogicGraph.Audited` — a computation with its notices.

## Main results

* `LogicGraph.Audited.outcome_bind`, `LogicGraph.Audited.notices_bind_ok`,
  `LogicGraph.Audited.notices_bind_error` — notices never influence an outcome, and those of a
  computation that fails are kept.
-/

namespace LogicGraph

/-- The levels of a log. -/
inductive Level where
  /-- Details of interest to a developer. -/
  | debug
  /-- The normal course of things. -/
  | info
  /-- Something that the user should look at. -/
  | warning
  /-- A failure. -/
  | error
  deriving DecidableEq, Repr

/-- The name of a level. -/
def Level.name : Level → String
  | .debug => "DEBUG"
  | .info => "INFO"
  | .warning => "WARNING"
  | .error => "ERROR"

/-- What is reported. -/
inductive Notice where
  /-- A document has a flaw. -/
  | flaw (f : Document.Flaw)
  /-- A node of unknown type is left out. -/
  | droppedNode (id typeName : String)
  /-- An edge is left out because one of its ends is no node. -/
  | detachedEdge (source target : String)
  /-- An edge is left out because one of its ends has no port for it. -/
  | portlessEdge (source target : String)
  /-- A node gets another identifier because its own is taken. -/
  | renamed (node base name : String)
  /-- An edge into a port is ignored because its source is no node. -/
  | danglingEdge (edge node port : String)
  /-- A node to be carried out does not exist. -/
  | missingNode (id : String)
  /-- A node to be carried out is being carried out already. -/
  | cycle (id : String)
  /-- An event program has been put together. -/
  | eventProgram (cells handlers : Nat)
  /-- A simulation has been put together. -/
  | simulationProgram (actions observations roots : Nat)
  /-- A simulation has several rewards, of which only the first is read. -/
  | extraRewards (count : Nat) (first : String)
  /-- A graph is nested too deeply. -/
  | tooDeep (graph target : String)
  /-- A program is not accepted. -/
  | rejected (target graph fault : String)
  /-- A graph has been compiled. -/
  | compiled (graph : String) (nodes edges : Nat) (target : String)
  /-- An interface description has been imported. -/
  | imported (count : Nat)
  /-- The graph of a workspace has been replaced. -/
  | replaced (nodes edges : Nat)
  /-- A workspace has been cleared. -/
  | cleared
  /-- The file that a workspace should start from does not exist. -/
  | seedMissing (path : String)
  /-- A workspace starts from a file. -/
  | seeded (graph path : String)
  /-- A request has been answered with a program. -/
  | generated (target : String)
  deriving DecidableEq, Repr

namespace Notice

/-- The level of a notice. -/
def level : Notice → Level
  | flaw _ | droppedNode _ _ | extraRewards _ _ | cleared | seedMissing _ => .warning
  | detachedEdge _ _ | portlessEdge _ _ | renamed _ _ _ | danglingEdge _ _ _ | missingNode _
  | cycle _ => .debug
  | eventProgram _ _ | simulationProgram _ _ _ | compiled _ _ _ _ | imported _ | replaced _ _
  | seeded _ _ | generated _ => .info
  | tooDeep _ _ | rejected _ _ _ => .error

/-- The wording of a notice. -/
def text : Notice → String
  | flaw f => f.message
  | droppedNode id typeName => s!"Dropping node '{id}': unknown type '{typeName}'"
  | detachedEdge source target => s!"Dropping edge {source} -> {target}: endpoint not in graph"
  | portlessEdge source target => s!"Dropping edge {source} -> {target}: no port to attach to"
  | renamed node base name => s!"Identifier collision: node '{node}' renamed '{base}' -> '{name}'"
  | danglingEdge edge node port => s!"Ignoring dangling edge '{edge}' into '{node}.{port}'"
  | missingNode id => s!"Skipping missing node '{id}'"
  | cycle id => s!"Cycle detected at node '{id}'; emitting no-op"
  | eventProgram cells handlers =>
    s!"Event backend: {cells} state variables, {handlers} trigger handlers"
  | simulationProgram actions observations roots =>
    s!"Simulation backend: {actions} action inputs, {observations} observations, " ++
      s!"{roots} top-level step nodes"
  | extraRewards count first => s!"{count} Reward nodes found; only '{first}' is read"
  | tooDeep graph target => s!"Graph '{graph}' is nested too deeply for target '{target}'"
  | rejected target graph fault =>
    s!"Generated {target} source for '{graph}' does not parse: {fault}"
  | compiled graph nodes edges target =>
    s!"Compiled '{graph}' ({nodes} nodes, {edges} edges) for target '{target}'"
  | imported count => s!"Imported {count} UI elements as nodes."
  | replaced nodes edges => s!"Graph replaced: {nodes} nodes, {edges} edges"
  | cleared => "Workspace cleared."
  | seedMissing path => s!"Seed graph '{path}' not found; starting with an empty graph"
  | seeded graph path => s!"Loaded seed graph '{graph}' from {path}"
  | generated target => s!"Python Logic Code Generated ({target})"

/-- The warning that a notice is for the caller, if it is one. -/
def warning? : Notice → Option String
  | flaw f => some f.message
  | _ => none

end Notice

/-- A computation that reports notices and then succeeds or fails. -/
structure Audited (ε α : Type) where
  /-- What has been reported. -/
  notices : List Notice
  /-- How the computation ended. -/
  outcome : Except ε α

namespace Audited

variable {ε ε' α β : Type}

/-- A result without notices. -/
def ok (a : α) : Audited ε α := ⟨[], .ok a⟩

/-- A failure without notices. -/
def fail (e : ε) : Audited ε α := ⟨[], .error e⟩

/-- Notices without a result. -/
def report (ns : List Notice) : Audited ε Unit := ⟨ns, .ok ()⟩

/-- One computation after another; a failure ends both. -/
def bind (x : Audited ε α) (f : α → Audited ε β) : Audited ε β :=
  match x.outcome with
  | .ok a =>
    let y := f a
    ⟨x.notices ++ y.notices, y.outcome⟩
  | .error e => ⟨x.notices, .error e⟩

/-- Computations are put one after the other: the notices are collected, and the first failure is
the last step. -/
instance : Monad (Audited ε) where
  pure := ok
  bind := bind

/-- A computation without notices. -/
def lift (x : Except ε α) : Audited ε α := ⟨[], x⟩

/-- The same computation with another account of a failure. -/
def mapError (f : ε → ε') (x : Audited ε α) : Audited ε' α :=
  ⟨x.notices, x.outcome.mapError f⟩

/-- The results for the members of a list, in order. -/
def mapList (f : α → Audited ε β) : List α → Audited ε (List β)
  | [] => ok []
  | a :: as => do
    let b ← f a
    let bs ← mapList f as
    ok (b :: bs)

/-- A result is the outcome. -/
@[simp] theorem outcome_ok (a : α) : (ok a : Audited ε α).outcome = .ok a := rfl

/-- A pure result is the outcome. -/
@[simp] theorem outcome_pure (a : α) : (pure a : Audited ε α).outcome = .ok a := rfl

/-- A pure result comes without notices. -/
@[simp] theorem notices_pure (a : α) : (pure a : Audited ε α).notices = [] := rfl

/-- Reporting succeeds. -/
@[simp] theorem outcome_report (ns : List Notice) :
    (report ns : Audited ε Unit).outcome = .ok () := rfl

/-- A computation without notices has the outcome that it had. -/
@[simp] theorem outcome_lift (x : Except ε α) : (lift x).outcome = x := rfl

/-- Two computations in a row end as the second does on the result of the first, or as the first if
that fails. -/
theorem outcome_bind (x : Audited ε α) (f : α → Audited ε β) :
    (x >>= f).outcome = x.outcome.bind fun a => (f a).outcome := by
  cases x with
  | mk ns o => cases o <;> rfl

/-- After a success the notices of both computations are there. -/
theorem notices_bind_ok {x : Audited ε α} {a : α} (h : x.outcome = .ok a) (f : α → Audited ε β) :
    (x >>= f).notices = x.notices ++ (f a).notices := by
  cases x with
  | mk ns o => simp only at h; subst h; rfl

/-- After a failure there are only the notices of the first computation. -/
theorem notices_bind_error {x : Audited ε α} {e : ε} (h : x.outcome = .error e)
    (f : α → Audited ε β) : (x >>= f).notices = x.notices := by
  cases x with
  | mk ns o => simp only at h; subst h; rfl

end Audited

end LogicGraph
