import LogicGraph.Service.Framework
import LogicGraph.Workspace

/-!
# Requests

A workspace is served to an editor by requests and replies. A request is a method, an address and a
body; the reply is a status and a body.

## Main definitions

* `LogicGraph.Workspace.serveBy` — the reply to a request, on a machine with a framework.
* `LogicGraph.Workspace.serve` — the same on the standard machine with the standard framework.

## Implementation notes

A framework may fail to carry an answer. The request has done its work then: a graph that was put
stays in the workspace, and every later request for it fails as well.
-/

namespace LogicGraph

/-- The fields of a body that has to be an object. -/
def Framework.fields (f : Framework) (b : RequestBody) : Except Reply (List (String × Json)) := do
  match ← f.readBody b with
  | some (.object fields) => .ok fields
  | some v => .error (f.refuse [v])
  | none => .error (f.refuse [])

/-- The target that a body asks for, or the value that is none. -/
def targetField (fields : List (String × Json)) : Except Json String :=
  match Json.lookup fields "target" with
  | none => .ok "event"
  | some (.string s) => .ok s
  | some v => .error v

/-- The graph that a body brings along, or the value that is none. -/
def graphField (fields : List (String × Json)) : Except Json (Option GraphSource) :=
  match Json.given? fields "graph" with
  | none => .ok none
  | some (.object inner) => .ok (some (.document (.object inner)))
  | some v => .error v

/-- The target and the graph that a body asks for. -/
def Framework.compileFields (f : Framework) (fields : List (String × Json)) :
    Except Reply (String × Option GraphSource) :=
  match targetField fields, graphField fields with
  | .ok target, .ok source => .ok (target, source)
  | .error v, .ok _ | .ok _, .error v => .error (f.refuse [v])
  | .error v, .error w => .error (f.refuse [v, w])

/-- The reply to a failure of loading or importing. -/
def failureReply {ε : Type} (e : Failure ε) : Reply :=
  if e.isInvalidValue then detailReply 400 (.string e.message) else internalError

/-- The reply to a failure of compiling. -/
def compileFailureReply {ε : Type} : Failure ε → Reply
  | .compile e =>
    detailReply 400 (.object [("reason", .string e.reason), ("message", .string e.message)])
  | e =>
    if e.isInvalidValue then
      detailReply 400
        (.object [("reason", .string "invalid_snapshot"), ("message", .string e.message)])
    else internalError

/-- The reply to a program that has been compiled. -/
def Framework.codeReply (f : Framework) (target source : String) : Reply :=
  f.carry (.object [("target", .string target), ("code", .string source)])

/-- What serving a request gives: the workspace after it, the notices and the reply. -/
structure Served where
  /-- The workspace. -/
  workspace : Workspace
  /-- The notices. -/
  notices : List Notice := []
  /-- The reply. -/
  reply : Reply
  deriving DecidableEq, Repr

namespace Workspace

variable {ε : Type} (m : Machine ε) (f : Framework)

/-- Serves a request that changes the graph: the reply is the new graph. -/
def serveChange (w : Workspace) (a : Action) : Served :=
  let (after, done) := w.performOn m {} a
  let reply := match done.outcome with
    | .ok _ => f.carry after.graph.toJson
    | .error e => failureReply e
  ⟨after, done.notices, reply⟩

/-- Serves a request to compile. -/
def serveCompile (w : Workspace) (target : String) (source : Option GraphSource) : Served :=
  let (after, done) := w.performOn m {} (.compile (.string target) source)
  match done.outcome with
  | .ok (.source text) => ⟨after, done.notices ++ [.generated target], f.codeReply target text⟩
  | .ok _ => ⟨after, done.notices, internalError⟩
  | .error e => ⟨after, done.notices, compileFailureReply e⟩

/-- Serves what a route asks for, or gives the reply that refuses it. -/
def serveRoute (w : Workspace) (r : Request) : Route → Except Reply Served
  | .health => .ok ⟨w, [], f.carry (.object [("status", .string "ok")])⟩
  | .getGraph => .ok ⟨w, [], f.carry w.graph.toJson⟩
  | .putGraph => do
    let fields ← f.fields r.body
    let strict ← f.flag r "strict"
    return w.serveChange m f (.replace (.document (.object fields)) strict)
  | .deleteGraph =>
    let (after, done) := w.performOn m {} .clear
    .ok ⟨after, done.notices, ⟨204, .none⟩⟩
  | .importGraph => do
    let fields ← f.fields r.body
    return w.serveChange m f (.importInterface (.object fields))
  | .compile => do
    let fields ← f.fields r.body
    let (target, source) ← f.compileFields fields
    return w.serveCompile m f target source
  | .targets => .ok ⟨w, [], f.carry (.array (Target.all.map fun t => .string t.name))⟩
  | .nodeKinds => .ok ⟨w, [], f.carry Kind.catalogue⟩
  | .page => .ok ⟨w, [], ⟨200, .none⟩⟩

/-- Serves a request on a machine with a framework. -/
def serveBy (w : Workspace) (r : Request) : Served :=
  match f.route r >>= w.serveRoute m f r with
  | .ok served => { served with reply := f.send r served.reply }
  | .error reply => ⟨w, [], f.send r reply⟩

/-- Serves a request on the standard machine with the standard framework. -/
def serve (w : Workspace) (r : Request) : Served :=
  w.serveBy .standard .standard r

end Workspace

end LogicGraph
