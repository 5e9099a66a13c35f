import LogicGraph.Service
import LogicGraph.Proofs.Compile
import LogicGraph.Proofs.Workspace

set_option relaxedAutoImplicit false
set_option autoImplicit false

/-!
# What happens to a workspace

A workspace is changed by actions, and a service performs actions as requests ask for them. Whatever
happens to a workspace, on whatever machine and in whatever order, the graph that it holds is the
one that was put in place last. Actions that fail put none in place, and neither does compiling. A
request to compile a graph is answered just as compiling that graph ends.

## Main definitions

* `LogicGraph.Action.product?` — the graph that an action puts in place.
* `LogicGraph.Framework.Faithful` — what is expected of a framework.
* `LogicGraph.Request.action?` — the action that a request asks for.
* `LogicGraph.Event` — what can happen to a workspace: an action or a request.
* `LogicGraph.Workspace.run` — a workspace after one event after another.

## Main results

* `LogicGraph.Workspace.graph_performOn` — one action puts its product in place, and nothing if it
  has none.
* `LogicGraph.Workspace.workspace_serveBy` — serving a request is performing the action that it asks
  for.
* `LogicGraph.Workspace.graph_run` — the held graph is the last product.
* `LogicGraph.Workspace.run_holds_last_product` — the same, with what every single action leaves and
  answers and what the requests to the service ask for.
* `LogicGraph.Workspace.reply_serve_compile` — the reply to a request to compile a graph.

## Design

The product of an action does not depend on the graph that is held, so it is defined by what the
action loads or imports and not by what performing it does.
-/

namespace LogicGraph

variable {ε : Type} {m : Machine ε}

/-! ## Actions -/

/-- The graph that an action puts in place: what it loads or imports, or the empty graph. Compiling
puts none in place, and neither does an action that fails. -/
def Action.product? (m : Machine ε) (t : FileTree) : Action → Option Graph
  | .restart seed => (seedGraph m t seed).outcome.toOption
  | .replace source strict => (m.load t strict source).outcome.toOption
  | .importInterface v => (Graph.ofInterface v Interface.importedName).outcome.toOption
  | .clear => some {}
  | .compile _ _ => none

/-- Whether an action is to compile. -/
def Action.IsCompile : Action → Prop
  | .compile _ _ => True
  | _ => False

/-- How compiling ends: the given graph is loaded, or the held one taken, and then compiled. -/
lemma Action.outcome_effect_compile (t : FileTree) (held : Graph) (requested : Json)
    (source : Option GraphSource) :
    ((Action.compile requested source).effect m t held).outcome =
      ((source.elim (pure held) (m.load t false)).outcome.bind fun g =>
        (m.compileFor g requested).outcome).map fun text => (none, .source text) := by
  have hnext : ∀ g : Graph, ((m.compileFor g requested).outcome.bind fun text =>
      (pure (none, .source text) : Audited (Failure ε) (Option Graph × Answer)).outcome) =
      (m.compileFor g requested).outcome.map fun text => (none, .source text) := by
    intro g
    cases (m.compileFor g requested).outcome <;> rfl
  cases source with
  | none =>
    simp only [effect, Audited.pure_bind, Audited.outcome_bind, hnext]
    rfl
  | some source =>
    simp only [effect, Audited.outcome_bind, hnext, Option.elim_some]
    cases (m.load t false source).outcome <;> rfl

/-- **What an action can do**: put its product in place, give out a program, or fail. -/
lemma Action.effect_cases (m : Machine ε) (t : FileTree) (held : Graph) (a : Action) :
    (∃ g answer, (a.effect m t held).outcome = .ok (some g, answer) ∧ a.product? m t = some g ∧
      ¬ a.IsCompile) ∨
    (∃ answer, (a.effect m t held).outcome = .ok (none, answer) ∧ a.product? m t = none ∧
      a.IsCompile) ∨
    ∃ e, (a.effect m t held).outcome = .error e ∧ a.product? m t = none := by
  cases a with
  | restart seed =>
    simp only [effect, product?, Audited.outcome_bind]
    cases (seedGraph m t seed).outcome with
    | ok g => exact .inl ⟨g, .done, rfl, rfl, id⟩
    | error e => exact .inr (.inr ⟨e, rfl, rfl⟩)
  | replace source strict =>
    simp only [effect, product?, Audited.outcome_bind]
    cases (m.load t strict source).outcome with
    | ok g => exact .inl ⟨g, .count g.nodes.length, rfl, rfl, id⟩
    | error e => exact .inr (.inr ⟨e, rfl, rfl⟩)
  | importInterface v =>
    simp only [effect, product?, Audited.outcome_bind, Audited.mapError]
    cases (Graph.ofInterface v Interface.importedName).outcome with
    | ok g => exact .inl ⟨g, .count g.nodes.length, rfl, rfl, id⟩
    | error e => exact .inr (.inr ⟨.interface e, rfl, rfl⟩)
  | clear => exact .inl ⟨{}, .done, rfl, rfl, id⟩
  | compile requested source =>
    rw [outcome_effect_compile]
    cases (source.elim (pure held) (m.load t false)).outcome.bind fun g =>
      (m.compileFor g requested).outcome with
    | ok text => exact .inr (.inl ⟨.source text, rfl, rfl, trivial⟩)
    | error e => exact .inr (.inr ⟨e, rfl, rfl⟩)

namespace Workspace

variable {w : Workspace} {t : FileTree} {a : Action}

/-- **One action** puts its product in place, and leaves the held graph if it has none. -/
lemma graph_performOn : (w.performOn m t a).1.graph = (a.product? m t).getD w.graph := by
  rcases a.effect_cases m t w.graph with
    ⟨g, answer, hout, hproduct, -⟩ | ⟨answer, hout, hproduct, -⟩ | ⟨e, hout, hproduct⟩ <;>
    simp [performOn, hout, hproduct]

/-- An action ends as its effect does. -/
lemma outcome_performOn :
    (w.performOn m t a).2.outcome = (a.effect m t w.graph).outcome.map Prod.snd := by
  rcases a.effect_cases m t w.graph with
    ⟨g, answer, hout, -⟩ | ⟨answer, hout, -⟩ | ⟨e, hout, -⟩ <;>
    simp [performOn, hout, Except.map]

/-- An action has no product exactly if it fails or compiles. -/
lemma product?_eq_none_iff (w : Workspace) :
    a.product? m t = none ↔ (∃ e, (w.performOn m t a).2.outcome = .error e) ∨ a.IsCompile := by
  rw [outcome_performOn]
  rcases a.effect_cases m t w.graph with
    ⟨g, answer, hout, hproduct, hnot⟩ | ⟨answer, hout, hproduct, hcompile⟩ | ⟨e, hout, hproduct⟩
  · simp [hout, hproduct, hnot, Except.map]
  · simp [hproduct, hcompile]
  · simp [hout, hproduct, Except.map]

/-- An action without a product leaves the workspace as it is. -/
lemma performOn_eq_self (h : a.product? m t = none) : (w.performOn m t a).1 = w := by
  have hgraph : (w.performOn m t a).1.graph = w.graph := by
    rw [graph_performOn, h, Option.getD_none]
  cases w
  exact congrArg Workspace.mk hgraph

/-- Compiling a given graph ends as putting it in place and compiling what is held. -/
lemma outcome_performOn_compile (requested : Json) (source : GraphSource) :
    (w.performOn m t (.compile requested (some source))).2.outcome =
      (w.performOn m t (.replace source false)).2.outcome.bind fun _ =>
        ((w.performOn m t (.replace source false)).1.performOn m t
          (.compile requested none)).2.outcome := by
  simp only [outcome_performOn, graph_performOn, Action.product?, Action.effect,
    Audited.outcome_bind]
  cases (m.load t false source).outcome with
  | ok g => rfl
  | error e => rfl

end Workspace

/-! ## Frameworks -/

/-- What is expected of a framework: it knows the routes by their methods and paths, hands on the
values of bodies and flags, and sends what it is given. -/
structure Framework.Faithful (f : Framework) : Prop where
  /-- A request for a route takes it. -/
  route : ∀ r, ∀ entry ∈ routes, r.method = entry.1 → r.address = entry.2.1 →
    f.route r = .ok entry.2.2
  /-- A value in a body is read. -/
  readBody : ∀ v, f.readBody (.value v) = .ok (some v)
  /-- A flag is not set if there is no query. -/
  flag_absent : ∀ r key, ∀ entry ∈ routes, r.address = entry.2.1 → r.query = none →
    f.flag r key = .ok false
  /-- A flag is set as the query says. -/
  flag_given : ∀ r key b, r.query = some [(key, toString b)] → f.flag r key = .ok b
  /-- An object with texts is carried as it is. -/
  carry : ∀ texts : List (String × String),
    f.carry (.object (texts.map fun (k, s) => (k, .string s))) =
      ⟨200, .value (.object (texts.map fun (k, s) => (k, .string s)))⟩
  /-- A whole reply is sent, unless its head alone is asked for. -/
  send : ∀ r reply, Text.upperCase r.method ≠ "HEAD" → f.send r reply = reply

/-- Texts are carried as they are. -/
lemma Json.sendableFields_texts (texts : List (String × String)) :
    Json.sendableFields (texts.map fun (k, s) => (k, .string s)) =
      texts.map fun (k, s) => (k, .string s) := by
  induction texts with
  | nil => rfl
  | cons entry rest ih =>
    rw [List.map_cons, Json.sendableFields, ih]
    rfl

/-- Texts are not high. -/
lemma Json.fieldsHeight_texts_le (texts : List (String × String)) :
    Json.fieldsHeight (texts.map fun (k, s) => (k, .string s)) ≤ 1 := by
  induction texts with
  | nil => decide
  | cons entry rest ih =>
    rw [List.map_cons, Json.fieldsHeight]
    exact max_le le_rfl ih

/-- The standard framework is faithful. -/
lemma Framework.faithful_standard : Framework.standard.Faithful where
  route r entry hentry hmethod haddress := by
    have hroutes : ∀ entry ∈ routes, (findRoute (Text.upperCase entry.1)
        (servedPath (Address.ofString entry.2.1).path)).toOption = some entry.2.2 := by
      decide +kernel
    show findRoute (Text.upperCase r.method) (servedPath (Address.ofString r.address).path) = _
    rw [hmethod, haddress]
    exact toOption_eq_some.mp (hroutes entry hentry)
  readBody _ := rfl
  flag_absent r key entry hentry haddress hquery := by
    have hroutes : ∀ entry ∈ routes, (Address.ofString entry.2.1).query = [] := by decide +kernel
    have hpairs : r.queryPairs = [] := by
      rw [Request.queryPairs, hquery, haddress]
      exact hroutes entry hentry
    show queryFlag r.queryPairs key = _
    rw [hpairs]
    rfl
  flag_given r key b hquery := by
    have hpairs : r.queryPairs = [(key, toString b)] := by rw [Request.queryPairs, hquery]; rfl
    have hlookup : [(key, toString b)].reverse.lookup key = some (toString b) := by simp
    have hword : String.ofList ((toString b).toList.map Char.toLower) = toString b := by
      cases b <;> decide
    show queryFlag r.queryPairs key = _
    simp only [queryFlag, hpairs, hlookup, hword]
    cases b <;> rfl
  carry texts := by
    have hheight := Json.fieldsHeight_texts_le texts
    show valueReply _ = _
    rw [valueReply, Json.sendable, Json.sendableFields_texts, if_pos]
    rw [Json.height, replyHeightLimit]
    omega
  send r reply h := if_neg h

/-! ## Requests -/

/-- The action that a request asks for on a route, unless it is refused or asks for none. -/
def Route.action? (f : Framework) (r : Request) : Route → Option Action
  | .putGraph => do
    let fields ← (f.fields r.body).toOption
    let strict ← (f.flag r "strict").toOption
    return .replace (.document (.object fields)) strict
  | .deleteGraph => some .clear
  | .importGraph => do
    let fields ← (f.fields r.body).toOption
    return .importInterface (.object fields)
  | .compile => do
    let fields ← (f.fields r.body).toOption
    let (target, source) ← (f.compileFields fields).toOption
    return .compile (.string target) source
  | .health | .getGraph | .targets | .nodeKinds | .page => none

/-- The action that a request asks for, unless it is refused or asks for none. -/
def Request.action? (f : Framework) (r : Request) : Option Action :=
  (f.route r).toOption.bind (Route.action? f r)

/-- A request for a route asks for what the route does. -/
lemma Framework.Faithful.action?_eq {f : Framework} (hf : f.Faithful) {r : Request}
    (entry : String × String × Route) (hentry : entry ∈ routes) (hmethod : r.method = entry.1)
    (hpath : r.address = entry.2.1) : r.action? f = entry.2.2.action? f r := by
  rw [Request.action?, hf.route r entry hentry hmethod hpath]
  rfl

/-- The fields of an object in a body are read. -/
lemma Framework.Faithful.fields_eq {f : Framework} (hf : f.Faithful)
    (fields : List (String × Json)) : f.fields (.value (.object fields)) = .ok fields := by
  rw [Framework.fields, hf.readBody]
  rfl

namespace Workspace

variable (m) (f : Framework)

/-- The workspace after an action, or as it is if there is none. -/
def performIfAny (w : Workspace) (t : FileTree) (a? : Option Action) : Workspace :=
  a?.elim w fun a => (w.performOn m t a).1

/-- A request to compile leaves what compiling leaves. -/
lemma workspace_serveCompile (w : Workspace) (target : String) (source : Option GraphSource) :
    (w.serveCompile m f target source).workspace =
      (w.performOn m {} (.compile (.string target) source)).1 := by
  unfold serveCompile
  simp only
  split <;> rfl

/-- A route that is served performs the action that it is asked for, and one that is refused
performs none. -/
lemma workspace_serveRoute (w : Workspace) (r : Request) (route : Route) :
    (match w.serveRoute m f r route with
      | .ok served => served.workspace
      | .error _ => w) = w.performIfAny m {} (route.action? f r) := by
  cases route with
  | health | getGraph | deleteGraph | targets | nodeKinds | page => rfl
  | putGraph =>
    simp only [serveRoute, Route.action?]
    cases f.fields r.body with
    | error reply => rfl
    | ok fields =>
      cases f.flag r "strict" with
      | error reply => rfl
      | ok strict => rfl
  | importGraph =>
    simp only [serveRoute, Route.action?]
    cases f.fields r.body with
    | error reply => rfl
    | ok fields => rfl
  | compile =>
    simp only [serveRoute, Route.action?]
    cases f.fields r.body with
    | error reply => rfl
    | ok fields =>
      simp only [ok_bind, Except.toOption, Option.bind_eq_bind, Option.bind_some]
      cases f.compileFields fields with
      | error reply => rfl
      | ok asked =>
        obtain ⟨target, source⟩ := asked
        exact workspace_serveCompile m f w target source

/-- **Serving a request is performing the action that it asks for.** -/
lemma workspace_serveBy (w : Workspace) (r : Request) :
    (w.serveBy m f r).workspace = w.performIfAny m {} (r.action? f) := by
  rw [serveBy, Request.action?]
  cases f.route r with
  | error reply => rfl
  | ok route =>
    rw [ok_bind, Except.toOption, Option.bind_some, ← workspace_serveRoute]
    cases w.serveRoute m f r route <;> rfl

end Workspace

/-! ## One event after another -/

/-- What can happen to a workspace. -/
inductive Event where
  /-- An action is performed with the files that are there. -/
  | action (t : FileTree) (a : Action)
  /-- A request is served. -/
  | request (r : Request)

/-- The graph that an event puts in place. -/
def Event.product? (m : Machine ε) (f : Framework) : Event → Option Graph
  | .action t a => a.product? m t
  | .request r => (r.action? f).bind (Action.product? m {})

namespace Workspace

variable (m) (f : Framework)

/-- The workspace after an event. -/
def undergo (w : Workspace) : Event → Workspace
  | .action t a => (w.performOn m t a).1
  | .request r => (w.serveBy m f r).workspace

/-- The workspace after one event after another. -/
def run (w : Workspace) (es : List Event) : Workspace :=
  es.foldl (undergo m f) w

/-- One event puts its product in place, and leaves the held graph if it has none. -/
lemma graph_undergo (w : Workspace) (e : Event) :
    (w.undergo m f e).graph = (e.product? m f).getD w.graph := by
  cases e with
  | action t a => exact graph_performOn
  | request r =>
    rw [undergo, workspace_serveBy, Event.product?]
    cases r.action? f with
    | none => rfl
    | some a => exact graph_performOn

/-- **After all events the last product is held**, and if there is none, then what was held before
them. -/
lemma graph_run (w : Workspace) (es : List Event) :
    (w.run m f es).graph = (es.filterMap (Event.product? m f)).getLast?.getD w.graph := by
  induction es generalizing w with
  | nil => rfl
  | cons e rest ih =>
    have hstep : (w.run m f (e :: rest)).graph = ((w.undergo m f e).run m f rest).graph := rfl
    rw [hstep, ih, graph_undergo, List.filterMap_cons]
    cases e.product? m f with
    | none => rfl
    | some g => rw [List.getLast?_cons, Option.getD_some, Option.getD_some]

end Workspace

/-- The plain request to compile a graph. -/
def Request.toCompile (target : String) (graph : List (String × Json)) : Request where
  method := "POST"
  address := "/api/compile"
  body := .value (.object [("target", .string target), ("graph", .object graph)])

/-- What the requests to the service ask for: each of them for the action that its method and its
path stand for. -/
structure Framework.Asks (f : Framework) : Prop where
  /-- A graph is put. -/
  put : ∀ fields, Request.action? f
    { method := "PUT", address := "/api/graph", body := .value (.object fields) } =
      some (.replace (.document (.object fields)) false)
  /-- A graph is put, strictly or not. -/
  putWith : ∀ fields strict, Request.action? f
    { method := "PUT", address := "/api/graph", query := some [("strict", toString strict)],
      body := .value (.object fields) } = some (.replace (.document (.object fields)) strict)
  /-- The graph is deleted. -/
  delete : ∀ body, Request.action? f
    { method := "DELETE", address := "/api/graph", body := body } = some .clear
  /-- An interface description is imported. -/
  importGraph : ∀ fields, Request.action? f
    { method := "POST", address := "/api/graph/import", body := .value (.object fields) } =
      some (.importInterface (.object fields))
  /-- The held graph is compiled. -/
  compileHeld : ∀ target, Request.action? f
    { method := "POST", address := "/api/compile",
      body := .value (.object [("target", .string target)]) } =
      some (.compile (.string target) none)
  /-- A given graph is compiled. -/
  compileGiven : ∀ target graph, (Request.toCompile target graph).action? f =
      some (.compile (.string target) (some (.document (.object graph))))
  /-- The held graph is only shown. -/
  get : ∀ body, Request.action? f { method := "GET", address := "/api/graph", body := body } = none

/-- A faithful framework does as the service is asked. -/
lemma Framework.Faithful.asks {f : Framework} (hf : f.Faithful) : f.Asks where
  put fields := by
    have hflag := hf.flag_absent
      { method := "PUT", address := "/api/graph", body := .value (.object fields) } "strict"
      ("PUT", "/api/graph", .putGraph) (by decide) rfl rfl
    rw [hf.action?_eq ("PUT", "/api/graph", .putGraph) (by decide) rfl rfl, Route.action?]
    simp only [hf.fields_eq, hflag]
    rfl
  putWith fields strict := by
    have hflag := hf.flag_given
      { method := "PUT", address := "/api/graph", query := some [("strict", toString strict)],
        body := .value (.object fields) } "strict" strict rfl
    rw [hf.action?_eq ("PUT", "/api/graph", .putGraph) (by decide) rfl rfl, Route.action?]
    simp only [hf.fields_eq, hflag]
    rfl
  delete body := hf.action?_eq ("DELETE", "/api/graph", .deleteGraph) (by decide) rfl rfl
  importGraph fields := by
    rw [hf.action?_eq ("POST", "/api/graph/import", .importGraph) (by decide) rfl rfl,
      Route.action?]
    simp only [hf.fields_eq]
    rfl
  compileHeld target := by
    rw [hf.action?_eq ("POST", "/api/compile", .compile) (by decide) rfl rfl, Route.action?]
    simp only [hf.fields_eq]
    rfl
  compileGiven target graph := by
    rw [hf.action?_eq ("POST", "/api/compile", .compile) (by decide) rfl rfl, Route.action?]
    simp only [Request.toCompile, hf.fields_eq]
    rfl
  get body := hf.action?_eq ("GET", "/api/graph", .getGraph) (by decide) rfl rfl

namespace Workspace

/-- **What a workspace holds**, on every machine and with every framework. After any events the held
graph is the last that was put in place, and what was held before if there is none. An action has no
product exactly if it fails or compiles, and then it leaves the workspace as it is. A request does
what the action does that it asks for, and nothing if it asks for none; with a faithful framework,
what it asks for is what its method and its path stand for. Compiling a given graph ends as putting
it in place and compiling what is then held. -/
theorem run_holds_last_product (m : Machine ε) (f : Framework) :
    (∀ (w : Workspace) (es : List Event),
      (w.run m f es).graph = (es.filterMap (Event.product? m f)).getLast?.getD w.graph) ∧
    (∀ (w : Workspace) (t : FileTree) (a : Action),
      (a.product? m t = none ↔ (∃ e, (w.performOn m t a).2.outcome = .error e) ∨ a.IsCompile) ∧
      ((∃ e, (w.performOn m t a).2.outcome = .error e) ∨ a.IsCompile →
        (w.performOn m t a).1 = w)) ∧
    (∀ (w : Workspace) (r : Request),
      (w.serveBy m f r).workspace = w.performIfAny m {} (r.action? f)) ∧
    (f.Faithful → f.Asks) ∧
    ∀ (w : Workspace) (t : FileTree) (requested : Json) (source : GraphSource),
      (w.performOn m t (.compile requested (some source))).2.outcome =
        (w.performOn m t (.replace source false)).2.outcome.bind fun _ =>
          ((w.performOn m t (.replace source false)).1.performOn m t
            (.compile requested none)).2.outcome := by
  refine ⟨graph_run m f, fun w t a => ⟨product?_eq_none_iff w, fun hnone => ?_⟩,
    workspace_serveBy m f, Framework.Faithful.asks, fun w t => outcome_performOn_compile⟩
  exact performOn_eq_self ((product?_eq_none_iff w).mpr hnone)

/-- A request to put a graph without nodes that has the given name. -/
def putNamed (name : String) : Request where
  method := "PUT"
  address := "/api/graph"
  body := .value (.object [("name", .string name), ("nodes", .array []), ("edges", .array [])])

/-- A request to import a value that describes no interface. -/
def importNothing : Request where
  method := "POST"
  address := "/api/graph/import"
  body := .value (.object [])

/-- A request to delete the graph. -/
def deleteHeld : Request where
  method := "DELETE"
  address := "/api/graph"

/-- A request to compile such a graph. -/
def compileNamed (name : String) : Request :=
  .toCompile "event" [("name", .string name), ("nodes", .array []), ("edges", .array [])]

/-- Two graphs are put, an import fails, and another graph is compiled: the second graph is held.
When it is deleted, the empty graph is held. -/
theorem run_holds_second_graph :
    (run Machine.standard Framework.standard {}
      ([putNamed "a", putNamed "b", importNothing, compileNamed "c"].map .request)).graph =
        { name := "b" } ∧
    (run Machine.standard Framework.standard {}
      ([putNamed "a", putNamed "b", importNothing, compileNamed "c", deleteHeld].map
        .request)).graph = {} := by
  obtain ⟨hrun, -, -, hasks, -⟩ := run_holds_last_product Machine.standard Framework.standard
  have hasks := hasks Framework.faithful_standard
  have hputA : Event.product? Machine.standard Framework.standard (.request (putNamed "a")) =
      some { name := "a" } := by
    rw [Event.product?, putNamed, hasks.put]
    rfl
  have hputB : Event.product? Machine.standard Framework.standard (.request (putNamed "b")) =
      some { name := "b" } := by
    rw [Event.product?, putNamed, hasks.put]
    rfl
  have himport : Event.product? Machine.standard Framework.standard (.request importNothing) =
      none := by
    rw [Event.product?, importNothing, hasks.importGraph]
    rfl
  have hcompile : Event.product? Machine.standard Framework.standard
      (.request (compileNamed "c")) = none := by
    rw [Event.product?, compileNamed, hasks.compileGiven]
    rfl
  have hdelete : Event.product? Machine.standard Framework.standard (.request deleteHeld) =
      some {} := by
    rw [Event.product?, deleteHeld, hasks.delete]
    rfl
  simp [hrun, hputA, hputB, himport, hcompile, hdelete]

end Workspace

/-! ## Requests to compile a graph -/

/-- A request to compile a graph that it brings along: other fields of its body do not count. -/
structure Request.AsksToCompile (f : Framework) (r : Request) (target : String)
    (graph : List (String × Json)) : Prop where
  /-- The method. -/
  method : Text.upperCase r.method = "POST"
  /-- The route. -/
  route : f.route r = .ok .compile
  /-- The body is an object with the target and the graph. -/
  body : ∃ fields, f.readBody r.body = .ok (some (.object fields)) ∧
    Json.lookup fields "target" = some (.string target) ∧
    Json.lookup fields "graph" = some (.object graph)

/-- A faithful framework takes the plain request for what it is. -/
lemma Framework.Faithful.asksToCompile {f : Framework} (hf : f.Faithful) (target : String)
    (graph : List (String × Json)) :
    (Request.toCompile target graph).AsksToCompile f target graph where
  method := by
    show Text.upperCase "POST" = "POST"
    decide
  route := hf.route _ ("POST", "/api/compile", .compile) (by decide) rfl rfl
  body := ⟨_, hf.readBody _, rfl, rfl⟩

/-- The reply to a program carries it. -/
lemma Framework.Faithful.codeReply_eq {f : Framework} (hf : f.Faithful) (target source : String) :
    f.codeReply target source =
      ⟨200, .value (.object [("target", .string target), ("code", .string source)])⟩ :=
  hf.carry [("target", target), ("code", source)]

/-- A failure of compiling is not answered as a success. -/
lemma status_compileFailureReply_ne (e : Failure ε) : (compileFailureReply e).status ≠ 200 := by
  unfold compileFailureReply
  split
  · simp [detailReply]
  · split_ifs <;> simp [detailReply, internalError]

/-- A document that gives no graph is answered as an invalid one. -/
lemma compileFailureReply_load (e : Document.LoadError) (h : e.isInvalidValue = true) :
    compileFailureReply (.load e : Failure ε) = detailReply 400
      (.object [("reason", .string "invalid_snapshot"), ("message", .string e.message)]) := by
  have hinvalid : (Failure.load e : Failure ε).isInvalidValue = true := h
  rw [compileFailureReply, if_pos hinvalid]
  · rfl
  · simp

/-- How a graph that is given as a document is compiled: what is wrong with the document is the
fault of the graph. -/
lemma outcome_compileSource_document (t : FileTree) (v requested : Json) :
    (m.compileSource t false (.document v) requested).outcome =
      match (Graph.ofJson false v).outcome with
      | .ok g => (m.compileFor g requested).outcome
      | .error e =>
        .error (if e.isInvalidValue then .compile (.invalidGraph e.message) else .load e) := by
  rw [Machine.outcome_compileSource, Machine.load, Audited.mapError]
  cases (Graph.ofJson false v).outcome <;> rfl

namespace Workspace

/-- A request to compile a graph is served by compiling it. -/
lemma reply_serveBy_of_asksToCompile {f : Framework} (hf : f.Faithful) {r : Request}
    {target : String} {graph : List (String × Json)} (h : r.AsksToCompile f target graph)
    (w : Workspace) :
    (w.serveBy m f r).reply =
      match (Graph.ofJson false (.object graph)).outcome with
      | .ok g =>
        match (m.compileFor g (.string target)).outcome with
        | .ok source => f.codeReply target source
        | .error e => compileFailureReply e
      | .error e => compileFailureReply (.load e : Failure ε) := by
  obtain ⟨fields, hread, htarget, hgraph⟩ := h.body
  have hfields : f.fields r.body = .ok fields := by
    rw [Framework.fields, hread]
    rfl
  have hasked : f.compileFields fields = .ok (target, some (.document (.object graph))) := by
    simp [Framework.compileFields, targetField, graphField, Json.given?, htarget, hgraph]
  have hserve : (w.serveBy m f r).reply =
      (w.serveCompile m f target (some (.document (.object graph)))).reply := by
    have hsend := hf.send r (w.serveCompile m f target (some (.document (.object graph)))).reply
      (by rw [h.method]; decide)
    rw [serveBy, h.route]
    simp only [serveRoute, hfields, hasked, ok_bind]
    exact hsend
  have hdone := outcome_performOn (m := m) (w := w) (t := {})
    (a := .compile (.string target) (some (.document (.object graph))))
  rw [Action.outcome_effect_compile, Option.elim_some] at hdone
  simp only [Machine.load, Audited.mapError] at hdone
  rw [hserve, serveCompile]
  cases hload : (Graph.ofJson false (.object graph)).outcome with
  | error e =>
    rw [hload] at hdone
    simp only [hdone, Except.mapError, Except.bind, Except.map]
  | ok g =>
    rw [hload] at hdone
    cases hcompile : (m.compileFor g (.string target)).outcome with
    | error e => simp only [hdone, hcompile, Except.mapError, Except.bind, Except.map]
    | ok source => simp only [hdone, hcompile, Except.mapError, Except.bind, Except.map]

/-- **The reply to a request to compile a graph.** On every machine and with every faithful
framework, it agrees with compiling the graph as a document, whatever graph is held: a program is
answered by its text, and an error of compiling by its reason and its message. There is no other way
to the status of a success. -/
theorem reply_serve_compile (m : Machine ε) {f : Framework} (hf : f.Faithful) {r : Request}
    {target : String} {graph : List (String × Json)} (h : r.AsksToCompile f target graph)
    (w : Workspace) (t : FileTree) :
    (∀ code, (m.compileSource t false (.document (.object graph)) (.string target)).outcome =
        .ok code →
      (w.serveBy m f r).reply =
        ⟨200, .value (.object [("target", .string target), ("code", .string code)])⟩) ∧
    (∀ e, (m.compileSource t false (.document (.object graph)) (.string target)).outcome =
        .error (.compile e) →
      (w.serveBy m f r).reply = ⟨400, .value (.object [("detail",
        .object [("reason", .string e.reason), ("message", .string e.message)])])⟩) ∧
    ((w.serveBy m f r).reply.status = 200 →
      ∃ code, (m.compileSource t false (.document (.object graph)) (.string target)).outcome =
        .ok code) := by
  rw [reply_serveBy_of_asksToCompile hf h, outcome_compileSource_document]
  cases (Graph.ofJson false (.object graph)).outcome with
  | ok g =>
    simp only
    cases (m.compileFor g (.string target)).outcome with
    | ok source => simp [hf.codeReply_eq]
    | error e =>
      refine ⟨by simp, ?_, fun hstatus => absurd hstatus (status_compileFailureReply_ne e)⟩
      rintro e' ⟨⟩
      rfl
  | error e =>
    simp only
    refine ⟨by simp, ?_, fun hstatus =>
      absurd hstatus (status_compileFailureReply_ne (.load e : Failure ε))⟩
    intro e' he'
    split_ifs at he' with hinvalid
    · cases he'
      exact compileFailureReply_load e hinvalid
    · cases he'

/-- A graph without nodes is compiled, an object without nodes is no graph, and there is no target
`l3`. -/
theorem reply_serve_compile_emptyGraph :
    (∃ code, (serve {} (.toCompile "event" [("nodes", .array []), ("edges", .array [])])).reply =
      ⟨200, .value (.object [("target", .string "event"), ("code", .string code)])⟩) ∧
    (serve {} (.toCompile "event" [("edges", .array [])])).reply =
      ⟨400, .value (.object [("detail", .object [("reason", .string "invalid_snapshot"),
        ("message", .string "graph root: missing required field 'nodes'")])])⟩ ∧
    (serve {} (.toCompile "l3" [("nodes", .array []), ("edges", .array [])])).reply =
      ⟨400, .value (.object [("detail", .object [("reason", .string "unknown_target"),
        ("message", .string "unknown target 'l3' (expected one of: event, simulation)")])])⟩ := by
  have hf := Framework.faithful_standard
  obtain ⟨code, hcode⟩ := Graph.exists_outcome_compile_empty Graph.compilesReliably_standard
  have hload : (Graph.ofJson false
      (.object [("nodes", .array []), ("edges", .array [])])).outcome = .ok {} := rfl
  have hcompiled : (Machine.standard.compileSource {} false
      (.document (.object [("nodes", .array []), ("edges", .array [])]))
      (.string Target.event.name)).outcome = .ok code := by
    refine Machine.outcome_compileSource_eq_ok.mpr
      ⟨{}, Audited.outcome_mapError_eq_ok.mpr hload, ?_⟩
    rw [Machine.compileFor_name, hcode]
  refine ⟨⟨code, ?_⟩, ?_, ?_⟩
  · exact (reply_serve_compile .standard hf (hf.asksToCompile _ _) {} {}).1 code hcompiled
  · exact (reply_serve_compile .standard hf (hf.asksToCompile _ _) {} {}).2.1
      (.invalidGraph "graph root: missing required field 'nodes'") rfl
  · exact (reply_serve_compile .standard hf (hf.asksToCompile _ _) {} {}).2.1
      (.unknownTarget "l3") rfl

end Workspace

end LogicGraph
