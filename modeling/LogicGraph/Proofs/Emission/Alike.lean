import LogicGraph.Compile
import LogicGraph.Proofs.NameTable
import LogicGraph.Proofs.Graph.Wiring

set_option relaxedAutoImplicit false
set_option autoImplicit false

/-!
# Graphs with one program

A program shows some of what is known about a node: its kind, the name it asks for, its value. Two
graphs whose nodes are alike in this and that are wired alike have the same program, and if one of
them has none, then so has the other, for the same reason.

## Main definitions

* `LogicGraph.Node.Alike` — nodes of which a program for a target shows the same.
* `LogicGraph.Graph.Alike` — graphs of which a program for a target shows the same.
* `LogicGraph.Scope.Alike` — graphs that are alike, with names.
* `LogicGraph.Scope.VisitAlike` — what the walk does at nodes in either graph.

## Main results

* `LogicGraph.Scope.Alike.outcome_existing`, `LogicGraph.Scope.Alike.visitAlike_node` — one step of
  the walk, and all of it.
* `LogicGraph.Graph.Alike.outcome_program` — graphs that are alike have the same program.

## Design

Statements hold names and no ids, so the walk through either graph gives the same statements and not
only related ones. A target that is no node contributes nothing. The statements for a port are
therefore those for the nodes among its targets, `LogicGraph.Scope.outcome_port`, and only these are
compared.
-/

namespace LogicGraph

/-- Two nodes of which a program for a target shows the same, whatever their ids and wires. -/
structure Node.Alike (t : Target) (m n : Node) : Prop where
  /-- They are of one kind. -/
  kind : m.kind = n.kind
  /-- They ask for one name. -/
  baseName : m.baseName = n.baseName
  /-- They start with one value. -/
  value : m.value = n.value
  /-- They compute by one operation. -/
  operation : m.operation = n.operation
  /-- They compare with the same values. -/
  caseValues : m.cases.map Case.value = n.cases.map Case.value
  /-- Both take from the action, or none does. -/
  takesAction : m.takesAction = n.takesAction
  /-- Both are observed, or none is. -/
  isObserved : m.isObserved = n.isObserved
  /-- An event program describes them in the same words. -/
  described : t = .event → m.displayName = n.displayName ∧ purposeRemark m = purposeRemark n

/-- Two graphs of which a program for a target shows the same. -/
structure Graph.Alike (t : Target) (g h : Graph) : Prop extends g.WiredAlike h where
  /-- They have one name. -/
  name : g.name = h.name
  /-- Their nodes are alike, in order. -/
  nodes : List.Forall₂ (Node.Alike t) g.nodes h.nodes

/-- Two graphs that are alike, with names that are the same at the same places. -/
structure Scope.Alike (t : Target) (s s' : Scope) : Prop where
  /-- The graphs are alike. -/
  graph : s.graph.Alike t s'.graph
  /-- Names are the same at the same places. -/
  names : ∀ m n, s.graph.Pairs s'.graph m n → s.nameOf m = s'.nameOf n

/-- Lists of one length are both empty or none is. -/
lemma isEmpty_eq_of_length_eq {α β : Type} {as : List α} {bs : List β} (h : as.length = bs.length) :
    as.isEmpty = bs.isEmpty := by
  rw [Bool.eq_iff_iff, List.isEmpty_iff_length_eq_zero, List.isEmpty_iff_length_eq_zero, h]

/-- The body port of a trigger. -/
lemma Node.triggerPort_mem_bodyPorts {n : Node} (h : n.kind.isTrigger = true) :
    triggerPort ∈ n.bodyPorts := by
  rw [Node.bodyPorts, if_pos h]
  exact List.mem_singleton_self _

namespace Node.Alike

variable {t : Target} {m n : Node} (ha : m.Alike t n)

include ha

/-- Nodes that are alike both have a variable, or none has. -/
lemma declaresVariable : m.declaresVariable = n.declaresVariable := by
  rw [Node.declaresVariable, Node.declaresVariable, ha.kind, ha.takesAction, ha.isObserved]

/-- Nodes that are alike have as many cases. -/
lemma length_cases : m.cases.length = n.cases.length := by
  simpa only [List.length_map] using congrArg List.length ha.caseValues

/-- Nodes that are alike have the same body ports. -/
lemma bodyPorts : m.bodyPorts = n.bodyPorts := by
  rw [Node.bodyPorts, Node.bodyPorts, ha.kind, ha.length_cases]

end Node.Alike

namespace Scope

/-! ## Ports -/

variable {s s' : Scope} {visit visit' : String → Emission}

/-- What the walk does at nodes in either graph: the same at the same places, and nothing where
there is no node. -/
structure VisitAlike (s s' : Scope) (visit visit' : String → Emission) : Prop where
  /-- The same is given at the same places. -/
  paired : ∀ m n, s.graph.Pairs s'.graph m n → (visit m.id).outcome = (visit' n.id).outcome
  /-- Nothing is given where the first graph has no node. -/
  missing : ∀ id, s.graph.node? id = none → (visit id).outcome = .ok []
  /-- Nothing is given where the second graph has no node. -/
  missing' : ∀ id, s'.graph.node? id = none → (visit' id).outcome = .ok []

/-- The statements for a port are those for the nodes among its targets. -/
lemma outcome_port (hmissing : ∀ id, s.graph.node? id = none → (visit id).outcome = .ok [])
    (id port : String) :
    (s.port visit id port).outcome =
      (Audited.mapList (fun n => visit n.id) (s.graph.targetNodes id port)).outcome.map
        List.flatten := by
  have hlist : ∀ ids : List String, (Audited.mapList visit ids).outcome.map List.flatten =
      (Audited.mapList (fun n => visit n.id) (ids.filterMap s.graph.node?)).outcome.map
        List.flatten := by
    intro ids
    induction ids with
    | nil => rfl
    | cons target rest ih =>
      cases hn : s.graph.node? target with
      | none =>
        -- nothing is given for the target, and flattening forgets it
        rw [List.filterMap_cons_none hn, ← ih, Audited.mapList, Audited.outcome_bind,
          hmissing target hn]
        cases hrest : (Audited.mapList visit rest).outcome <;>
          simp [Audited.outcome_bind, hrest, Except.bind, Except.map]
      | some n =>
        obtain rfl := (Graph.node?_eq_some_iff.mp hn).2
        rw [List.filterMap_cons_some hn, Audited.mapList, Audited.mapList]
        simp only [Audited.outcome_bind, Audited.outcome_ok]
        revert ih
        cases (visit n.id).outcome <;> cases (Audited.mapList visit rest).outcome <;>
          cases (Audited.mapList (fun n => visit n.id) (rest.filterMap s.graph.node?)).outcome <;>
          simp +contextual [Except.bind, Except.map]
  rw [Graph.targetNodes, ← hlist, Scope.port, Audited.outcome_bind]
  cases (Audited.mapList visit (s.graph.targets id port)).outcome <;> rfl

namespace Alike

variable {t : Target} (hs : Scope.Alike t s s') {m n : Node}

include hs

/-- Nodes at the same place are alike. -/
lemma node_alike (hp : s.graph.Pairs s'.graph m n) : m.Alike t n :=
  (List.forall₂_iff_zip.mp hs.graph.nodes).2 hp

/-- Nodes at the same places have the same names. -/
lemma map_nameOf {ms ns : List Node} (hrel : List.Forall₂ (s.graph.Pairs s'.graph) ms ns) :
    ms.map s.nameOf = ns.map s'.nameOf :=
  List.forall₂_eq_eq_eq ▸ List.rel_map (fun m n hp => hs.names m n hp) hrel

/-- The nodes that are picked by what is shown of them stand at the same places. -/
lemma forall₂_filter {f : Node → Bool} (hf : ∀ m n, m.Alike t n → f m = f n) :
    List.Forall₂ (s.graph.Pairs s'.graph) (s.graph.nodes.filter f) (s'.graph.nodes.filter f) := by
  refine List.rel_filter ?_ hs.graph.pairs
  intro m n hp
  simp only [hf m n (hs.node_alike hp)]

/-- Nodes at the same place are read by one term. -/
lemma valueTerm_eq (hp : s.graph.Pairs s'.graph m n) : s.valueTerm m = s'.valueTerm n := by
  have ha := hs.node_alike hp
  rw [valueTerm, valueTerm, ha.declaresVariable, ha.kind, hs.names m n hp]

/-- The sources of a port are read by the same terms. -/
lemma sourceTerms_eq (hp : s.graph.Pairs s'.graph m n) {port : String}
    (hport : port ∈ m.kind.portsIn .input) :
    s.sourceTerms m port = s'.sourceTerms n port :=
  List.forall₂_eq_eq_eq ▸ List.rel_map (fun _ _ hp => hs.valueTerm_eq hp)
    (hs.graph.sources m n hp port hport)

/-- The value of an input port is the same. -/
lemma outcome_inputExpr (hp : s.graph.Pairs s'.graph m n) (port : String)
    (hport : port ∈ m.kind.portsIn .input) (policy : FanIn) (default : Term) :
    (s.inputExpr m port policy default : Audited EmitError Expr).outcome =
      (s'.inputExpr n port policy default).outcome := by
  simp only [inputExpr, Audited.outcome_bind, Audited.outcome_report, hs.sourceTerms_eq hp hport]

/-! ## One step of the walk -/

/-- A port of a body gives the same. -/
lemma outcome_port_eq (hv : VisitAlike s s' visit visit') (hp : s.graph.Pairs s'.graph m n)
    (port : String) (hport : port ∈ m.bodyPorts) :
    (s.port visit m.id port).outcome = (s'.port visit' n.id port).outcome := by
  rw [outcome_port hv.missing, outcome_port hv.missing']
  congr 1
  exact Audited.outcome_mapList_congr ((hs.graph.targets m n hp port hport).imp hv.paired)

/-- The clauses of a choice are the same. -/
lemma outcome_clauses (hv : VisitAlike s s' visit visit') (hp : s.graph.Pairs s'.graph m n)
    (hk : m.kind = .ifElse) {cases cases' : List Case}
    (hvalues : cases.map Case.value = cases'.map Case.value) {i : Nat}
    (hi : i + cases.length = m.cases.length) :
    (s.clauses visit m.id i cases).outcome = (s'.clauses visit' n.id i cases').outcome := by
  induction cases generalizing i cases' with
  | nil =>
    obtain rfl : cases' = [] := List.map_eq_nil_iff.mp hvalues.symm
    rfl
  | cons c rest ih =>
    obtain ⟨c', rest', rfl, hc, hrest⟩ := List.map_eq_cons_iff.mp hvalues.symm
    rw [List.length_cons] at hi
    have hport : casePort i ∈ m.bodyPorts := by
      rw [Node.bodyPorts, hk]
      exact List.mem_append_left _ (List.mem_map_of_mem (List.mem_range.mpr (by omega)))
    simp only [Scope.clauses, Audited.outcome_bind, hs.outcome_port_eq hv hp _ hport, hc,
      ih hrest.symm (show i + 1 + rest.length = m.cases.length by omega), Audited.outcome_pure]

/-- A choice gives the same. -/
lemma outcome_choice (hv : VisitAlike s s' visit visit') (hp : s.graph.Pairs s'.graph m n)
    (hk : m.kind = .ifElse) :
    (s.choice visit m).outcome = (s'.choice visit' n).outcome := by
  have ha := hs.node_alike hp
  have hdefault :=
    hs.outcome_port_eq hv hp defaultBranchPort (by simp [Node.bodyPorts, hk, Kind.isTrigger])
  simp only [Scope.choice, Audited.outcome_bind,
    hs.outcome_inputExpr hp "input_val" (by rw [hk]; decide)]
  congr 1
  funext subject
  rw [isEmpty_eq_of_length_eq ha.length_cases]
  split_ifs
  · exact hdefault
  · simp only [Audited.outcome_bind, hdefault,
      hs.outcome_clauses hv hp hk ha.caseValues (Nat.zero_add _), Audited.outcome_pure]

/-- A node that is set from its sources is set to the same. -/
lemma outcome_assignment (hp : s.graph.Pairs s'.graph m n)
    (hport : setPort m.kind ∈ m.kind.portsIn .input) :
    (s.assignment m).outcome = (s'.assignment n).outcome := by
  simp only [Scope.assignment, Audited.outcome_bind, Audited.outcome_report, ← hs.graph.kind_eq hp,
    ← hs.sourceTerms_eq hp hport, hs.names m n hp]

/-- **One step of the walk gives the same**, if the next ones do. -/
lemma outcome_existing (hv : VisitAlike s s' visit visit') (hp : s.graph.Pairs s'.graph m n) :
    (s.existing visit m).outcome = (s'.existing visit' n).outcome := by
  have ha := hs.node_alike hp
  have hkind := ha.kind
  cases hk : m.kind with
  | action | nav =>
    rw [existing, existing, ← hkind, hk]
    exact hs.outcome_port_eq hv hp triggerPort (Node.triggerPort_mem_bodyPorts (by rw [hk]; rfl))
  | state | media | cell | object | player =>
    rw [existing, existing, ← hkind, hk]
    exact hs.outcome_assignment hp (by rw [hk]; decide)
  | math | compare =>
    have hterm := fun port hport => hs.outcome_inputExpr hp port hport .sum .zero
    rw [existing, existing, ← hkind, hk]
    simp only [Scope.arithmetic, Scope.comparison, Audited.outcome_bind,
      hterm "a" (by rw [hk]; decide), hterm "b" (by rw [hk]; decide), hs.names m n hp, ha.operation,
      Audited.outcome_pure]
  | ifElse =>
    rw [existing, existing, ← hkind, hk]
    exact hs.outcome_choice hv hp hk
  | reward =>
    rw [existing, existing, ← hkind, hk]

/-! ## The walk -/

/-- **The walk gives the same**, if the ways to the nodes match.

**Proof sketch.** By induction on how many more nodes may follow. Paired nodes are both on their
ways or none is, and going on to them keeps the ways matched. -/
lemma visitAlike_node (limit : Nat) {way way' : List String}
    (hway : s.graph.Matched s'.graph way way') :
    VisitAlike s s' (s.node limit way) (s'.node limit way') := by
  induction limit using Nat.strongRecOn generalizing way way' with
  | ind limit ih =>
    refine ⟨?_, fun id hnone => by rw [node, hnone]; rfl, fun id hnone => by rw [node, hnone]; rfl⟩
    intro m n hp
    rw [node, node, Graph.node?_eq_some_iff.mpr ⟨hp.left_mem, rfl⟩,
      Graph.node?_eq_some_iff.mpr ⟨hp.right_mem, rfl⟩]
    simp only [hway m n hp, hs.names m n hp]
    split_ifs
    -- both nodes are on their ways, or none is
    · rfl
    · cases limit with
      | zero => rfl
      | succ limit =>
        exact hs.outcome_existing (ih limit (Nat.lt_succ_self limit) (hway.cons hp)) hp

/-- What evaluates the roots of a step is the same. -/
lemma outcome_rootStmts (limit : Nat) {ms ns : List Node}
    (hrel : List.Forall₂ (s.graph.Pairs s'.graph) ms ns) :
    (rootStmts s limit ms).outcome = (rootStmts s' limit ns).outcome := by
  simp only [rootStmts, Audited.outcome_bind, Audited.outcome_pure]
  rw [Audited.outcome_mapList_congr
    (hrel.imp fun m n hp => (hs.visitAlike_node limit .nil).paired m n hp)]

/-- The reward is the same. -/
lemma outcome_rewardExpr : (rewardExpr s).outcome = (rewardExpr s').outcome := by
  have hrewards := hs.graph.forall₂_filter_kind fun k => [Kind.reward].contains k
  have hport : ∀ m ∈ s.graph.nodesOf [.reward], "value" ∈ m.kind.portsIn .input := by
    intro m hm
    have hkind := (List.mem_filter.mp hm).2
    rw [List.contains_eq_mem, decide_eq_true_eq, List.mem_singleton] at hkind
    rw [hkind]
    decide
  unfold rewardExpr
  unfold Graph.nodesOf at hport ⊢
  revert hport hrewards
  generalize s.graph.nodes.filter _ = ms
  generalize s'.graph.nodes.filter _ = ns
  intro hrewards hport
  cases hrewards with
  | nil => rfl
  | cons hp hrest =>
    have hvalue := hs.outcome_inputExpr hp "value" (hport _ List.mem_cons_self) .sum .noReward
    cases hrest with
    | nil => exact hvalue
    | cons _ _ => simp only [Audited.outcome_bind, Audited.outcome_report, hvalue]

/-! ## Methods -/

/-- First values are assigned by the same statements. -/
lemma outcome_initialAssigns {remark : Node → Option String}
    (hremark : ∀ m n, m.Alike t n → remark m = remark n) {ms ns : List Node}
    (hrel : List.Forall₂ (s.graph.Pairs s'.graph) ms ns) :
    (Audited.mapList (initialAssign s remark) ms).outcome =
      (Audited.mapList (initialAssign s' remark) ns).outcome := by
  refine Audited.outcome_mapList_congr (hrel.imp ?_)
  intro m n hp
  have ha := hs.node_alike hp
  simp only [initialAssign, Audited.outcome_bind, ha.value, hs.names m n hp, hremark m n ha,
    Audited.outcome_pure]

/-- The entries of the action are added by the same statements. -/
lemma actionStmts_eq {ms ns : List Node} (hrel : List.Forall₂ (s.graph.Pairs s'.graph) ms ns) :
    actionStmts s ms = actionStmts s' ns := by
  refine List.ext_getElem? fun i => ?_
  have hname := congrArg (·[i]?) (hs.map_nameOf hrel)
  simp only [List.getElem?_map] at hname
  have hstmt := congrArg (Option.map (Stmt.increment · i)) hname
  rw [Option.map_map, Option.map_map] at hstmt
  rw [actionStmts, actionStmts, List.getElem?_mapIdx, List.getElem?_mapIdx]
  exact hstmt

/-- Triggers have the same methods in an event program. -/
lemma outcome_entryPoints (ht : t = .event) (limit : Nat) :
    (s.entryPoints limit).outcome.map (List.map EntryPoint.toMethod) =
      (s'.entryPoints limit).outcome.map (List.map EntryPoint.toMethod) := by
  have htriggers := hs.graph.forall₂_filter_kind fun k => [Kind.action, .nav].contains k
  have hport : ∀ m ∈ s.graph.nodesOf [.action, .nav], triggerPort ∈ m.bodyPorts := by
    intro m hm
    have hkind : m.kind = .action ∨ m.kind = .nav := by simpa using (List.mem_filter.mp hm).2
    exact Node.triggerPort_mem_bodyPorts (by rcases hkind with hkind | hkind <;> rw [hkind] <;> rfl)
  refine Audited.outcome_map_mapList_congr
    (((List.forall₂_and_left _ _).mpr ⟨hport, htriggers⟩).imp ?_)
  rintro m n ⟨hport, hp⟩
  have hbody := hs.outcome_port_eq (hs.visitAlike_node limit (.cons hp .nil)) hp triggerPort hport
  simp only [entryPoint, targetBody, Audited.outcome_bind, hbody, Audited.outcome_pure]
  cases (s'.port (s'.node limit [n.id]) n.id triggerPort).outcome with
  | error e => rfl
  | ok body =>
    simp only [Except.bind, Except.map, EntryPoint.toMethod, hs.names m n hp,
      ((hs.node_alike hp).described ht).1]

end Alike

end Scope

namespace Graph.Alike

variable {t : Target} {g h : Graph}

/-- Graphs that are alike have the same names at the same places. -/
lemma scope (hg : g.Alike t h) (r : NameRules) :
    Scope.Alike t ⟨g, NameTable.ofGraph g r⟩ ⟨h, NameTable.ofGraph h r⟩ where
  graph := hg
  names := fun _ _ hp => (List.forall₂_iff_zip.mp
    (NameTable.forall₂_name r (hg.nodes.imp fun _ _ ha => ⟨ha.kind, ha.baseName⟩))).2 hp

/-- Graphs that are alike have the same event program. -/
lemma outcome_eventProgram (hg : g.Alike .event h) (limit : Nat) :
    (eventProgram limit g).outcome = (eventProgram limit h).outcome := by
  have hs := hg.scope eventRules
  have hdeclared := hs.forall₂_filter fun _ _ ha => ha.declaresVariable
  have hnames := hs.map_nameOf hdeclared
  have hassigns := hs.outcome_initialAssigns (fun _ _ ha => (ha.described rfl).2) hdeclared
  have hempty := isEmpty_eq_of_length_eq hdeclared.length_eq
  have hentries := hs.outcome_entryPoints rfl limit
  simp only [eventProgram, eventConstructor, Audited.outcome_bind, Audited.outcome_report,
    Audited.outcome_pure, hassigns, hempty, hnames, hg.name]
  congr 1
  funext _
  congr 1
  funext initial
  -- the triggers themselves differ in their ids; only the methods made of them are the same
  revert hentries
  cases (Scope.entryPoints ⟨g, NameTable.ofGraph g eventRules⟩ limit).outcome <;>
    cases (Scope.entryPoints ⟨h, NameTable.ofGraph h eventRules⟩ limit).outcome <;>
    simp +contextual [Except.map, Except.bind]

/-- Graphs that are alike have the same simulation. -/
lemma outcome_simulationProgram (hg : g.Alike .simulation h) (limit : Nat) :
    (simulationProgram limit g).outcome = (simulationProgram limit h).outcome := by
  have hs := hg.scope simulationRules
  have hdeclared := hs.forall₂_filter fun _ _ ha => ha.declaresVariable
  have hobserved := hs.map_nameOf (hs.forall₂_filter fun _ _ ha => ha.isObserved)
  have hnone : ∀ m n : Node, m.Alike .simulation n → (none : Option String) = none :=
    fun _ _ _ => rfl
  have hassigns := hs.outcome_initialAssigns hnone hdeclared
  have hreset := hs.outcome_initialAssigns hnone (hg.forall₂_filter_kind Kind.isResettable)
  have hstep := hs.outcome_rootStmts limit hg.forall₂_stepRoots
  have hincrements := hs.actionStmts_eq (hs.forall₂_filter fun _ _ ha => ha.takesAction)
  simp only [simulationProgram, Audited.outcome_bind, Audited.outcome_report, Audited.outcome_pure,
    hassigns, hreset, hstep, hs.outcome_rewardExpr, hincrements, hobserved, hg.name]

/-- **Graphs that are alike have the same program**, or none for the same reason, at every limit. -/
lemma outcome_program (hg : g.Alike t h) (limit : Nat) :
    (t.program limit g).outcome = (t.program limit h).outcome := by
  cases t with
  | event => exact hg.outcome_eventProgram limit
  | simulation => exact hg.outcome_simulationProgram limit

end Graph.Alike

end LogicGraph
