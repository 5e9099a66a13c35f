import LogicGraph.Proofs.Emission.Structure
import LogicGraph.Proofs.Number.Numeral

set_option relaxedAutoImplicit false
set_option autoImplicit false

/-!
# What the walk can write

The statements for a node come from a walk that is bounded by a limit and keeps the ids on its way.
What it writes can be said without either: it is put together from a few shapes of statements, each
of which belongs to a node of the graph. Whatever holds of these shapes holds of all that the walk
writes.

## Main definitions

* `LogicGraph.Scope.Emits` — statements that the walk through a graph can give.
* `LogicGraph.Graph.ahead` — how many nodes are not on a way yet.
* `LogicGraph.Graph.WritableCases` — no case has an integer that is too long.

## Main results

* `LogicGraph.Scope.emits_node` — the walk gives nothing else.
* `LogicGraph.Scope.emits_of_mem_entryPoints`, `LogicGraph.Scope.emits_rootStmts` — nor do the
  methods of triggers and the steps of a simulation.
* `LogicGraph.Scope.existing_ne_error` — a step of the walk fails only as its literals and the next
  steps do.
* `LogicGraph.Scope.node_ne_error` — the walk fails only as its literals do, or for want of nodes
  that may follow.
* `LogicGraph.Target.outcome_program_ne_tooDeep` — no way is too long if it may hold all nodes of
  the graph.
* `LogicGraph.Scope.node_eq_node` — how many more nodes may follow does not matter if it is enough.
* `LogicGraph.Literal.ofValue?_eq_none_iff` — which values have no literal.
* `LogicGraph.Scope.exists_node_eq_ok` — the walk gives statements if all cases can be written.
* `LogicGraph.Target.outcome_program_eq_longInteger_iff` — when an integer is too long to be
  written.
-/

namespace LogicGraph

namespace Scope

/-- The statements that the walk through a graph can give, one shape for each kind of node. -/
inductive Emits (s : Scope) : List Stmt → Prop where
  /-- Nothing: the node is missing, is a reward, or has no sources to be set from. -/
  | nil : s.Emits []
  /-- The statements for one target behind those for another. -/
  | append {front behind : List Stmt} : s.Emits front → s.Emits behind → s.Emits (front ++ behind)
  /-- A node on its own way. -/
  | cycle {n : Node} : n ∈ s.graph.nodes → s.Emits [.pass (some (s.nameOf n))]
  /-- A node that is set from its sources. -/
  | assignment {n : Node} : n ∈ s.graph.nodes → n.kind.isAssignable = true →
      s.sourceTerms n (setPort n.kind) ≠ [] →
      s.Emits [.assign (s.nameOf n)
        (.expr (FanIn.sum.reduceTerms .zero (s.sourceTerms n (setPort n.kind)))) none]
  /-- An arithmetic node. -/
  | arithmetic {n : Node} : n ∈ s.graph.nodes → n.kind = .math →
      s.Emits [.assign (s.nameOf n) (.arithmetic (Arithmetic.ofSign n.operation)
        (FanIn.sum.reduceTerms .zero (s.sourceTerms n "a"))
        (FanIn.sum.reduceTerms .zero (s.sourceTerms n "b"))) none]
  /-- A comparison. -/
  | comparison {n : Node} : n ∈ s.graph.nodes → n.kind = .compare →
      s.Emits [.assign (s.nameOf n) (.comparison (Comparison.ofSign n.operation)
        (FanIn.sum.reduceTerms .zero (s.sourceTerms n "a"))
        (FanIn.sum.reduceTerms .zero (s.sourceTerms n "b"))) none]
  /-- A choice with cases. -/
  | choice {n : Node} {bodies : List (Literal × List Stmt)}
    {otherwise : List Stmt} : n ∈ s.graph.nodes →
      n.kind = .ifElse → (∀ c ∈ bodies, s.Emits c.2) → s.Emits otherwise →
      s.Emits [.choose (FanIn.first.reduceTerms .zero (s.sourceTerms n "input_val"))
        (bodies.map fun c => (c.1, orPass c.2)) (orPass otherwise)]

variable {s : Scope} {visit : String → Emission}

/-- The value of an input port is made from its sources. -/
lemma inputExpr_eq_ok {n : Node} {port : String} {policy : FanIn} {default : Term} {e : Expr} :
    (s.inputExpr n port policy default : Audited EmitError Expr).outcome = .ok e ↔
      policy.reduceTerms default (s.sourceTerms n port) = e := by
  simp [inputExpr]

/-- What the walk gives for a list of targets. -/
lemma emits_flatten {bodies : List (List Stmt)} (h : ∀ body ∈ bodies, s.Emits body) :
    s.Emits bodies.flatten := by
  induction bodies with
  | nil => exact .nil
  | cons body rest ih =>
    obtain ⟨hbody, hrest⟩ := List.forall_mem_cons.mp h
    exact .append hbody (ih hrest)

/-- What the walk gives for a port. -/
lemma emits_port (hvisit : ∀ id body, (visit id).outcome = .ok body → s.Emits body)
    {id port : String} {body : List Stmt} (h : (s.port visit id port).outcome = .ok body) :
    s.Emits body := by
  simp only [Scope.port, Audited.outcome_bind_eq_ok, Audited.outcome_pure, Except.ok.injEq] at h
  obtain ⟨bodies, hbodies, rfl⟩ := h
  refine emits_flatten fun b hb => ?_
  obtain ⟨target, -, hout⟩ := Audited.exists_of_mem_mapList hbodies hb
  exact hvisit target b hout

/-- What the walk gives for the clauses of a choice. -/
lemma emits_clauses (hvisit : ∀ id body, (visit id).outcome = .ok body → s.Emits body) {id : String}
    {i : Nat} {cases : List Case} {clauses : List (Literal × List Stmt)}
    (h : (s.clauses visit id i cases).outcome = .ok clauses) :
    ∃ bodies : List (Literal × List Stmt),
      clauses = bodies.map (fun c => (c.1, orPass c.2)) ∧ ∀ c ∈ bodies, s.Emits c.2 := by
  induction cases generalizing i clauses with
  | nil =>
    cases h
    exact ⟨[], rfl, by simp⟩
  | cons c rest ih =>
    simp only [Scope.clauses, Audited.outcome_bind_eq_ok, Audited.outcome_pure,
      Except.ok.injEq] at h
    obtain ⟨l, -, body, hbody, more, hmore, rfl⟩ := h
    obtain ⟨bodies, rfl, hbodies⟩ := ih hmore
    exact ⟨(l, body) :: bodies, rfl, List.forall_mem_cons.mpr ⟨emits_port hvisit hbody, hbodies⟩⟩

/-- What the walk gives for a node that is set from its sources. -/
lemma emits_assignment {n : Node} (hn : n ∈ s.graph.nodes) (hk : n.kind.isAssignable = true)
    {body : List Stmt} (h : (s.assignment n).outcome = .ok body) : s.Emits body := by
  simp only [Scope.assignment, Audited.outcome_bind_eq_ok] at h
  obtain ⟨-, -, h⟩ := h
  split at h
  · cases h
    exact .nil
  · rename_i hne
    cases h
    exact .assignment hn hk hne

/-- What the walk gives for a choice. -/
lemma emits_choice (hvisit : ∀ id body, (visit id).outcome = .ok body → s.Emits body) {n : Node}
    (hn : n ∈ s.graph.nodes) (hk : n.kind = .ifElse) {body : List Stmt}
    (h : (s.choice visit n).outcome = .ok body) :
    s.Emits body := by
  simp only [Scope.choice, Audited.outcome_bind_eq_ok, inputExpr_eq_ok] at h
  obtain ⟨subject, rfl, h⟩ := h
  split_ifs at h
  · exact emits_port hvisit h
  · simp only [Audited.outcome_bind_eq_ok, Audited.outcome_pure, Except.ok.injEq] at h
    obtain ⟨clauses, hclauses, otherwise, hotherwise, rfl⟩ := h
    obtain ⟨bodies, rfl, hbodies⟩ := emits_clauses hvisit hclauses
    exact .choice hn hk hbodies (emits_port hvisit hotherwise)

/-- One step of the walk gives what it can give, if the next ones do. -/
lemma emits_existing (hvisit : ∀ id body, (visit id).outcome = .ok body → s.Emits body) {n : Node}
    (hn : n ∈ s.graph.nodes) {body : List Stmt} (h : (s.existing visit n).outcome = .ok body) :
    s.Emits body := by
  cases hk : n.kind with
  | action | nav =>
    rw [existing, hk] at h
    exact emits_port hvisit h
  | state | media | cell | object | player =>
    rw [existing, hk] at h
    exact emits_assignment hn (by rw [hk]; rfl) h
  | math =>
    rw [existing, hk] at h
    simp only [Scope.arithmetic, Audited.outcome_bind_eq_ok, inputExpr_eq_ok, Audited.outcome_pure,
      Except.ok.injEq] at h
    obtain ⟨a, rfl, b, rfl, rfl⟩ := h
    exact .arithmetic hn hk
  | compare =>
    rw [existing, hk] at h
    simp only [Scope.comparison, Audited.outcome_bind_eq_ok, inputExpr_eq_ok, Audited.outcome_pure,
      Except.ok.injEq] at h
    obtain ⟨a, rfl, b, rfl, rfl⟩ := h
    exact .comparison hn hk
  | ifElse =>
    rw [existing, hk] at h
    exact emits_choice hvisit hn hk h
  | reward =>
    rw [existing, hk] at h
    cases h
    exact .nil

/-- **The walk gives nothing else**, whatever the limit and the way.

**Proof sketch.** By induction on how many more nodes may follow, one step of the walk at a time. -/
lemma emits_node (limit : Nat) (way : List String) :
    ∀ id body, (s.node limit way id).outcome = .ok body → s.Emits body := by
  induction limit using Nat.strongRecOn generalizing way with
  | ind limit ih =>
    intro id body h
    rcases node_eq_ok h with ⟨-, rfl⟩ | ⟨n, hn, -, rfl⟩ | ⟨n, rest, hn, -, hlimit, hexisting⟩
    · exact .nil
    · exact .cycle (Graph.node?_eq_some_iff.mp hn).1
    · exact emits_existing (ih rest (by omega) (id :: way)) (Graph.node?_eq_some_iff.mp hn).1
        hexisting

/-- What stands in the method of a trigger comes from the walk. -/
lemma emits_of_mem_entryPoints {limit : Nat} {entries : List EntryPoint}
    (h : (s.entryPoints limit).outcome = .ok entries) {e : EntryPoint} (he : e ∈ entries) :
    ∃ body, e.body = orPass body ∧ s.Emits body := by
  obtain ⟨n, -, hout⟩ := Audited.exists_of_mem_mapList h he
  simp only [entryPoint, targetBody, Audited.outcome_bind_eq_ok, Audited.outcome_pure,
    Except.ok.injEq] at hout
  obtain ⟨-, ⟨body, hbody, rfl⟩, rfl⟩ := hout
  exact ⟨body, rfl, emits_port (emits_node limit [n.id]) hbody⟩

/-- What evaluates the roots of a step comes from the walk. -/
lemma emits_rootStmts {limit : Nat} {roots : List Node} {body : List Stmt}
    (h : (rootStmts s limit roots).outcome = .ok body) : s.Emits body := by
  simp only [rootStmts, Audited.outcome_bind_eq_ok, Audited.outcome_pure, Except.ok.injEq] at h
  obtain ⟨bodies, hbodies, rfl⟩ := h
  refine emits_flatten fun b hb => ?_
  obtain ⟨r, -, hout⟩ := Audited.exists_of_mem_mapList hbodies hb
  exact emits_node limit [] r.id b hout

/-- The reward is the value of an input port, or there is none. -/
lemma rewardExpr_eq_ok {e : Expr} (h : (rewardExpr s).outcome = .ok e) :
    e = .term .noReward ∨
    ∃ n ∈ s.graph.nodes, e = FanIn.sum.reduceTerms .noReward (s.sourceTerms n "value") := by
  have hmem : ∀ n ∈ s.graph.nodesOf [.reward], n ∈ s.graph.nodes :=
    fun n hn => (List.mem_filter.mp hn).1
  unfold rewardExpr at h
  split at h
  · cases h
    exact .inl rfl
  · rename_i n hrewards
    exact .inr ⟨n, hmem n (hrewards ▸ List.mem_cons_self), (inputExpr_eq_ok.mp h).symm⟩
  · rename_i n rest _ hrewards
    rw [Audited.outcome_bind_eq_ok] at h
    obtain ⟨-, -, h⟩ := h
    exact .inr ⟨n, hmem n (hrewards ▸ List.mem_cons_self), (inputExpr_eq_ok.mp h).symm⟩

end Scope

/-! ## How the walk fails -/

section Failure

open Audited

namespace Scope

variable {s : Scope} {visit : String → Emission} {e : EmitError}

/-- A port does not fail in a way that none of its targets does. -/
lemma port_ne_error (hvisit : ∀ id, (visit id).outcome ≠ .error e) (id port : String) :
    (s.port visit id port).outcome ≠ .error e :=
  outcome_bind_ne_error (outcome_mapList_ne_error fun target _ => hvisit target) fun _ =>
    outcome_pure_ne_error _ _

/-- A literal fails if it cannot be written, and in no other way. -/
lemma literal_eq_error_iff {blank : Literal} {v : Json} :
    (literal blank v).outcome = .error e ↔ e = .longInteger ∧ Literal.ofValue? blank v = none := by
  unfold literal
  cases Literal.ofValue? blank v with
  | some l => simp
  | none => simp [Audited.fail, eq_comm]

/-- A literal is not too deep. -/
lemma literal_ne_tooDeep (blank : Literal) (v : Json) :
    (literal blank v).outcome ≠ .error .tooDeep := by
  rw [ne_eq, literal_eq_error_iff]
  simp

/-- The clauses of a choice do not fail in a way that none of the literals and targets does. -/
lemma clauses_ne_error (hvisit : ∀ id, (visit id).outcome ≠ .error e) (id : String) (i : Nat)
    {cases : List Case} (hcases : ∀ c ∈ cases, (literal (.text "") c.value).outcome ≠ .error e) :
    (s.clauses visit id i cases).outcome ≠ .error e := by
  induction cases generalizing i with
  | nil => simp [Scope.clauses]
  | cons c rest ih =>
    obtain ⟨hc, hrest⟩ := List.forall_mem_cons.mp hcases
    exact outcome_bind_ne_error hc fun l =>
      outcome_bind_ne_error (port_ne_error hvisit _ _) fun body =>
        outcome_bind_ne_error (ih (i + 1) hrest) fun more => outcome_pure_ne_error _ _

/-- The value of an input port does not fail. -/
lemma inputExpr_ne_error (n : Node) (port : String) (policy : FanIn) (default : Term) :
    (s.inputExpr n port policy default).outcome ≠ .error e := by
  rw [inputExpr_eq_ok.mpr rfl]
  simp

/-- A choice does not fail in a way that none of its literals and targets does. -/
lemma choice_ne_error (hvisit : ∀ id, (visit id).outcome ≠ .error e) {n : Node}
    (hcases : ∀ c ∈ n.cases, (literal (.text "") c.value).outcome ≠ .error e) :
    (s.choice visit n).outcome ≠ .error e := by
  refine outcome_bind_ne_error (inputExpr_ne_error _ _ _ _) fun subject => ?_
  split_ifs
  · exact port_ne_error hvisit _ _
  · exact outcome_bind_ne_error (clauses_ne_error hvisit _ _ hcases) fun clauses =>
      outcome_bind_ne_error (port_ne_error hvisit _ _) fun otherwise => outcome_pure_ne_error _ _

/-- **One step of the walk** does not fail in a way that the literals of the node and the next steps
do not. -/
lemma existing_ne_error (hvisit : ∀ id, (visit id).outcome ≠ .error e) {n : Node}
    (hcases : ∀ c ∈ n.cases, (literal (.text "") c.value).outcome ≠ .error e) :
    (s.existing visit n).outcome ≠ .error e := by
  cases hk : n.kind with
  | action | nav =>
    rw [existing, hk]
    exact port_ne_error hvisit _ _
  | state | media | cell | object | player =>
    rw [existing, hk]
    refine outcome_bind_ne_error (outcome_report_ne_error _ _) fun _ => ?_
    split <;> exact outcome_pure_ne_error _ _
  | math | compare =>
    rw [existing, hk]
    exact outcome_bind_ne_error (inputExpr_ne_error _ _ _ _) fun a =>
      outcome_bind_ne_error (inputExpr_ne_error _ _ _ _) fun b => outcome_pure_ne_error _ _
  | ifElse =>
    rw [existing, hk]
    exact choice_ne_error hvisit hcases
  | reward =>
    rw [existing, hk]
    exact outcome_pure_ne_error _ _

/-- The methods of triggers do not fail in a way that the walk does not. -/
lemma entryPoints_ne_error {limit : Nat}
    (hnode : ∀ n ∈ s.graph.nodes, ∀ id, (s.node limit [n.id] id).outcome ≠ .error e) :
    (s.entryPoints limit).outcome ≠ .error e := by
  refine outcome_mapList_ne_error fun n hn => ?_
  have hvisit := hnode n (List.mem_filter.mp hn).1
  exact outcome_bind_ne_error
    (outcome_bind_ne_error (port_ne_error hvisit _ _) fun _ => outcome_pure_ne_error _ _) fun _ =>
      outcome_pure_ne_error _ _

/-- What evaluates the roots of a step does not fail in a way that the walk does not. -/
lemma rootStmts_ne_error {limit : Nat} (hnode : ∀ id, (s.node limit [] id).outcome ≠ .error e)
    (roots : List Node) :
    (rootStmts s limit roots).outcome ≠ .error e :=
  outcome_bind_ne_error (outcome_mapList_ne_error fun n _ => hnode n.id) fun _ =>
    outcome_pure_ne_error _ _

/-- The reward does not fail. -/
lemma rewardExpr_ne_error : (rewardExpr s).outcome ≠ .error e := by
  unfold rewardExpr
  split
  · exact outcome_pure_ne_error _ _
  · exact inputExpr_ne_error _ _ _ _
  · exact outcome_bind_ne_error (outcome_report_ne_error _ _) fun _ => inputExpr_ne_error _ _ _ _

/-! ## How long a way gets -/

end Scope

namespace Graph

variable {g : Graph} {test : Node → Bool} {way : List String}

/-- How many nodes of a graph that pass a test are not on a way. -/
def ahead (g : Graph) (test : Node → Bool) (way : List String) : Nat :=
  g.nodes.countP fun n => test n && decide (n.id ∉ way)

/-- There are no more nodes ahead than nodes that pass the test. -/
lemma ahead_le_countP (g : Graph) (test : Node → Bool) (way : List String) :
    g.ahead test way ≤ g.nodes.countP test :=
  List.countP_mono_left fun _ _ hn => (Bool.and_eq_true_iff.mp hn).1

/-- There are no more nodes ahead than nodes. -/
lemma ahead_le_length (g : Graph) (test : Node → Bool) (way : List String) :
    g.ahead test way ≤ g.nodes.length :=
  List.countP_le_length

/-- With one more id on the way there are no more nodes ahead. -/
lemma ahead_cons_le (g : Graph) (test : Node → Bool) (id : String) (way : List String) :
    g.ahead test (id :: way) ≤ g.ahead test way := by
  refine List.countP_mono_left fun n _ hn => ?_
  simp only [List.mem_cons, not_or, Bool.and_eq_true, decide_eq_true_eq] at hn ⊢
  exact ⟨hn.1, hn.2.2⟩

/-- The nodes that one more id takes off what is ahead are those with this id. -/
lemma ahead_eq_ahead_cons_add {id : String} (hway : id ∉ way) :
    g.ahead test way = g.ahead test (id :: way) + g.nodes.countP fun n => test n && n.id == id := by
  unfold ahead
  induction g.nodes with
  | nil => rfl
  | cons m rest ih =>
    rw [List.countP_cons, List.countP_cons, List.countP_cons, ih]
    by_cases hid : m.id = id
    · have htrue : (m.id == id) = true := by simpa using hid
      have haway : m.id ∉ way := hid ▸ hway
      have hon : m.id ∈ id :: way := hid ▸ List.mem_cons_self
      simp only [htrue, haway, hon, not_true_eq_false, not_false_eq_true, decide_true, decide_false,
        Bool.and_true, Bool.and_false, Bool.false_eq_true, if_false]
      omega
    · have hfalse : (m.id == id) = false := by simpa using hid
      have hon : m.id ∉ id :: way ↔ m.id ∉ way := by simp [hid]
      simp only [hfalse, hon, Bool.and_false, Bool.false_eq_true, if_false]
      omega

/-- A node that goes on the way is ahead no more. -/
lemma ahead_cons_lt {n : Node} (hn : n ∈ g.nodes) (htest : test n = true) (hway : n.id ∉ way) :
    g.ahead test (n.id :: way) < g.ahead test way := by
  have hpos : 0 < g.nodes.countP fun m => test m && m.id == n.id :=
    List.countP_pos_iff.mpr ⟨n, hn, by simp [htest]⟩
  rw [ahead_eq_ahead_cons_add hway]
  omega

end Graph

namespace Scope

variable {s : Scope} {visit : String → Emission} {e : EmitError}

/-- **The walk fails only as its literals do**, if as many nodes may follow as are not on the way
yet or failing for want of them is not meant.

**Proof sketch.** By induction on how many more nodes may follow. A node that is carried out goes on
the way, and so there is one node less ahead. -/
lemma node_ne_error
    (hcases : ∀ n ∈ s.graph.nodes, ∀ c ∈ n.cases, (literal (.text "") c.value).outcome ≠ .error e)
    (limit : Nat) {way : List String}
    (hlimit : e = .tooDeep → s.graph.ahead (fun _ => true) way ≤ limit) (id : String) :
    (s.node limit way id).outcome ≠ .error e := by
  induction limit using Nat.strongRecOn generalizing way id with
  | ind limit ih =>
    rw [node]
    cases hn : s.graph.node? id with
    | none =>
      exact outcome_bind_ne_error (outcome_report_ne_error _ _) fun _ => outcome_pure_ne_error _ _
    | some n =>
      simp only
      split_ifs with hmem
      · exact outcome_bind_ne_error (outcome_report_ne_error _ _) fun _ => outcome_pure_ne_error _ _
      · obtain ⟨hgraph, rfl⟩ := Graph.node?_eq_some_iff.mp hn
        have hless :
            s.graph.ahead (fun _ => true) (n.id :: way) < s.graph.ahead (fun _ => true) way :=
          Graph.ahead_cons_lt hgraph rfl hmem
        cases limit with
        | zero =>
          intro hdeep
          have hnone := hlimit (Except.error.inj hdeep).symm
          omega
        | succ limit =>
          refine existing_ne_error (ih limit (Nat.lt_succ_self limit) fun he => ?_)
            (hcases n hgraph)
          have hmore := hlimit he
          omega

/-- The walk is not too deep if as many nodes may follow as are not on the way yet. -/
lemma node_ne_tooDeep (limit : Nat) {way : List String}
    (hlimit : s.graph.ahead (fun _ => true) way ≤ limit) (id : String) :
    (s.node limit way id).outcome ≠ .error .tooDeep :=
  node_ne_error (fun _ _ _ _ => literal_ne_tooDeep _ _) limit (fun _ => hlimit) id

/-- **How many more nodes may follow does not matter** if it is as many as are not on the way
yet. -/
lemma node_eq_node {limit limit' : Nat} {way : List String}
    (hlimit : s.graph.ahead (fun _ => true) way ≤ limit)
    (hlimit' : s.graph.ahead (fun _ => true) way ≤ limit') (id : String) :
    s.node limit way id = s.node limit' way id := by
  induction limit using Nat.strongRecOn generalizing limit' way id with
  | ind limit ih =>
    rw [node, node]
    cases hn : s.graph.node? id with
    | none => rfl
    | some n =>
      simp only
      split_ifs with hmem
      · rfl
      · obtain ⟨hgraph, rfl⟩ := Graph.node?_eq_some_iff.mp hn
        have hless :
            s.graph.ahead (fun _ => true) (n.id :: way) < s.graph.ahead (fun _ => true) way :=
          Graph.ahead_cons_lt hgraph rfl hmem
        obtain ⟨rest, rfl⟩ : ∃ rest, limit = rest + 1 := ⟨limit - 1, by omega⟩
        obtain ⟨rest', rfl⟩ : ∃ rest', limit' = rest' + 1 := ⟨limit' - 1, by omega⟩
        have hvisit : s.node rest (n.id :: way) = s.node rest' (n.id :: way) := by
          funext next
          exact ih rest (Nat.lt_succ_self rest) (by omega) (by omega) next
        simp only [hvisit]

/-- First values are not too deep. -/
lemma initialAssigns_ne_tooDeep (remark : Node → Option String) (nodes : List Node) :
    (mapList (initialAssign s remark) nodes).outcome ≠ .error .tooDeep :=
  outcome_mapList_ne_error fun _ _ =>
    outcome_bind_ne_error (literal_ne_tooDeep _ _) fun _ => outcome_pure_ne_error _ _

end Scope

/-- **No way is too long if it may hold all nodes of the graph.** -/
lemma Target.outcome_program_ne_tooDeep (t : Target) {limit : Nat} {g : Graph}
    (hlimit : g.nodes.length ≤ limit) :
    (t.program limit g).outcome ≠ .error .tooDeep := by
  have hahead : ∀ way, g.ahead (fun _ => true) way ≤ limit :=
    fun way => (g.ahead_le_length _ way).trans hlimit
  cases t with
  | event =>
    refine outcome_bind_ne_error (outcome_report_ne_error _ _) fun _ => ?_
    refine outcome_bind_ne_error ?_ fun initial => ?_
    · exact outcome_bind_ne_error (Scope.initialAssigns_ne_tooDeep _ _) fun _ =>
        outcome_pure_ne_error _ _
    · refine outcome_bind_ne_error (Scope.entryPoints_ne_error fun n _ id => ?_) fun entries => ?_
      · exact Scope.node_ne_tooDeep limit (hahead [n.id]) id
      · exact outcome_bind_ne_error (outcome_report_ne_error _ _) fun _ => outcome_pure_ne_error _ _
  | simulation =>
    refine outcome_bind_ne_error (outcome_report_ne_error _ _) fun _ => ?_
    refine outcome_bind_ne_error (Scope.initialAssigns_ne_tooDeep _ _) fun initial => ?_
    refine outcome_bind_ne_error (Scope.initialAssigns_ne_tooDeep _ _) fun reset => ?_
    refine outcome_bind_ne_error (Scope.rootStmts_ne_error ?_ _) fun evaluation => ?_
    · exact Scope.node_ne_tooDeep limit (hahead [])
    · refine outcome_bind_ne_error Scope.rewardExpr_ne_error fun reward => ?_
      exact outcome_bind_ne_error (outcome_report_ne_error _ _) fun _ => outcome_pure_ne_error _ _

/-! ## Integers that are too long -/

namespace Literal

/-- A text always has a literal that can be written: a numeral that can be read is not too long. -/
lemma isWritable_ofText (s : String) : (ofText s).isWritable = true := by
  unfold ofText
  simp only
  split
  · rename_i n hread
    exact Numeral.withinLimit_of_readInt hread
  · split <;> rfl

/-- Zero can be written. -/
lemma isWritable_zero : (Literal.int 0).isWritable = true := by
  rw [isWritable, Numeral.withinLimit, decide_eq_true_iff]
  generalize Numeral.digitLimit = limit
  exact Nat.pow_pos (by decide)

/-- **The values without a literal are those with an integer that is too long.** -/
lemma ofValue?_eq_none_iff {blank : Literal} (hblank : blank.isWritable = true) {v : Json} :
    ofValue? blank v = none ↔ v.isWritable = false := by
  have hvalue : ((ofJson? v).getD blank).isWritable = v.isWritable := by
    cases v with
    | null => exact hblank
    | bool b => rfl
    | number n => cases n <;> rfl
    | string s =>
      rw [ofJson?]
      split_ifs
      · exact hblank
      · simp only [Option.getD_some, isWritable_ofText, Json.isWritable]
    | array items => rfl
    | object fields => rfl
  simp [ofValue?, hvalue]

end Literal

/-- The values of all cases can be written: none has an integer that is too long. -/
def Graph.WritableCases (g : Graph) : Prop :=
  ∀ n ∈ g.nodes, ∀ c ∈ n.cases, c.value.isWritable = true

/-- What is reset has a variable. -/
lemma Node.declaresVariable_of_isResettable {n : Node} (h : n.kind.isResettable = true) :
    n.declaresVariable = true := by
  have hholds : n.kind.holdsValue = true := by
    revert h
    cases n.kind <;> decide
  simp [declaresVariable, hholds]

namespace Scope

variable {s : Scope}

/-- The walk meets no integer that is too long if all cases have literals. -/
lemma node_ne_longInteger
    (hcases : ∀ n ∈ s.graph.nodes, ∀ c ∈ n.cases, Literal.ofValue? (.text "") c.value ≠ none)
    (limit : Nat) (way : List String) (id : String) :
    (s.node limit way id).outcome ≠ .error .longInteger := by
  refine node_ne_error (fun n hn c hc hlong => ?_) limit (fun hdeep => ?_) id
  · exact hcases n hn c hc (literal_eq_error_iff.mp hlong).2
  · cases hdeep

/-- **The walk gives statements** if as many nodes may follow as the graph has and all cases can be
written. -/
lemma exists_node_eq_ok (hcases : s.graph.WritableCases) {limit : Nat}
    (hlimit : s.graph.nodes.length ≤ limit) (way : List String) (id : String) :
    ∃ body, (s.node limit way id).outcome = .ok body := by
  have hliteral : ∀ n ∈ s.graph.nodes, ∀ c ∈ n.cases,
      Literal.ofValue? (.text "") c.value ≠ none := by
    intro n hn c hc hnone
    rw [Literal.ofValue?_eq_none_iff rfl, hcases n hn c hc] at hnone
    cases hnone
  cases hout : (s.node limit way id).outcome with
  | ok body => exact ⟨body, rfl⟩
  | error e =>
    cases e with
    | tooDeep =>
      exact absurd hout (node_ne_tooDeep limit ((s.graph.ahead_le_length _ way).trans hlimit) id)
    | longInteger => exact absurd hout (node_ne_longInteger hliteral limit way id)

/-- First values fail exactly if one of them has an integer that is too long. -/
lemma initialAssigns_eq_longInteger_iff {remark : Node → Option String} {nodes : List Node} :
    (mapList (initialAssign s remark) nodes).outcome = .error .longInteger ↔
      ∃ n ∈ nodes, Literal.ofValue? (.int 0) n.value = none := by
  constructor
  · contrapose!
    intro hall
    refine outcome_mapList_ne_error fun n hn => ?_
    refine outcome_bind_ne_error (fun hlong => ?_) fun _ => outcome_pure_ne_error _ _
    exact hall n hn (literal_eq_error_iff.mp hlong).2
  · rintro ⟨n, hn, hnone⟩
    cases hout : (mapList (initialAssign s remark) nodes).outcome with
    | ok assigns =>
      obtain ⟨t, -, ht⟩ := exists_mem_mapList hout hn
      simp only [initialAssign, outcome_bind_eq_ok] at ht
      obtain ⟨l, hl, -⟩ := ht
      rw [literal_eq_error_iff.mpr ⟨rfl, hnone⟩] at hl
      cases hl
    | error e =>
      cases e with
      | longInteger => rfl
      | tooDeep => exact absurd hout (initialAssigns_ne_tooDeep remark nodes)

end Scope

/-- **When an integer is too long to be written.** If all cases have literals, then a program fails
for this reason exactly if the first value of some variable has such an integer. -/
lemma Target.outcome_program_eq_longInteger_iff (t : Target) (limit : Nat) {g : Graph}
    (hcases : ∀ n ∈ g.nodes, ∀ c ∈ n.cases, Literal.ofValue? (.text "") c.value ≠ none) :
    (t.program limit g).outcome = .error .longInteger ↔
      ∃ n ∈ g.nodes, n.declaresVariable = true ∧ Literal.ofValue? (.int 0) n.value = none := by
  have hdeclared :
      (∃ n ∈ g.nodes.filter Node.declaresVariable, Literal.ofValue? (.int 0) n.value = none) ↔
      ∃ n ∈ g.nodes, n.declaresVariable = true ∧ Literal.ofValue? (.int 0) n.value = none := by
    simp only [List.mem_filter, and_assoc]
  rw [← hdeclared]
  cases t with
  | event =>
    rw [program, eventProgram, outcome_report_bind, outcome_bind_eq_error_iff, eventConstructor,
      outcome_bind_eq_error_iff, Scope.initialAssigns_eq_longInteger_iff]
    · exact fun _ _ => outcome_pure_ne_error _ _
    · intro initial _
      refine outcome_bind_ne_error
        (Scope.entryPoints_ne_error fun n _ => Scope.node_ne_longInteger hcases _ _) fun _ => ?_
      exact outcome_bind_ne_error (outcome_report_ne_error _ _) fun _ => outcome_pure_ne_error _ _
  | simulation =>
    rw [program, simulationProgram, outcome_report_bind, outcome_bind_eq_error_iff,
      Scope.initialAssigns_eq_longInteger_iff]
    intro initial hinitial
    -- what is reset is declared, so its first values have been written already
    refine outcome_bind_ne_error ?_ fun reset => ?_
    · rw [ne_eq, Scope.initialAssigns_eq_longInteger_iff]
      rintro ⟨n, hn, hnone⟩
      obtain ⟨hmem, hkind⟩ := List.mem_filter.mp hn
      have hdeclares := List.mem_filter.mpr ⟨hmem, Node.declaresVariable_of_isResettable hkind⟩
      cases hinitial.symm.trans (Scope.initialAssigns_eq_longInteger_iff.mpr ⟨n, hdeclares, hnone⟩)
    · refine outcome_bind_ne_error
        (Scope.rootStmts_ne_error (Scope.node_ne_longInteger hcases _ _) _) fun evaluation => ?_
      refine outcome_bind_ne_error Scope.rewardExpr_ne_error fun reward => ?_
      exact outcome_bind_ne_error (outcome_report_ne_error _ _) fun _ => outcome_pure_ne_error _ _

/-- **When a program is put together for certain**: ways may hold all nodes, and cases and first
values have literals. -/
lemma Target.exists_outcome_program_eq_ok (t : Target) {limit : Nat} {g : Graph}
    (hlimit : g.nodes.length ≤ limit)
    (hcases : ∀ n ∈ g.nodes, ∀ c ∈ n.cases, Literal.ofValue? (.text "") c.value ≠ none)
    (hvalues : ∀ n ∈ g.nodes, Literal.ofValue? (.int 0) n.value ≠ none) :
    ∃ p, (t.program limit g).outcome = .ok p := by
  cases hout : (t.program limit g).outcome with
  | ok p => exact ⟨p, rfl⟩
  | error e =>
    cases e with
    | tooDeep => exact absurd hout (t.outcome_program_ne_tooDeep hlimit)
    | longInteger =>
      obtain ⟨n, hn, -, hnone⟩ := (t.outcome_program_eq_longInteger_iff limit hcases).mp hout
      exact absurd hnone (hvalues n hn)

end Failure

end LogicGraph
