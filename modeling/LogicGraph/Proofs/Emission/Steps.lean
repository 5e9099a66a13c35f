import LogicGraph.Proofs.Emission.Walk
import LogicGraph.Proofs.Graph.Reach
import LogicGraph.Proofs.Program.Parts

set_option relaxedAutoImplicit false
set_option autoImplicit false

/-!
# One step of the walk

The walk carries out a node and leaves what lies beneath it to the next steps. This module says once
what such a step can do: where the statements that it gives come from and at which depth they stand,
which of the next steps it takes, and which notices it passes on. All that is said about whole walks
follows from this, one step at a time.

## Main definitions

* `LogicGraph.Node.branches` — a choice with a case, the bodies of which stand one level deeper.
* `LogicGraph.Scope.Answers` — a port gives statements, and its notices are passed on.
* `LogicGraph.Scope.Gives` — the statements that a step gives.

## Main results

* `LogicGraph.Scope.gives_existing` — a step gives nothing else.
* `LogicGraph.Scope.Gives.part_cases` — a statement of a step is one of its own or comes from the
  next step to a target.
* `LogicGraph.Scope.Gives.exists_of_mem_targets` — a step goes on to each target of a body port and
  keeps what it gets.
* `LogicGraph.Scope.notice_cases_existing` — a notice of a step is one of its own or comes from the
  next step to a target.
* `LogicGraph.Scope.outcome_existing_congr` — a step ends as the next steps do.
* `LogicGraph.Scope.part_cases_node` — where a statement of the walk comes from, with the limit and
  the way.

## Design

The ports that a step follows and the body ports of its node are found by different functions.
`Gives` has one constructor for each way in which they fit together: a node without body ports, a
node with one port that is followed in its place, and a choice with one body for each port.
-/

namespace LogicGraph

open Audited

/-- Whether a node is a choice with at least one case, which gets a statement with bodies of its
own. -/
def Node.branches (n : Node) : Bool :=
  decide (n.kind = .ifElse) && !n.cases.isEmpty

/-- The body ports of a choice: one for each case, and the default branch. -/
lemma Node.bodyPorts_eq_of_ifElse {n : Node} (hk : n.kind = .ifElse) :
    n.bodyPorts = ((List.range' 0 n.cases.length).map fun (i : Nat) => casePort i) ++
      [defaultBranchPort] := by
  rw [Node.bodyPorts, hk, List.range_eq_range']
  rfl

namespace Scope

variable {s : Scope} {visit : String → Emission} {n : Node} {ns : List Notice} {body : List Stmt}

/-- A port gives statements, and its notices are among the given ones. -/
def Answers (s : Scope) (visit : String → Emission) (id : String) (ns : List Notice) (port : String)
    (body : List Stmt) : Prop :=
  (s.port visit id port).outcome = .ok body ∧ (s.port visit id port).notices ⊆ ns

/-- The statements that a step of the walk gives for a node; `ns` are the notices of the step. -/
inductive Gives (s : Scope) (visit : String → Emission) (n : Node) (ns : List Notice) :
    List Stmt → Prop where
  /-- A node without body ports is assigned at most. -/
  | leaf {body : List Stmt} : n.bodyPorts = [] →
    (∀ t ∈ body, ∃ rhs, t = .assign (s.nameOf n) rhs none) → s.Gives visit n ns body
  /-- What belongs to the only body port stands in the place of the node. -/
  | inline {port : String} {body : List Stmt} : n.branches = false → n.bodyPorts = [port] →
      s.Answers visit n.id ns port body → s.Gives visit n ns body
  /-- A choice has one body for each body port, and none of them is empty. -/
  | branch {subject : Expr} {bodies : List (Literal × List Stmt)} {otherwise : List Stmt} :
      n.branches = true →
      List.Forall₂ (s.Answers visit n.id ns) n.bodyPorts (bodies.map Prod.snd ++ [otherwise]) →
      s.Gives visit n ns
        [.choose subject (bodies.map fun c => (c.1, orPass c.2)) (orPass otherwise)]

/-! ## What a step gives -/

/-- More notices may be among the given ones. -/
lemma Answers.mono {id port : String} {ns' : List Notice} (h : s.Answers visit id ns port body)
    (hns : ns ⊆ ns') :
    s.Answers visit id ns' port body :=
  ⟨h.1, List.Subset.trans h.2 hns⟩

/-- The clauses from number `i` on have one body for each case, which is not empty. -/
lemma answers_clauses {id : String} {i : Nat} {cases : List Case}
    {clauses : List (Literal × List Stmt)}
    (h : (s.clauses visit id i cases).outcome = .ok clauses) :
    ∃ bodies : List (Literal × List Stmt), clauses = bodies.map (fun c => (c.1, orPass c.2)) ∧
      List.Forall₂ (s.Answers visit id (s.clauses visit id i cases).notices)
        ((List.range' i cases.length).map fun (j : Nat) => casePort j) (bodies.map Prod.snd) := by
  induction cases generalizing i clauses with
  | nil =>
    cases h
    exact ⟨[], rfl, .nil⟩
  | cons c rest ih =>
    simp only [Scope.clauses, outcome_bind_eq_ok, outcome_pure, Except.ok.injEq] at h
    obtain ⟨l, hl, body, hbody, more, hmore, rfl⟩ := h
    obtain ⟨bodies, rfl, hbodies⟩ := ih hmore
    have hport : (s.port visit id (casePort i)).notices ⊆
        (s.clauses visit id i (c :: rest)).notices := by
      intro x hx
      rw [Scope.clauses, mem_notices_bind]
      exact .inr ⟨l, hl, mem_notices_bind.mpr (.inl hx)⟩
    have hrest : (s.clauses visit id (i + 1) rest).notices ⊆
        (s.clauses visit id i (c :: rest)).notices := by
      intro x hx
      rw [Scope.clauses, mem_notices_bind]
      exact .inr ⟨l, hl, mem_notices_bind.mpr (.inr ⟨body, hbody, mem_notices_bind.mpr (.inl hx)⟩)⟩
    refine ⟨(l, body) :: bodies, rfl, ?_⟩
    rw [List.length_cons, List.range'_succ, List.map_cons, List.map_cons]
    exact .cons ⟨hbody, hport⟩ (hbodies.imp fun _ _ hanswers => hanswers.mono hrest)

/-- What a choice gives. -/
lemma gives_choice (hk : n.kind = .ifElse) (h : (s.choice visit n).outcome = .ok body) :
    s.Gives visit n (s.choice visit n).notices body := by
  have hports := Node.bodyPorts_eq_of_ifElse hk
  rw [choice, outcome_bind_eq_ok] at h
  obtain ⟨subject, hsubject, h⟩ := h
  split_ifs at h with hcases
  · rw [List.isEmpty_iff] at hcases
    have hbranches : n.branches = false := by simp [Node.branches, hcases]
    rw [hcases] at hports
    refine .inline hbranches hports ⟨h, fun x hx => ?_⟩
    rw [choice, mem_notices_bind]
    exact .inr ⟨subject, hsubject, by simpa [hcases] using hx⟩
  · have hbranches : n.branches = true := by simp [Node.branches, hk, hcases]
    simp only [outcome_bind_eq_ok, outcome_pure, Except.ok.injEq] at h
    obtain ⟨clauses, hclauses, otherwise, hotherwise, rfl⟩ := h
    obtain ⟨bodies, rfl, hbodies⟩ := answers_clauses hclauses
    refine .branch hbranches ?_
    rw [hports]
    have hsub : ∀ x, x ∈ (s.clauses visit n.id 0 n.cases).notices ∨
        x ∈ (s.port visit n.id defaultBranchPort).notices →
        x ∈ (s.choice visit n).notices := by
      intro x hx
      rw [choice, mem_notices_bind]
      refine .inr ⟨subject, hsubject, ?_⟩
      rw [if_neg hcases, mem_notices_bind]
      exact hx.imp id fun hx => ⟨_, hclauses, mem_notices_bind.mpr (.inl hx)⟩
    refine List.rel_append
      (hbodies.imp fun _ _ hanswers => hanswers.mono fun x hx => hsub x (.inl hx)) ?_
    exact .cons ⟨hotherwise, fun x hx => hsub x (.inr hx)⟩ .nil

/-- What a node that is set from its sources gives. -/
lemma assigns_of_assignment (h : (s.assignment n).outcome = .ok body) :
    ∀ t ∈ body, ∃ rhs, t = .assign (s.nameOf n) rhs none := by
  simp only [assignment, outcome_bind_eq_ok] at h
  obtain ⟨-, -, h⟩ := h
  split at h
  · cases h
    simp
  · cases h
    intro t ht
    exact ⟨_, List.mem_singleton.mp ht⟩

/-- **What a step of the walk gives.** -/
lemma gives_existing (h : (s.existing visit n).outcome = .ok body) :
    s.Gives visit n (s.existing visit n).notices body := by
  cases hk : n.kind with
  | action | nav =>
    have hstep : s.existing visit n = s.port visit n.id triggerPort := by rw [existing, hk]
    rw [hstep] at h ⊢
    exact .inline (by simp [Node.branches, hk]) (by simp [Node.bodyPorts, hk, Kind.isTrigger])
      ⟨h, List.Subset.refl _⟩
  | state | media | cell | object | player =>
    rw [existing, hk] at h
    exact .leaf (by simp [Node.bodyPorts, hk, Kind.isTrigger]) (assigns_of_assignment h)
  | math =>
    rw [existing, hk] at h
    simp only [arithmetic, outcome_bind_eq_ok, outcome_pure, Except.ok.injEq] at h
    obtain ⟨a, -, b, -, rfl⟩ := h
    exact .leaf (by simp [Node.bodyPorts, hk, Kind.isTrigger]) fun t ht =>
      ⟨_, List.mem_singleton.mp ht⟩
  | compare =>
    rw [existing, hk] at h
    simp only [comparison, outcome_bind_eq_ok, outcome_pure, Except.ok.injEq] at h
    obtain ⟨a, -, b, -, rfl⟩ := h
    exact .leaf (by simp [Node.bodyPorts, hk, Kind.isTrigger]) fun t ht =>
      ⟨_, List.mem_singleton.mp ht⟩
  | ifElse =>
    have hstep : s.existing visit n = s.choice visit n := by rw [existing, hk]
    rw [hstep] at h ⊢
    exact gives_choice hk h
  | reward =>
    rw [existing, hk] at h
    cases h
    exact .leaf (by simp [Node.bodyPorts, hk, Kind.isTrigger]) (by simp)

/-! ## Parts of what a step gives -/

section Parts

variable {d : Nat} {p : Nat × Stmt}

/-- What a port gives comes from the next steps to its targets. -/
lemma Answers.exists_of_mem_parts {id port : String} (h : s.Answers visit id ns port body)
    (hp : p ∈ Stmt.partsAll d body) :
    ∃ t ∈ s.graph.targets id port, ∃ b, (visit t).outcome = .ok b ∧ p ∈ Stmt.partsAll d b := by
  have hport := h.1
  simp only [Scope.port, outcome_bind_eq_ok, outcome_pure, Except.ok.injEq] at hport
  obtain ⟨bodies, hbodies, rfl⟩ := hport
  obtain ⟨b, hb, hp⟩ := Stmt.mem_partsAll_flatten.mp hp
  obtain ⟨t, ht, hout⟩ := exists_of_mem_mapList hbodies hb
  exact ⟨t, ht, b, hout, hp⟩

/-- A port goes on to each of its targets and keeps what it gets. -/
lemma Answers.exists_of_mem_targets {id port t : String} (h : s.Answers visit id ns port body)
    (ht : t ∈ s.graph.targets id port) :
    ∃ b, (visit t).outcome = .ok b ∧ (visit t).notices ⊆ ns ∧
      ∀ d, Stmt.partsAll d b ⊆ Stmt.partsAll d body := by
  obtain ⟨hport, hns⟩ := h
  simp only [Scope.port, outcome_bind_eq_ok, outcome_pure, Except.ok.injEq] at hport
  obtain ⟨bodies, hbodies, rfl⟩ := hport
  obtain ⟨b, hb, hout⟩ := exists_mem_mapList hbodies ht
  refine ⟨b, hout, fun x hx => hns ?_, fun d p hp => Stmt.mem_partsAll_flatten.mpr ⟨b, hb, hp⟩⟩
  rw [Scope.port, mem_notices_bind]
  exact .inl (notices_subset_mapList hbodies ht hx)

/-- The parts of a choice without empty bodies: the choice itself, statements that do nothing, and
the parts of its bodies. -/
lemma mem_parts_choose_orPass {subject : Expr} {bodies : List (Literal × List Stmt)}
    {otherwise : List Stmt} :
    p ∈ Stmt.partsAll d
      [.choose subject (bodies.map fun c => (c.1, orPass c.2)) (orPass otherwise)] ↔
      p = (d, .choose subject (bodies.map fun c => (c.1, orPass c.2)) (orPass otherwise)) ∨
        ∃ b ∈ bodies.map Prod.snd ++ [otherwise],
          p ∈ Stmt.partsAll (d + 1) b ∨ b = [] ∧ p = (d + 1, .pass none) := by
  have hclauses : (∃ c ∈ bodies.map fun c => (c.1, orPass c.2), p ∈ Stmt.partsAll (d + 1) c.2) ↔
      ∃ b ∈ bodies.map Prod.snd, p ∈ Stmt.partsAll (d + 1) (orPass b) := by
    simp only [List.mem_map, exists_exists_and_eq_and]
  have hone : ∀ t : Stmt, p ∈ Stmt.partsAll d [t] ↔ p ∈ t.parts d :=
    fun t => by simp [Stmt.mem_partsAll]
  rw [hone, Stmt.mem_parts_choose, hclauses]
  simp only [List.mem_append, List.mem_singleton, or_and_right, exists_or, exists_eq_left,
    Stmt.mem_partsAll_orPass]

/-- **A statement of a step** is one of its own, which is no statement about a cycle and stands at
the depth of the step or in a body of its choice, or it comes from the next step to a target. -/
lemma Gives.part_cases (h : s.Gives visit n ns body) (hn : s.graph.node? n.id = some n)
    (hp : p ∈ Stmt.partsAll d body) :
    (p.2.carriesOut = true ∧ p.2.cycle? = none ∧ d ≤ p.1 ∧ p.1 ≤ d + n.branches.toNat) ∨
    ∃ t, s.graph.Leads n.id t ∧ ∃ b, (visit t).outcome = .ok b ∧
      p ∈ Stmt.partsAll (d + n.branches.toNat) b := by
  cases h with
  | leaf _ hassigns =>
    obtain ⟨t, ht, hp⟩ := Stmt.mem_partsAll.mp hp
    obtain ⟨rhs, rfl⟩ := hassigns t ht
    obtain rfl := List.mem_singleton.mp hp
    exact .inl ⟨rfl, rfl, le_rfl, Nat.le_add_right _ _⟩
  | @inline port _ hbranches hports hanswers =>
    obtain ⟨t, ht, b, hb, hp⟩ := hanswers.exists_of_mem_parts hp
    have hleads := (Graph.leads_iff_of_node? hn).mpr ⟨port, by simp [hports], ht⟩
    exact .inr ⟨t, hleads, b, hb, by simpa [hbranches] using hp⟩
  | branch hbranches hanswers =>
    rw [hbranches]
    rcases mem_parts_choose_orPass.mp hp with rfl | ⟨b, hb, hp | ⟨-, rfl⟩⟩
    · exact .inl ⟨rfl, rfl, le_rfl, Nat.le_add_right _ _⟩
    · obtain ⟨port, hport, hanswer⟩ := exists_of_forall₂_of_mem_right hanswers hb
      obtain ⟨t, ht, c, hc, hp⟩ := hanswer.exists_of_mem_parts hp
      exact .inr ⟨t, (Graph.leads_iff_of_node? hn).mpr ⟨port, hport, ht⟩, c, hc, hp⟩
    · exact .inl ⟨rfl, rfl, Nat.le_succ d, le_rfl⟩

/-- **A step goes on to each target of a body port**, keeps the statements that it gets, in a body
of its choice if it makes one, and passes the notices on. -/
lemma Gives.exists_of_mem_targets (h : s.Gives visit n ns body) {port t : String}
    (hport : port ∈ n.bodyPorts) (ht : t ∈ s.graph.targets n.id port) :
    ∃ b, (visit t).outcome = .ok b ∧ (visit t).notices ⊆ ns ∧
      ∀ d, Stmt.partsAll (d + n.branches.toNat) b ⊆ Stmt.partsAll d body := by
  cases h with
  | leaf hports _ =>
    rw [hports] at hport
    cases hport
  | inline hbranches hports hanswers =>
    rw [hports, List.mem_singleton] at hport
    subst hport
    rw [hbranches]
    exact hanswers.exists_of_mem_targets ht
  | branch hbranches hanswers =>
    obtain ⟨body, hbody, hanswer⟩ := exists_of_forall₂_of_mem_left hanswers hport
    obtain ⟨b, hout, hnotices, hparts⟩ := hanswer.exists_of_mem_targets ht
    refine ⟨b, hout, hnotices,
      fun d p hp => mem_parts_choose_orPass.mpr (.inr ⟨body, hbody, .inl ?_⟩)⟩
    rw [hbranches] at hp
    exact hparts (d + 1) hp

/-- A step goes on to all that its node leads to. -/
lemma Gives.exists_of_leads (h : s.Gives visit n ns body) (hn : s.graph.node? n.id = some n)
    {t : String} (hleads : s.graph.Leads n.id t) :
    ∃ b, (visit t).outcome = .ok b ∧ (visit t).notices ⊆ ns ∧
      ∀ d, Stmt.partsAll (d + n.branches.toNat) b ⊆ Stmt.partsAll d body := by
  obtain ⟨port, hport, ht⟩ := (Graph.leads_iff_of_node? hn).mp hleads
  exact h.exists_of_mem_targets hport ht

end Parts

/-! ## Notices of a step -/

section Notices

variable {x : Notice}

/-- The notices for a port come from the next steps to its targets. -/
lemma exists_of_mem_notices_port {id port : String} (h : x ∈ (s.port visit id port).notices) :
    ∃ t ∈ s.graph.targets id port, x ∈ (visit t).notices := by
  rw [Scope.port, mem_notices_bind] at h
  rcases h with h | ⟨_, -, h⟩
  · exact exists_of_mem_notices_mapList h
  · cases h

/-- A literal has no notices. -/
lemma notices_literal (blank : Literal) (v : Json) : (literal blank v).notices = [] := by
  unfold literal
  split <;> rfl

/-- The notices for the clauses from number `i` on come from the next steps to the targets of the
cases. -/
lemma exists_of_mem_notices_clauses {id : String} {i : Nat} {cases : List Case}
    (h : x ∈ (s.clauses visit id i cases).notices) :
    ∃ port ∈ (List.range' i cases.length).map fun (j : Nat) => casePort j,
      ∃ t ∈ s.graph.targets id port, x ∈ (visit t).notices := by
  induction cases generalizing i with
  | nil => cases h
  | cons c rest ih =>
    rw [List.length_cons, List.range'_succ, List.map_cons, List.exists_mem_cons_iff]
    rw [Scope.clauses, mem_notices_bind, notices_literal] at h
    rcases h with h | ⟨_, -, h⟩
    · cases h
    · rcases mem_notices_bind.mp h with h | ⟨_, -, h⟩
      · exact .inl (exists_of_mem_notices_port h)
      · rcases mem_notices_bind.mp h with h | ⟨_, -, h⟩
        · exact .inr (ih h)
        · cases h

/-- The notices for the value of an input port are about edges. -/
lemma exists_of_mem_notices_inputExpr {port : String} {policy : FanIn} {default : Term}
    (h : x ∈ (s.inputExpr n port policy default : Audited EmitError Expr).notices) :
    ∃ edge, x = .danglingEdge edge n.id port := by
  rw [inputExpr, mem_notices_bind] at h
  rcases h with h | ⟨_, -, h⟩
  · obtain ⟨e, -, rfl⟩ := List.mem_map.mp h
    exact ⟨e.id, rfl⟩
  · cases h

/-- **A notice of a step** is about an edge that comes from nowhere, or it comes from the next step
to a target, however the step ends. -/
lemma notice_cases_existing (hn : s.graph.node? n.id = some n)
    (h : x ∈ (s.existing visit n).notices) :
    (∃ edge port, x = .danglingEdge edge n.id port) ∨ ∃ t, s.graph.Leads n.id t ∧
      x ∈ (visit t).notices := by
  have hport : ∀ port ∈ n.bodyPorts, x ∈ (s.port visit n.id port).notices →
      ∃ t, s.graph.Leads n.id t ∧ x ∈ (visit t).notices := by
    intro port hport hx
    obtain ⟨t, ht, hx⟩ := exists_of_mem_notices_port hx
    exact ⟨t, (Graph.leads_iff_of_node? hn).mpr ⟨port, hport, ht⟩, hx⟩
  have hinput : ∀ port policy default,
      x ∈ (s.inputExpr n port policy default : Audited EmitError Expr).notices →
      ∃ edge port, x = .danglingEdge edge n.id port := by
    intro port policy default hx
    obtain ⟨edge, hedge⟩ := exists_of_mem_notices_inputExpr hx
    exact ⟨edge, port, hedge⟩
  cases hk : n.kind with
  | action | nav =>
    rw [existing, hk] at h
    exact .inr (hport triggerPort (by simp [Node.bodyPorts, hk, Kind.isTrigger]) h)
  | state | media | cell | object | player =>
    rw [existing, hk] at h
    rcases mem_notices_bind.mp h with h | ⟨_, -, h⟩
    · obtain ⟨e, -, rfl⟩ := List.mem_map.mp h
      exact .inl ⟨e.id, _, rfl⟩
    · split at h <;> cases h
  | math | compare =>
    rw [existing, hk] at h
    rcases mem_notices_bind.mp h with h | ⟨_, -, h⟩
    · exact .inl (hinput _ _ _ h)
    · rcases mem_notices_bind.mp h with h | ⟨_, -, h⟩
      · exact .inl (hinput _ _ _ h)
      · cases h
  | ifElse =>
    have hports := Node.bodyPorts_eq_of_ifElse hk
    have hdefault := hport defaultBranchPort (by simp [hports])
    rw [existing, hk] at h
    rcases mem_notices_bind.mp h with h | ⟨_, -, h⟩
    · exact .inl (hinput _ _ _ h)
    · split_ifs at h
      · exact .inr (hdefault h)
      · rcases mem_notices_bind.mp h with h | ⟨_, -, h⟩
        · obtain ⟨port, hmem, t, ht, hx⟩ := exists_of_mem_notices_clauses h
          have hbody : port ∈ n.bodyPorts := hports ▸ List.mem_append_left _ hmem
          exact .inr ⟨t, (Graph.leads_iff_of_node? hn).mpr ⟨port, hbody, ht⟩, hx⟩
        · rcases mem_notices_bind.mp h with h | ⟨_, -, h⟩
          · exact .inr (hdefault h)
          · cases h
  | reward =>
    rw [existing, hk] at h
    cases h

end Notices

/-! ## How a step ends -/

section Outcome

variable {visit' : String → Emission} (hvisit : ∀ id, (visit id).outcome = (visit' id).outcome)
include hvisit

/-- A port ends as the next steps to its targets do. -/
lemma outcome_port_congr (id port : String) :
    (s.port visit id port).outcome = (s.port visit' id port).outcome := by
  rw [Scope.port, Scope.port, outcome_bind, outcome_bind,
    outcome_mapList_congr (List.forall₂_same.mpr fun t _ => hvisit t)]

/-- The clauses of a choice end as the next steps to the targets of the cases do. -/
lemma outcome_clauses_congr (id : String) (i : Nat) (cases : List Case) :
    (s.clauses visit id i cases).outcome = (s.clauses visit' id i cases).outcome := by
  induction cases generalizing i with
  | nil => rfl
  | cons c rest ih => simp only [Scope.clauses, outcome_bind, outcome_port_congr hvisit, ih]

/-- **A step ends as the next steps do**, whatever notices they have. -/
lemma outcome_existing_congr (n : Node) :
    (s.existing visit n).outcome = (s.existing visit' n).outcome := by
  cases hk : n.kind with
  | action | nav =>
    rw [existing, existing, hk]
    exact outcome_port_congr hvisit _ _
  | ifElse =>
    rw [existing, existing, hk]
    simp only [choice, outcome_bind]
    congr 1
    funext subject
    split_ifs
    · exact outcome_port_congr hvisit _ _
    · simp only [outcome_bind, outcome_clauses_congr hvisit, outcome_port_congr hvisit]
  | state | media | cell | object | player | math | compare | reward => rw [existing, existing, hk]

end Outcome

/-! ## Steps of a whole walk -/

/-- **A statement of the walk**: the node is on its own way, or it is carried out and the statement
is one of this step or of the walk from a target. -/
lemma part_cases_node {limit d : Nat} {way : List String} {id : String} {p : Nat × Stmt}
    (h : (s.node limit way id).outcome = .ok body) (hp : p ∈ Stmt.partsAll d body) :
    (∃ n ∈ s.graph.nodes, n.id = id ∧ id ∈ way ∧ p = (d, .pass (some (s.nameOf n)))) ∨
    ∃ n ∈ s.graph.nodes, n.id = id ∧ id ∉ way ∧ ∃ rest, limit = rest + 1 ∧
      ((p.2.carriesOut = true ∧ p.2.cycle? = none ∧ d ≤ p.1 ∧ p.1 ≤ d + n.branches.toNat) ∨
      ∃ t, s.graph.Leads id t ∧ ∃ b, (s.node rest (id :: way) t).outcome = .ok b ∧
        p ∈ Stmt.partsAll (d + n.branches.toNat) b) := by
  rcases node_eq_ok h with ⟨-, rfl⟩ | ⟨n, hn, hway, rfl⟩ | ⟨n, rest, hn, hway, hlimit, hstep⟩
  · cases hp
  · obtain ⟨hmem, hid⟩ := Graph.node?_eq_some_iff.mp hn
    exact .inl ⟨n, hmem, hid, hway, List.mem_singleton.mp hp⟩
  · obtain ⟨hmem, rfl⟩ := Graph.node?_eq_some_iff.mp hn
    exact .inr ⟨n, hmem, rfl, hway, rest, hlimit, (gives_existing hstep).part_cases hn hp⟩

/-- The statements of the walk assign, choose or do nothing. -/
lemma carriesOut_of_mem_parts {limit d : Nat} {way : List String} {id : String}
    (h : (s.node limit way id).outcome = .ok body) :
    ∀ p ∈ Stmt.partsAll d body, p.2.carriesOut = true := by
  induction limit using Nat.strongRecOn generalizing way id d body with
  | ind limit ih =>
    intro p hp
    rcases part_cases_node h hp with
      ⟨n, -, -, -, rfl⟩ | ⟨n, -, -, -, rest, rfl, ⟨hown, -⟩ | ⟨t, -, b, hb, hp⟩⟩
    · rfl
    · exact hown
    · exact ih rest (Nat.lt_succ_self rest) hb p hp

end Scope

end LogicGraph
