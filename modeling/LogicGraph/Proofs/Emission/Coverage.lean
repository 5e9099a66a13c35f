import LogicGraph.Proofs.Emission.Steps
import LogicGraph.Proofs.Graph.StepRoots

set_option relaxedAutoImplicit false
set_option autoImplicit false

/-!
# A step of a simulation evaluates every node

The roots of a step cover the graph, and the statements for a root hold those for all that lies
beneath it. Hence a step assigns the variable of every arithmetic node and every comparison.

## Main definitions

* `LogicGraph.Stmt.assigned` — the names that a statement assigns, at any depth.
* `LogicGraph.HasAssignment` — lines with an assignment to a name.
* `LogicGraph.Scope.Covers` — what a visit assigns is among given names.

## Main results

* `LogicGraph.Stmt.mem_assignedIn_iff` — the assigned names are those of the assignments at any
  depth.
* `LogicGraph.Stmt.hasAssignment_printAll` — an assigned name has an assignment among the printed
  lines.
* `LogicGraph.Scope.mem_assignedIn_node` — the statements for a node assign what a shortest walk
  leads to.
* `LogicGraph.Graph.stepRoots_cover` — the roots of a step cover the graph, in what is printed too.

## Design

A node on its own way is replaced by a statement that does nothing, so not every walk from a root is
followed to its end. A shortest walk is: were one of its nodes on the way already, then that node
would have a walk that is as short. The induction is on the length of the walk, and the invariant
says that nothing on the way has a walk of that length or less.
-/

namespace LogicGraph

/-! ## Assigned names -/

mutual

/-- The names that a statement assigns, at any depth. -/
def Stmt.assigned : Stmt → List String
  | .assign name _ _ => [name]
  | .choose _ clauses otherwise => Stmt.assignedInClauses clauses ++ Stmt.assignedIn otherwise
  | .comment _ | .docstring _ | .increment _ _ | .pass _ | .returnState _ | .returnObservation _
      | .returnReset
  | .reward _ | .returnStep => []

/-- The names that statements assign, at any depth. -/
def Stmt.assignedIn : List Stmt → List String
  | [] => []
  | s :: rest => s.assigned ++ Stmt.assignedIn rest

/-- The names that the bodies of clauses assign, at any depth. -/
def Stmt.assignedInClauses : List (Literal × List Stmt) → List String
  | [] => []
  | (_, body) :: rest => Stmt.assignedIn body ++ Stmt.assignedInClauses rest

end

/-- Statements assign what one of them assigns. -/
lemma Stmt.mem_assignedIn {name : String} {body : List Stmt} :
    name ∈ Stmt.assignedIn body ↔ ∃ s ∈ body, name ∈ s.assigned := by
  induction body with
  | nil => simp [Stmt.assignedIn]
  | cons s rest ih => simp [Stmt.assignedIn, ih]

/-- More statements assign more names. -/
lemma Stmt.assignedIn_subset {body body' : List Stmt} (h : body ⊆ body') :
    Stmt.assignedIn body ⊆ Stmt.assignedIn body' := by
  intro name hname
  obtain ⟨s, hs, hassigned⟩ := Stmt.mem_assignedIn.mp hname
  exact Stmt.mem_assignedIn.mpr ⟨s, h hs, hassigned⟩

mutual

/-- The names that a statement assigns are those of the assignments among its parts. -/
lemma Stmt.mem_assigned_iff {name : String} (d : Nat) (s : Stmt) :
    name ∈ s.assigned ↔ ∃ e rhs remark, (e, Stmt.assign name rhs remark) ∈ s.parts d := by
  cases s with
  | assign name' rhs remark => simp [Stmt.assigned, Stmt.parts]
  | choose subject clauses otherwise =>
    rw [Stmt.assigned, List.mem_append, Stmt.mem_assignedInClauses_iff (d + 1) clauses,
      Stmt.mem_assignedIn_iff (d + 1) otherwise, Stmt.parts]
    simp only [List.mem_cons, List.mem_append, Prod.mk.injEq, reduceCtorEq, and_false, false_or,
      exists_or]
  | comment | docstring | increment | pass | returnState | returnObservation | returnReset | reward
  | returnStep =>
    simp [Stmt.assigned, Stmt.parts]

/-- The names that statements assign are those of the assignments among their parts. -/
lemma Stmt.mem_assignedIn_iff {name : String} (d : Nat) (body : List Stmt) :
    name ∈ Stmt.assignedIn body ↔
      ∃ e rhs remark, (e, Stmt.assign name rhs remark) ∈ Stmt.partsAll d body := by
  match body with
  | [] => simp [Stmt.assignedIn, Stmt.partsAll]
  | s :: rest =>
    rw [Stmt.assignedIn, List.mem_append, Stmt.mem_assigned_iff d s, Stmt.mem_assignedIn_iff d rest,
      Stmt.partsAll]
    simp only [List.mem_append, exists_or]

/-- The names that clauses assign are those of the assignments among the parts of their bodies. -/
lemma Stmt.mem_assignedInClauses_iff {name : String} (d : Nat)
    (clauses : List (Literal × List Stmt)) :
    name ∈ Stmt.assignedInClauses clauses ↔
      ∃ e rhs remark, (e, Stmt.assign name rhs remark) ∈ Stmt.partsOfClauses d clauses := by
  match clauses with
  | [] => simp [Stmt.assignedInClauses, Stmt.partsOfClauses]
  | (lit, body) :: rest =>
    rw [Stmt.assignedInClauses, List.mem_append, Stmt.mem_assignedIn_iff d body,
      Stmt.mem_assignedInClauses_iff d rest, Stmt.partsOfClauses]
    simp only [List.mem_append, exists_or]

end

/-- Some line is an assignment to a name. -/
def HasAssignment (name : String) (lines : List String) : Prop :=
  ∃ d rhs remark, indented d (assignText name rhs remark) ∈ lines

/-- More lines have more assignments. -/
lemma HasAssignment.mono {name : String} {ls ls' : List String} (h : HasAssignment name ls)
    (hsub : ls ⊆ ls') :
    HasAssignment name ls' := by
  obtain ⟨d, rhs, remark, hline⟩ := h
  exact ⟨d, rhs, remark, hsub hline⟩

/-- Statements that assign a name have an assignment to it among their lines. -/
lemma Stmt.hasAssignment_printAll {name : String} (d : Nat) (body : List Stmt)
    (h : name ∈ Stmt.assignedIn body) :
    HasAssignment name (Stmt.printAll d body) := by
  obtain ⟨e, rhs, remark, hpart⟩ := (Stmt.mem_assignedIn_iff d body).mp h
  exact ⟨e, rhs, remark,
    Stmt.mem_printAll_of_mem_partsAll d body hpart (List.mem_singleton.mpr rfl)⟩

/-! ## The walk -/

namespace Scope

variable {s : Scope} {visit : String → Emission}

/-- The visit of an id succeeds, and what it assigns is among the given names. -/
def Covers (visit : String → Emission) (id : String) (names : List String) : Prop :=
  ∃ body, (visit id).outcome = .ok body ∧ Stmt.assignedIn body ⊆ names

/-- What a step gives holds the statements for the targets of each body port. -/
lemma Gives.covers {n : Node} {ns : List Notice} {port target : String} {body : List Stmt}
    (h : s.Gives visit n ns body) (hport : port ∈ n.bodyPorts)
    (ht : target ∈ s.graph.targets n.id port) :
    Covers visit target (Stmt.assignedIn body) := by
  obtain ⟨b, hout, -, hparts⟩ := h.exists_of_mem_targets hport ht
  refine ⟨b, hout, fun name hname => ?_⟩
  obtain ⟨e, rhs, remark, hpart⟩ := (Stmt.mem_assignedIn_iff (0 + n.branches.toNat) b).mp hname
  exact (Stmt.mem_assignedIn_iff 0 body).mpr ⟨e, rhs, remark, hparts 0 hpart⟩

/-- The statements for a choice hold those for the targets of each of its body ports. -/
lemma covers_choice {n : Node} {port target : String} {body : List Stmt} (hk : n.kind = .ifElse)
    (h : (s.choice visit n).outcome = .ok body) (hport : port ∈ n.bodyPorts)
    (ht : target ∈ s.graph.targets n.id port) : Covers visit target (Stmt.assignedIn body) :=
  (gives_choice hk h).covers hport ht

/-- **The statements for a node hold those for the targets of each of its body ports.** -/
lemma covers_existing {n : Node} {port target : String} {body : List Stmt}
    (h : (s.existing visit n).outcome = .ok body) (hport : port ∈ n.bodyPorts)
    (ht : target ∈ s.graph.targets n.id port) : Covers visit target (Stmt.assignedIn body) :=
  (gives_existing h).covers hport ht

/-- The statements for an arithmetic node or a comparison assign its variable. -/
lemma mem_assignedIn_existing {n : Node} {body : List Stmt}
    (hk : n.kind = .math ∨ n.kind = .compare) (h : (s.existing visit n).outcome = .ok body) :
    s.nameOf n ∈ Stmt.assignedIn body := by
  rcases hk with hk | hk
  · rw [existing, hk] at h
    simp only [arithmetic, Audited.outcome_bind_eq_ok, Audited.outcome_pure, Except.ok.injEq] at h
    obtain ⟨a, -, b, -, rfl⟩ := h
    exact List.mem_cons_self
  · rw [existing, hk] at h
    simp only [comparison, Audited.outcome_bind_eq_ok, Audited.outcome_pure, Except.ok.injEq] at h
    obtain ⟨a, -, b, -, rfl⟩ := h
    exact List.mem_cons_self

/-- **The statements for a node assign what a shortest walk leads to.**

**Proof sketch.** By induction on the length of the walk. Its first node is not on the way, because
no node there has a walk as short, so the node is carried out with all its body ports and the walk
goes on behind one of them. Now the node is on the way, but being the start of a shortest walk it
has none that is shorter. -/
lemma mem_assignedIn_node {n : Node} (hn : s.graph.node? n.id = some n)
    (hk : n.kind = .math ∨ n.kind = .compare) {k limit : Nat} {way : List String} {id : String}
    {body : List Stmt} (h : (s.node limit way id).outcome = .ok body)
    (hwalk : s.graph.Walk k id n.id) (hshortest : ∀ j < k, ¬ s.graph.Walk j id n.id)
    (hway : ∀ w ∈ way, ∀ j ≤ k, ¬ s.graph.Walk j w n.id) :
    s.nameOf n ∈ Stmt.assignedIn body := by
  induction k generalizing limit way id body with
  | zero =>
    obtain rfl : id = n.id := hwalk
    rcases node_eq_ok h with ⟨hnone, -⟩ | ⟨m, -, hmem, -⟩ | ⟨m, rest, hm, -, -, hexisting⟩
    · rw [hn] at hnone
      cases hnone
    · exact absurd rfl (hway n.id hmem 0 le_rfl)
    · obtain rfl : n = m := Option.some.inj (hn.symm.trans hm)
      exact mem_assignedIn_existing hk hexisting
  | succ k ih =>
    obtain ⟨next, hleads, hrest⟩ := hwalk
    obtain ⟨m, hm, port, hport, htarget⟩ := hleads.exists_node
    rcases node_eq_ok h with ⟨hnone, -⟩ | ⟨m', -, hmem, -⟩ | ⟨m', rest, hm', -, -, hexisting⟩
    · rw [hm] at hnone
      cases hnone
    · exact absurd ⟨next, hleads, hrest⟩ (hway id hmem (k + 1) le_rfl)
    · obtain rfl : m = m' := Option.some.inj (hm.symm.trans hm')
      obtain ⟨b, hout, hsub⟩ := covers_existing hexisting hport htarget
      refine hsub (ih hout hrest ?_ ?_)
      · intro j hj hshort
        exact hshortest (j + 1) (by omega) ⟨next, hleads, hshort⟩
      · rw [List.forall_mem_cons]
        exact ⟨fun j hj => hshortest j (by omega), fun w hw j hj => hway w hw j (by omega)⟩

end Scope

/-! ## The step -/

namespace Graph

variable {g : Graph}

/-- A node of a graph is the node of its id. -/
lemma node?_id {n : Node} (hn : n ∈ g.nodes) : g.node? n.id = some n :=
  node?_eq_some_iff.mpr ⟨hn, rfl⟩

/-- The nodes that a simulation evaluates are arithmetic nodes, comparisons and choices. -/
lemma mem_evaluated_iff {n : Node} :
    n ∈ g.evaluated ↔ n ∈ g.nodes ∧ n.kind ∈ [Kind.math, .compare, .ifElse] := by
  rw [mem_evaluated]
  cases n.kind <;> simp [Kind.isEvaluated]

/-- Every evaluated node is the end of a shortest walk from some root. -/
lemma exists_shortest_walk {n : Node} (hn : n ∈ g.evaluated) :
    ∃ r ∈ g.stepRoots, ∃ k, g.Walk k r.id n.id ∧ ∀ j < k, ¬ g.Walk j r.id n.id := by
  have hroot : ∃ r ∈ g.stepRoots, Relation.ReflTransGen g.Leads r.id n.id := by
    rcases isRoot_or_reached hn with h | ⟨r, hr, h⟩
    · exact ⟨n, h, .refl⟩
    · exact ⟨r, hr, (mem_nested_iff.mp h).to_reflTransGen⟩
  obtain ⟨r, hr, hreach⟩ := hroot
  classical
  have hwalk := exists_walk_iff.mpr hreach
  exact ⟨r, hr, Nat.find hwalk, Nat.find_spec hwalk, fun j hj => Nat.find_min hwalk hj⟩

/-- The statements for the roots of a step assign every arithmetic node and every comparison. -/
lemma mem_assignedIn_rootStmts {s : Scope} (hs : s.graph = g) {limit : Nat} {body : List Stmt}
    (h : (rootStmts s limit g.stepRoots).outcome = .ok body) {n : Node} (hn : n ∈ g.nodes)
    (hk : n.kind = .math ∨ n.kind = .compare) : s.nameOf n ∈ Stmt.assignedIn body := by
  subst hs
  have heval : n ∈ s.graph.evaluated :=
    mem_evaluated_iff.mpr ⟨hn, by rcases hk with hk | hk <;> simp [hk]⟩
  obtain ⟨r, hr, k, hwalk, hshortest⟩ := exists_shortest_walk heval
  simp only [rootStmts, Audited.outcome_bind_eq_ok, Audited.outcome_pure, Except.ok.injEq] at h
  obtain ⟨bodies, hbodies, rfl⟩ := h
  obtain ⟨b, hb, hout⟩ := Audited.exists_mem_mapList hbodies hr
  have hname := Scope.mem_assignedIn_node (node?_id hn) hk hout hwalk hshortest (by simp)
  exact Stmt.assignedIn_subset (List.sublist_flatten_of_mem hb).subset hname

/-- The last lines of a simulation are those of the method `step`, with an assignment to the
variable of every arithmetic node and every comparison. -/
lemma exists_step {limit : Nat} {p : Program} (h : (simulationProgram limit g).outcome = .ok p) :
    ∃ step ∈ p.methods, step.name = "step" ∧ (∃ before, p.text = unlines (before ++ step.print)) ∧
      ∀ n ∈ g.nodes, n.kind = .math ∨ n.kind = .compare → ∃ d rhs remark,
        indented d (assignText ((NameTable.ofGraph g simulationRules).name n.id) rhs remark) ∈
          step.print := by
  simp only [simulationProgram, Audited.outcome_bind_eq_ok, Audited.outcome_pure,
    Except.ok.injEq] at h
  obtain ⟨-, -, initial, -, reset, -, evaluation, hevaluation, reward, -, -, -, rfl⟩ := h
  refine ⟨_, List.mem_cons_of_mem _ (List.mem_cons_of_mem _ List.mem_cons_self), rfl, ?_, ?_⟩
  · exact Program.exists_text_eq_unlines_append rfl
  · intro n hn hk
    have hname := mem_assignedIn_rootStmts rfl hevaluation hn hk
    have hbody := Stmt.assignedIn_subset
      (List.subset_append_of_subset_left [.reward reward, .returnStep] (List.subset_append_right
        (actionStmts ⟨g, NameTable.ofGraph g simulationRules⟩ (g.nodes.filter Node.takesAction))
        evaluation)) hname
    exact (Stmt.hasAssignment_printAll 2 _ hbody).mono (List.subset_cons_self _ _)

/-- **The roots of a step cover the graph.** They are distinct evaluated nodes in the order of the
graph, every evaluated node beneath no choice is among them, and every other one lies beneath one of
them. The method `step` of a simulation therefore assigns the variable of every arithmetic node and
every comparison. If no node is beneath itself, then the roots are just the evaluated nodes beneath
no choice. -/
theorem stepRoots_cover (g : Graph) :
    g.stepRoots.Nodup ∧ g.stepRoots.Sublist g.nodes ∧
    (∀ r ∈ g.stepRoots, r.kind ∈ [Kind.math, .compare, .ifElse]) ∧
    (∀ n ∈ g.nodes, n.kind ∈ [Kind.math, .compare, .ifElse] → g.IsFree n → n ∈ g.stepRoots) ∧
    (∀ n ∈ g.nodes, n.kind ∈ [Kind.math, .compare, .ifElse] →
      n ∈ g.stepRoots ∨ ∃ r ∈ g.stepRoots, n.id ∈ g.nested r.id) ∧
    (∀ limit p, (simulationProgram limit g).outcome = .ok p →
      ∃ step ∈ p.methods, step.name = "step" ∧ (∃ before, p.text = unlines (before ++ step.print)) ∧
        ∀ n ∈ g.nodes, n.kind = .math ∨ n.kind = .compare → ∃ d rhs remark,
          indented d (assignText ((NameTable.ofGraph g simulationRules).name n.id) rhs remark) ∈
            step.print) ∧
    ((∀ n ∈ g.nodes, n.id ∉ g.nested n.id) →
      ∀ n, n ∈ g.stepRoots ↔ n ∈ g.nodes ∧ n.kind ∈ [Kind.math, .compare, .ifElse] ∧
        g.IsFree n) := by
  have hsublist : g.stepRoots.Sublist g.nodes := g.stepRoots_sublist
  have hnodup : g.stepRoots.Nodup := g.nodup_nodes.sublist hsublist
  refine ⟨hnodup, hsublist, ?_, ?_, ?_, fun limit p h => exists_step h, ?_⟩
  · intro r hr
    exact (mem_evaluated_iff.mp (mem_stepRoots_iff.mp hr).1).2
  · intro n hn hk hfree
    exact mem_stepRoots_iff.mpr ⟨mem_evaluated_iff.mpr ⟨hn, hk⟩, .inl hfree⟩
  · intro n hn hk
    exact isRoot_or_reached (mem_evaluated_iff.mpr ⟨hn, hk⟩)
  · intro hacyclic n
    rw [mem_stepRoots_iff_of_acyclic hacyclic, mem_evaluated_iff, and_assoc]

end Graph

end LogicGraph
