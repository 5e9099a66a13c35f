import LogicGraph.Compile
import LogicGraph.Proofs.Audited
import LogicGraph.Proofs.Program.WellFormed

set_option relaxedAutoImplicit false
set_option autoImplicit false

/-!
# The structure of generated programs

Whatever the graph, what is put together for a target is a well-formed tree: cycles, edges that lead
nowhere and hostile texts in names, labels and values cannot change the shape of the program.

## Main definitions

* `LogicGraph.Scope.Named` — all names of a scope are identifiers.
* `LogicGraph.Target.preamble` — the fixed lines in front of the methods.

## Main results

* `LogicGraph.Scope.node_eq_ok` — what the walk can do at a node.
* `LogicGraph.Scope.Named.safeVisit_node` — the statements for a node are well-formed.
* `LogicGraph.Target.text_eq_unlines_print_of_program` — the text of a program is the print of a
  well-formed tree.
-/

namespace LogicGraph

open Text

/-- All names of a scope are identifiers. -/
def Scope.Named (s : Scope) : Prop :=
  ∀ id, IsIdentifier (s.names.name id)

/-- A body that is not empty stays well-formed. -/
lemma allWellFormed_orPass {body : List Stmt} (h : Stmt.AllWellFormed body) :
    Stmt.AllWellFormed (orPass body) := by
  unfold orPass
  split_ifs
  · exact ⟨by simp [Stmt.WellFormed], trivial⟩
  · exact h

/-- A body is never empty. -/
lemma orPass_ne_nil (body : List Stmt) : orPass body ≠ [] := by
  unfold orPass
  split_ifs with h
  · exact List.cons_ne_nil _ _
  · rwa [List.isEmpty_iff] at h

/-- The value of a port is well-formed if the terms that it is made of are. -/
lemma FanIn.wellFormed_reduceTerms {policy : FanIn} {default : Term} {ts : List Term}
    (hdefault : default.WellFormed) (hts : ∀ t ∈ ts, t.WellFormed) :
    (policy.reduceTerms default ts).WellFormed := by
  match ts with
  | [] => exact hdefault
  | [t] => exact hts t List.mem_cons_self
  | t :: u :: rest =>
    cases policy with
    | first => exact hts t List.mem_cons_self
    | sum => exact ⟨by simp, hts⟩

namespace Scope

variable {s : Scope}

/-- The terms that read the sources of a port are well-formed. -/
lemma Named.wellFormed_of_mem_sourceTerms (hs : s.Named) {n : Node} {port : String} :
    ∀ t ∈ s.sourceTerms n port, t.WellFormed := by
  intro t ht
  obtain ⟨m, -, rfl⟩ := List.mem_map.mp ht
  unfold valueTerm
  split_ifs
  · exact hs m.id
  · trivial
  · trivial

/-- The value of an input port is well-formed. -/
lemma Named.wellFormed_inputExpr (hs : s.Named) {n : Node} {port : String} {policy : FanIn}
    {default : Term} {e : Expr}
    (h : (s.inputExpr n port policy default : Audited EmitError Expr).outcome = .ok e)
    (hdefault : default.WellFormed) : e.WellFormed := by
  simp only [inputExpr, Audited.outcome_bind_eq_ok, Audited.outcome_pure, Except.ok.injEq] at h
  obtain ⟨-, -, rfl⟩ := h
  exact FanIn.wellFormed_reduceTerms hdefault hs.wellFormed_of_mem_sourceTerms

/-- The statements for a node that is set from its sources are well-formed. -/
lemma Named.allWellFormed_assignment (hs : s.Named) {n : Node} {body : List Stmt}
    (h : (s.assignment n).outcome = .ok body) : Stmt.AllWellFormed body := by
  simp only [assignment, Audited.outcome_bind_eq_ok] at h
  obtain ⟨-, -, h⟩ := h
  split at h
  · cases h
    trivial
  · cases h
    refine ⟨⟨hs n.id, ?_, by simp⟩, trivial⟩
    exact FanIn.wellFormed_reduceTerms trivial hs.wellFormed_of_mem_sourceTerms

/-- The statement for an arithmetic node is well-formed. -/
lemma Named.allWellFormed_arithmetic (hs : s.Named) {n : Node} {body : List Stmt}
    (h : (s.arithmetic n).outcome = .ok body) : Stmt.AllWellFormed body := by
  simp only [arithmetic, Audited.outcome_bind_eq_ok, Audited.outcome_pure, Except.ok.injEq] at h
  obtain ⟨a, ha, b, hb, rfl⟩ := h
  have hsign : (Arithmetic.ofSign n.operation).sign ∈ ["+", "-", "*", "/"] := by
    cases Arithmetic.ofSign n.operation <;> decide
  exact ⟨⟨hs n.id,
    ⟨hsign, hs.wellFormed_inputExpr ha trivial, hs.wellFormed_inputExpr hb trivial⟩, by simp⟩,
      trivial⟩

/-- The statement for a comparison is well-formed. -/
lemma Named.allWellFormed_comparison (hs : s.Named) {n : Node} {body : List Stmt}
    (h : (s.comparison n).outcome = .ok body) : Stmt.AllWellFormed body := by
  simp only [comparison, Audited.outcome_bind_eq_ok, Audited.outcome_pure, Except.ok.injEq] at h
  obtain ⟨a, ha, b, hb, rfl⟩ := h
  have hsign : (Comparison.ofSign n.operation).sign ∈ ["==", "!=", ">", "<", ">=", "<="] := by
    cases Comparison.ofSign n.operation <;> decide
  exact ⟨⟨hs n.id,
    ⟨hsign, hs.wellFormed_inputExpr ha trivial, hs.wellFormed_inputExpr hb trivial⟩, by simp⟩,
      trivial⟩

/-! ## The walk -/

/-- What a visit gives is well-formed. -/
def SafeVisit (visit : String → Emission) : Prop :=
  ∀ id body, (visit id).outcome = .ok body → Stmt.AllWellFormed body

/-- What is put together from safe visits is well-formed. -/
lemma SafeVisit.allWellFormed_flatten {α : Type} {visit : String → Emission}
    (hvisit : SafeVisit visit) {id : α → String} {as : List α} {bodies : List (List Stmt)}
    (h : (Audited.mapList (fun a => visit (id a)) as).outcome = .ok bodies) :
    Stmt.AllWellFormed bodies.flatten := by
  rw [Stmt.allWellFormed_iff]
  intro t ht
  obtain ⟨b, hb, htb⟩ := List.mem_flatten.mp ht
  obtain ⟨a, -, hout⟩ := Audited.exists_of_mem_mapList h hb
  exact Stmt.allWellFormed_iff.mp (hvisit (id a) b hout) t htb

/-- The statements for the targets of a port are well-formed. -/
lemma allWellFormed_port {visit : String → Emission} (hvisit : SafeVisit visit) {id port : String}
    {body : List Stmt} (h : (s.port visit id port).outcome = .ok body) :
    Stmt.AllWellFormed body := by
  simp only [Scope.port, Audited.outcome_bind_eq_ok, Audited.outcome_pure, Except.ok.injEq] at h
  obtain ⟨bodies, hbodies, rfl⟩ := h
  exact hvisit.allWellFormed_flatten hbodies

/-- The clauses of a choice are well-formed, and there is one for each case. -/
lemma clausesWellFormed_clauses {visit : String → Emission} (hvisit : SafeVisit visit) {id : String}
    {i : Nat} {cases : List Case} {clauses : List (Literal × List Stmt)}
    (h : (s.clauses visit id i cases).outcome = .ok clauses) :
    Stmt.ClausesWellFormed clauses ∧ clauses.length = cases.length := by
  induction cases generalizing i clauses with
  | nil =>
    cases h
    exact ⟨trivial, rfl⟩
  | cons c rest ih =>
    simp only [Scope.clauses, Audited.outcome_bind_eq_ok, Audited.outcome_pure,
      Except.ok.injEq] at h
    obtain ⟨l, -, body, hbody, more, hmore, rfl⟩ := h
    obtain ⟨hwell, hlength⟩ := ih hmore
    exact ⟨⟨l.wellFormed, orPass_ne_nil body,
      allWellFormed_orPass (allWellFormed_port hvisit hbody), hwell⟩,
      by rw [List.length_cons, hlength, List.length_cons]⟩

/-- The statements for a choice are well-formed. -/
lemma Named.allWellFormed_choice (hs : s.Named) {visit : String → Emission}
    (hvisit : SafeVisit visit) {n : Node} {body : List Stmt}
    (h : (s.choice visit n).outcome = .ok body) : Stmt.AllWellFormed body := by
  simp only [choice, Audited.outcome_bind_eq_ok] at h
  obtain ⟨subject, hsubject, h⟩ := h
  split_ifs at h with hcases
  · exact allWellFormed_port hvisit h
  · simp only [Audited.outcome_bind_eq_ok, Audited.outcome_pure, Except.ok.injEq] at h
    obtain ⟨clauses, hclauses, otherwise, hotherwise, rfl⟩ := h
    obtain ⟨hwell, hlength⟩ := clausesWellFormed_clauses hvisit hclauses
    have hne : clauses ≠ [] := by
      rintro rfl
      exact hcases (List.isEmpty_iff_length_eq_zero.mpr hlength.symm)
    exact ⟨⟨hs.wellFormed_inputExpr hsubject trivial, hne, hwell, orPass_ne_nil otherwise,
      allWellFormed_orPass (allWellFormed_port hvisit hotherwise)⟩, trivial⟩

/-- The statements for an existing node are well-formed if those for what lies beneath are. -/
lemma Named.allWellFormed_existing (hs : s.Named) {visit : String → Emission}
    (hvisit : SafeVisit visit) {n : Node} {body : List Stmt}
    (h : (s.existing visit n).outcome = .ok body) : Stmt.AllWellFormed body := by
  unfold existing at h
  split at h
  · exact allWellFormed_port hvisit h
  · exact allWellFormed_port hvisit h
  · exact hs.allWellFormed_assignment h
  · exact hs.allWellFormed_assignment h
  · exact hs.allWellFormed_assignment h
  · exact hs.allWellFormed_assignment h
  · exact hs.allWellFormed_assignment h
  · exact hs.allWellFormed_arithmetic h
  · exact hs.allWellFormed_comparison h
  · exact hs.allWellFormed_choice hvisit h
  · cases h
    trivial

/-- What the walk can do at a node: nothing if it is missing, a statement for the cycle if it is on
its own way, and otherwise one step with one more node on the way. -/
lemma node_eq_ok {limit : Nat} {way : List String} {id : String} {body : List Stmt}
    (h : (s.node limit way id).outcome = .ok body) :
    (s.graph.node? id = none ∧ body = []) ∨
    (∃ n, s.graph.node? id = some n ∧ id ∈ way ∧ body = [.pass (some (s.nameOf n))]) ∨
    ∃ n rest, s.graph.node? id = some n ∧ id ∉ way ∧ limit = rest + 1 ∧
      (s.existing (s.node rest (id :: way)) n).outcome = .ok body := by
  unfold node at h
  split at h
  · rename_i hnode
    cases h
    exact .inl ⟨hnode, rfl⟩
  · rename_i n hnode
    split_ifs at h with hway
    · cases h
      exact .inr (.inl ⟨n, hnode, hway, rfl⟩)
    · split at h
      · cases h
      · rename_i rest
        exact .inr (.inr ⟨n, rest, hnode, hway, rfl, h⟩)

/-- **The statements for a node are well-formed**, whatever lies beneath it.

**Proof sketch.** By induction on how many more nodes may follow: one step of the walk is
well-formed if the next ones are, and the walk ends at a node that is missing or on its own way. -/
lemma Named.safeVisit_node (hs : s.Named) (limit : Nat) (way : List String) :
    SafeVisit (s.node limit way) := by
  induction limit using Nat.strongRecOn generalizing way with
  | ind limit ih =>
    intro id body h
    rcases node_eq_ok h with ⟨-, rfl⟩ | ⟨n, -, -, rfl⟩ | ⟨n, rest, -, -, hlimit, hexisting⟩
    · trivial
    · exact ⟨fun name hname => Option.mem_some_iff.mp hname ▸ hs n.id, trivial⟩
    · exact hs.allWellFormed_existing (ih rest (by omega) (id :: way)) hexisting

/-- The statements in the method of a trigger are well-formed, and there are some. -/
lemma Named.allWellFormed_targetBody (hs : s.Named) {limit : Nat} {n : Node} {port : String}
    {body : List Stmt} (h : (s.targetBody limit n port).outcome = .ok body) :
    body ≠ [] ∧ Stmt.AllWellFormed body := by
  simp only [targetBody, Audited.outcome_bind_eq_ok, Audited.outcome_pure, Except.ok.injEq] at h
  obtain ⟨raw, hraw, rfl⟩ := h
  exact ⟨orPass_ne_nil raw,
    allWellFormed_orPass (allWellFormed_port (hs.safeVisit_node limit [n.id]) hraw)⟩

/-- The name and the body of the method of a trigger. -/
lemma Named.wellFormed_of_mem_entryPoints (hs : s.Named) {limit : Nat} {entries : List EntryPoint}
    (h : (s.entryPoints limit).outcome = .ok entries) {e : EntryPoint} (he : e ∈ entries) :
    e.methodName = triggerMethod (s.nameOf e.node) ∧ Stmt.AllWellFormed e.body := by
  obtain ⟨n, -, hout⟩ := Audited.exists_of_mem_mapList h he
  simp only [entryPoint, Audited.outcome_bind_eq_ok, Audited.outcome_pure, Except.ok.injEq] at hout
  obtain ⟨body, hbody, rfl⟩ := hout
  exact ⟨rfl, (hs.allWellFormed_targetBody hbody).2⟩

end Scope

/-- The scope of a graph under any rules has identifiers for names. -/
lemma named_ofGraph (g : Graph) (r : NameRules) : Scope.Named ⟨g, NameTable.ofGraph g r⟩ :=
  fun id => NameTable.isIdentifier_name g r id

/-! ## Programs -/

/-- The assignment of its first value to the variable of a node is well-formed. -/
lemma wellFormed_initialAssign {s : Scope} (hs : s.Named) {remark : Node → Option String}
    (hremark : ∀ n, ∀ r ∈ remark n, IsOneLine r) {n : Node} {t : Stmt}
    (h : (initialAssign s remark n).outcome = .ok t) : t.WellFormed := by
  simp only [initialAssign, Audited.outcome_bind_eq_ok, Audited.outcome_pure, Except.ok.injEq] at h
  obtain ⟨l, -, rfl⟩ := h
  exact ⟨hs n.id, l.wellFormed, hremark n⟩

/-- First values for a list of nodes are well-formed. -/
lemma allWellFormed_initialAssign {s : Scope} (hs : s.Named) {remark : Node → Option String}
    (hremark : ∀ n, ∀ r ∈ remark n, IsOneLine r) {nodes : List Node} {body : List Stmt}
    (h : (Audited.mapList (initialAssign s remark) nodes).outcome = .ok body) :
    Stmt.AllWellFormed body := by
  rw [Stmt.allWellFormed_iff]
  intro t ht
  obtain ⟨n, -, hout⟩ := Audited.exists_of_mem_mapList h ht
  exact wellFormed_initialAssign hs hremark hout

/-- The remark behind a first value is on one line. -/
lemma isOneLine_of_mem_purposeRemark (n : Node) : ∀ r ∈ purposeRemark n, IsOneLine r := by
  intro r hr
  obtain ⟨t, -, rfl⟩ := Option.map_eq_some_iff.mp hr
  exact isOneLine_oneLine t

/-- The name of the method of a trigger is an identifier. -/
lemma isIdentifier_triggerMethod {name : String} (h : IsIdentifier name) :
    IsIdentifier (triggerMethod name) := by
  have hword : IsWord "on_" := by decide
  have hbehind : ∀ c ∈ "_trigger".toList, isIdentifierChar c = true := by decide
  exact ((hword.append h.2.1).append hbehind).isIdentifier (by simp)

/-- Text for a description stays between its quotes: a backslash is doubled and a double quote made
single. -/
lemma isDescription_docstringText (s : String) : IsDescription (docstringText s) := by
  have hone := isOneLine_oneLine s
  rw [IsDescription, docstringText, isOneLine_ofList, String.toList_ofList]
  rw [IsOneLine] at hone
  generalize (oneLine s).toList = cs at hone
  induction cs with
  | nil => exact ⟨by simp, by simp, rfl⟩
  | cons c cs ih =>
    obtain ⟨hc, hcs⟩ := List.forall_mem_cons.mp hone
    obtain ⟨hline, hquote, hstate⟩ := ih hcs
    rw [List.flatMap_cons, List.forall_mem_append, List.mem_append, not_or, List.foldl_append]
    split_ifs with hback hmark
    · exact ⟨⟨by decide, hline⟩, ⟨by decide, hquote⟩, hstate⟩
    · exact ⟨⟨by decide, hline⟩, ⟨by decide, hquote⟩, hstate⟩
    · have hstays := (staysInside_singleton hmark hback).1
      refine ⟨⟨by simpa using hc, hline⟩, ⟨by simpa using Ne.symm hmark, hquote⟩, ?_⟩
      rw [hstays, hstate]

/-- The method of a trigger is well-formed. -/
lemma wellFormed_toMethod {s : Scope} (hs : s.Named) {e : EntryPoint}
    (hname : e.methodName = triggerMethod (s.nameOf e.node)) (hbody : Stmt.AllWellFormed e.body) :
    e.toMethod.WellFormed := by
  obtain ⟨hline, hquote, hstate⟩ := isDescription_docstringText e.node.displayName
  have hdescription : IsDescription
      ("Logic triggered by " ++ docstringText e.node.displayName) := by
    rw [IsDescription, isOneLine_append, String.toList_append, List.mem_append, not_or,
      List.foldl_append]
    exact ⟨⟨by decide, hline⟩, ⟨by decide, hquote⟩, hstate⟩
  refine ⟨?_, by simp [EntryPoint.toMethod], List.cons_ne_nil _ _, hdescription, hbody⟩
  show IsIdentifier e.methodName
  rw [hname]
  exact isIdentifier_triggerMethod (hs e.node.id)

/-- The constructor of an event program is well-formed. -/
lemma allWellFormed_eventConstructor {s : Scope} (hs : s.Named) {declared : List Node}
    {body : List Stmt} (h : (eventConstructor s declared).outcome = .ok body) :
    body ≠ [] ∧ Stmt.AllWellFormed body := by
  simp only [eventConstructor, Audited.outcome_bind_eq_ok, Audited.outcome_pure,
    Except.ok.injEq] at h
  obtain ⟨assigns, hassigns, rfl⟩ := h
  refine ⟨orPass_ne_nil _, allWellFormed_orPass ?_⟩
  have hrest := allWellFormed_initialAssign hs isOneLine_of_mem_purposeRemark hassigns
  have hcomment : IsOneLine "UI State Variables (Mapped from Graph)" := by decide
  split_ifs
  · exact hrest
  · exact ⟨hcomment, hrest⟩

/-- **Every method of an event program is well-formed.** -/
lemma wellFormed_of_mem_eventProgram {limit : Nat} {g : Graph} {p : Program}
    (h : (eventProgram limit g).outcome = .ok p) :
    ∀ m ∈ p.constructor :: p.methods, m.WellFormed := by
  have hs := named_ofGraph g eventRules
  simp only [eventProgram, Audited.outcome_bind_eq_ok, Audited.outcome_pure, Except.ok.injEq] at h
  obtain ⟨-, -, initial, hinitial, entries, hentries, -, -, rfl⟩ := h
  obtain ⟨hne, hwell⟩ := allWellFormed_eventConstructor hs hinitial
  have hinit : IsIdentifier "__init__" := by decide
  have hstate : IsIdentifier "get_state" := by decide
  rw [List.forall_mem_cons, List.forall_mem_cons, List.forall_mem_map]
  refine ⟨⟨hinit, by simp, hne, hwell⟩, ⟨hstate, by simp, List.cons_ne_nil _ _, ?_, trivial⟩, ?_⟩
  · rw [Stmt.WellFormed, List.forall_mem_map]
    exact fun n _ => hs n.id
  · intro e he
    obtain ⟨hname, hbody⟩ := hs.wellFormed_of_mem_entryPoints hentries he
    exact wellFormed_toMethod hs hname hbody

/-- The statements that evaluate the roots of a step are well-formed. -/
lemma allWellFormed_rootStmts {s : Scope} (hs : s.Named) {limit : Nat} {roots : List Node}
    {body : List Stmt} (h : (rootStmts s limit roots).outcome = .ok body) :
    Stmt.AllWellFormed body := by
  simp only [rootStmts, Audited.outcome_bind_eq_ok, Audited.outcome_pure, Except.ok.injEq] at h
  obtain ⟨bodies, hbodies, rfl⟩ := h
  exact (hs.safeVisit_node limit []).allWellFormed_flatten hbodies

/-- The reward is well-formed. -/
lemma wellFormed_rewardExpr {s : Scope} (hs : s.Named) {e : Expr}
    (h : (rewardExpr s).outcome = .ok e) :
    e.WellFormed := by
  unfold rewardExpr at h
  split at h
  · cases h
    trivial
  · exact hs.wellFormed_inputExpr h trivial
  · rw [Audited.outcome_bind_eq_ok] at h
    obtain ⟨-, -, h⟩ := h
    exact hs.wellFormed_inputExpr h trivial

/-- The statements that add the entries of the action are well-formed. -/
lemma allWellFormed_actionStmts {s : Scope} (hs : s.Named) (actions : List Node) :
    Stmt.AllWellFormed (actionStmts s actions) := by
  rw [Stmt.allWellFormed_iff]
  intro t ht
  obtain ⟨i, hi, rfl⟩ := List.mem_mapIdx.mp ht
  exact hs _

/-- **Every method of a simulation is well-formed.** -/
lemma wellFormed_of_mem_simulationProgram {limit : Nat} {g : Graph} {p : Program}
    (h : (simulationProgram limit g).outcome = .ok p) :
    ∀ m ∈ p.constructor :: p.methods, m.WellFormed := by
  have hs := named_ofGraph g simulationRules
  simp only [simulationProgram, Audited.outcome_bind_eq_ok, Audited.outcome_pure,
    Except.ok.injEq] at h
  obtain ⟨-, -, initial, hinitial, reset, hreset, evaluation, hevaluation, reward, hreward, -, -,
    rfl⟩ := h
  have hfirst := allWellFormed_initialAssign hs (by simp) hinitial
  have hagain := Stmt.allWellFormed_iff.mp (allWellFormed_initialAssign hs (by simp) hreset)
  have hroots := Stmt.allWellFormed_iff.mp (allWellFormed_rootStmts hs hevaluation)
  have hactions :=
    Stmt.allWellFormed_iff.mp (allWellFormed_actionStmts hs (g.nodes.filter Node.takesAction))
  have hnames : ∀ name ∈ ["__init__", "get_observation", "reset", "step", "action"],
      IsIdentifier name := by decide
  simp only [List.forall_mem_cons] at hnames ⊢
  obtain ⟨hinit, hobservation, hresetName, hstep, haction, -⟩ := hnames
  refine ⟨⟨hinit, by simp, orPass_ne_nil _, allWellFormed_orPass hfirst⟩,
    ⟨hobservation, by simp, by simp, ?_, trivial⟩, ⟨hresetName, by simp, by simp, ?_⟩,
    ⟨hstep, by simpa using haction, by simp, ?_⟩, by simp⟩
  · rw [Stmt.WellFormed, List.forall_mem_map]
    exact fun n _ => hs n.id
  · rw [Stmt.allWellFormed_iff, List.forall_mem_append, List.forall_mem_singleton]
    exact ⟨hagain, trivial⟩
  · rw [Stmt.allWellFormed_iff, List.forall_mem_append, List.forall_mem_append,
      List.forall_mem_cons, List.forall_mem_singleton]
    exact ⟨⟨hactions, hroots⟩, wellFormed_rewardExpr hs hreward, trivial⟩

namespace Target

/-- The lines in front of the methods for a target: comments, what is imported, and the class. -/
def preamble (graphName : String) : Target → List String
  | event =>
    ["# NeuroFlow Auto-Generated Logic Engine", "# Graph: " ++ oneLine graphName,
      "# Do not edit by hand: regenerate from the graph editor.", "", "", "class NeuroFlowEnv:"]
  | simulation =>
    ["# NeuroFlow Auto-Generated Simulation Environment", "# Graph: " ++ oneLine graphName,
      "# Do not edit by hand: regenerate from the graph editor.", "import numpy as np", "", "",
      "class NeuroFlowSimEnv:"]

/-- The lines of a program for a target with the given methods. -/
def print (t : Target) (graphName : String) (first : Method) (others : List Method) : List String :=
  t.preamble graphName ++ (first.print ++ others.flatMap fun m => "" :: m.print)

/-- The lines of a program for a target are the fixed ones in front, and its methods. -/
lemma print_program {t : Target} {limit : Nat} {g : Graph} {p : Program}
    (h : (t.program limit g).outcome = .ok p) :
    p.print = t.print g.name p.constructor p.methods := by
  cases t with
  | event =>
    simp only [program, eventProgram, Audited.outcome_bind_eq_ok, Audited.outcome_pure,
      Except.ok.injEq] at h
    obtain ⟨-, -, initial, -, entries, -, -, -, rfl⟩ := h
    rfl
  | simulation =>
    simp only [program, simulationProgram, Audited.outcome_bind_eq_ok, Audited.outcome_pure,
      Except.ok.injEq] at h
    obtain ⟨-, -, initial, -, reset, -, evaluation, -, reward, -, -, -, rfl⟩ := h
    rfl

/-- Every method of a program for a target is well-formed. -/
lemma wellFormed_of_mem_program {t : Target} {limit : Nat} {g : Graph} {p : Program}
    (h : (t.program limit g).outcome = .ok p) : ∀ m ∈ p.constructor :: p.methods, m.WellFormed := by
  cases t with
  | event => exact wellFormed_of_mem_eventProgram h
  | simulation => exact wellFormed_of_mem_simulationProgram h

/-- Of the lines in front of the methods, only the second depends on the graph; the others are
clean. -/
lemma exists_preamble_eq (t : Target) (graphName : String) :
    ∃ title rest, t.preamble graphName = title :: ("# Graph: " ++ oneLine graphName) :: rest ∧
      IsClean title ∧ ∀ line ∈ rest, IsClean line := by
  cases t with
  | event =>
    rw [preamble]
    exact ⟨_, _, rfl, by decide, by decide⟩
  | simulation =>
    rw [preamble]
    exact ⟨_, _, rfl, by decide, by decide⟩

/-- The lines in front of the methods are one line each, whatever the name of the graph. -/
lemma isOneLine_of_mem_preamble (t : Target) (graphName : String) :
    ∀ line ∈ t.preamble graphName, IsOneLine line := by
  obtain ⟨title, rest, heq, htitle, hrest⟩ := t.exists_preamble_eq graphName
  have hname : IsOneLine ("# Graph: " ++ oneLine graphName) :=
    isOneLine_append.mpr ⟨by decide, isOneLine_oneLine graphName⟩
  rw [heq, List.forall_mem_cons, List.forall_mem_cons]
  exact ⟨htitle.isOneLine, hname, fun line hline => (hrest line hline).isOneLine⟩

/-- Every line of a program of well-formed methods is one line. -/
lemma isOneLine_of_mem_print {t : Target} {graphName : String} {first : Method}
    {others : List Method} (h : ∀ m ∈ first :: others, m.WellFormed) :
    ∀ line ∈ t.print graphName first others, IsOneLine line := by
  obtain ⟨hfirst, hothers⟩ := List.forall_mem_cons.mp h
  rw [print, List.forall_mem_append, List.forall_mem_append]
  refine ⟨t.isOneLine_of_mem_preamble graphName, Method.isOneLine_of_mem_print hfirst, ?_⟩
  intro line hline
  obtain ⟨m, hm, hline⟩ := List.mem_flatMap.mp hline
  rcases List.mem_cons.mp hline with rfl | hline
  · decide
  · exact Method.isOneLine_of_mem_print (hothers m hm) line hline

/-- **What is generated for a target is the print of a well-formed program.** Whatever the graph, if
a program is put together then its methods are well-formed, its text is exactly the fixed lines in
front and the print of the methods, and no line of it has a line end inside. -/
theorem text_eq_unlines_print_of_program (t : Target) (limit : Nat) (g : Graph) (p : Program)
    (h : (t.program limit g).outcome = .ok p) :
    (∀ m ∈ p.constructor :: p.methods, m.WellFormed) ∧
      p.text = unlines (t.print g.name p.constructor p.methods) ∧
      ∀ line ∈ t.print g.name p.constructor p.methods, IsOneLine line := by
  have hmethods := wellFormed_of_mem_program h
  refine ⟨hmethods, ?_, isOneLine_of_mem_print hmethods⟩
  rw [p.text_eq_unlines_print, print_program h]

/-- A trigger that leads to a choice, which leads back to itself and to a node that is not there;
texts hold line ends, quotes and keywords. -/
def hostileLoop : Graph where
  nodes := [
    { id := "go", kind := .action, customName := some "\"\"\"\nimport os" },
    { id := "fork", kind := .ifElse, cases := [⟨"c", .string "'\nimport os"⟩],
      cases_nodup := by decide },
    { id := "class", kind := .state, value := .string "\n'\"", purpose := some "first\nsecond" }]
  edges := [⟨"e1", "go", "trigger", "fork", "exec"⟩, ⟨"e2", "fork", "case_out_0", "fork", "exec"⟩,
    ⟨"e3", "fork", "default_branch", "gone", "exec"⟩, ⟨"e4", "gone", "out", "class", "set_value"⟩]
  name := "a\nb"
  nodes_nodup := by decide

/-- The event program of `hostileLoop` is put together, and is the print of a well-formed tree. -/
theorem text_hostileLoop : ∃ p, (Target.event.program 5 hostileLoop).outcome = .ok p ∧
    (∀ m ∈ p.constructor :: p.methods, m.WellFormed) ∧
    p.text = unlines (Target.event.print hostileLoop.name p.constructor p.methods) ∧
    ∀ line ∈ Target.event.print hostileLoop.name p.constructor p.methods, IsOneLine line :=
  ⟨_, rfl, text_eq_unlines_print_of_program .event 5 hostileLoop _ rfl⟩

end Target

end LogicGraph
