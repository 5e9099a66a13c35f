import LogicGraph.Proofs.Emission.Walk
import LogicGraph.Proofs.NameTable
import LogicGraph.Proofs.Program.Access

set_option relaxedAutoImplicit false
set_option autoImplicit false

/-!
# Variables and methods of a generated class

A generated class has a variable for every node that declares one, assigned in its constructor, and
methods that use these variables and call each other. This module shows that no method uses a
variable that the constructor does not assign, and says when a variable of an event program hides
one of its methods.

## Main definitions

* `LogicGraph.Target.nameOf` — the identifier of a node in the program for a target.
* `LogicGraph.Scope.Declares` — accesses to variables of nodes that declare one.

## Main results

* `LogicGraph.Scope.Emits.declares` — what the walk writes uses declared variables only.
* `LogicGraph.Target.filterMap_assignedName?_constructor` — the constructor assigns the declared
  variables, each once.
* `LogicGraph.Target.accesses_declared` — every access outside the constructor is to a declared
  variable, or calls a method.
* `LogicGraph.Target.unshadowed_iff_of_event` — the variables of an event program hide no method
  unless a trigger has one.
-/

namespace LogicGraph

open Text

/-- How the nodes of a program for a target are named. -/
def Target.rules : Target → NameRules
  | .event => eventRules
  | .simulation => simulationRules

/-- The identifier of a node in the program for a target. -/
def Target.nameOf (t : Target) (g : Graph) (n : Node) : String :=
  (NameTable.ofGraph g t.rules).name n.id

/-! ## Accesses of statements -/

/-- The accesses of statements are those of each of them. -/
lemma Stmt.accessesIn_eq_flatMap (body : List Stmt) :
    Stmt.accessesIn body = body.flatMap Stmt.accesses := by
  induction body with
  | nil => rfl
  | cons s rest ih => rw [Stmt.accessesIn, ih, List.flatMap_cons]

/-- The accesses of statements behind statements. -/
lemma Stmt.accessesIn_append (front behind : List Stmt) :
    Stmt.accessesIn (front ++ behind) = Stmt.accessesIn front ++ Stmt.accessesIn behind := by
  simp only [Stmt.accessesIn_eq_flatMap, List.flatMap_append]

/-- The accesses of clauses are those of the subject and of each body. -/
lemma Stmt.accessesInClauses_eq_flatMap (subject : Expr) (clauses : List (Literal × List Stmt)) :
    Stmt.accessesInClauses subject clauses = clauses.flatMap fun c => subject.accesses ++
      Stmt.accessesIn c.2 := by
  induction clauses with
  | nil => rfl
  | cons c rest ih => rw [Stmt.accessesInClauses, ih, List.flatMap_cons]

/-- A body that is not empty has the same accesses. -/
lemma Stmt.accessesIn_orPass (body : List Stmt) :
    Stmt.accessesIn (orPass body) = Stmt.accessesIn body := by
  unfold orPass
  split_ifs with h
  · rw [List.isEmpty_iff.mp h]
    rfl
  · rfl

/-- The value of a port accesses what its sources access. -/
lemma FanIn.accesses_reduceTerms_subset {policy : FanIn} {default : Term} {ts : List Term} :
    (policy.reduceTerms default ts).accesses ⊆ default.accesses ++ ts.flatMap Term.accesses := by
  match ts with
  | [] => exact List.subset_append_left _ _
  | [t] => exact List.subset_append_of_subset_right _ (by simp [reduceTerms, reduce, Expr.accesses])
  | t :: u :: rest =>
    cases policy with
    | first =>
      exact List.subset_append_of_subset_right _ (by simp [reduceTerms, reduce, Expr.accesses])
    | sum => exact List.subset_append_right _ _

namespace Scope

variable {s : Scope}

/-- All accesses are to variables of nodes that declare one. -/
def Declares (s : Scope) (as : List Access) : Prop :=
  ∀ a ∈ as, ∃ n ∈ s.graph.nodes, n.declaresVariable = true ∧ a = .member (s.nameOf n)

/-- The variable of a node that declares one. -/
lemma declares_member {n : Node} (hn : n ∈ s.graph.nodes) (hd : n.declaresVariable = true) :
    s.Declares [.member (s.nameOf n)] :=
  List.forall_mem_singleton.mpr ⟨n, hn, hd, rfl⟩

/-- The variables of nodes that declare one. -/
lemma declares_map_member {nodes : List Node}
    (h : ∀ n ∈ nodes, n ∈ s.graph.nodes ∧ n.declaresVariable = true) :
    s.Declares ((nodes.map s.nameOf).map .member) := by
  rw [List.map_map]
  exact List.forall_mem_map.mpr fun n hn => ⟨n, (h n hn).1, (h n hn).2, rfl⟩

/-- A kind whose value is set from outside holds a value. -/
lemma holdsValue_of_isAssignable {k : Kind} (h : k.isAssignable = true) : k.holdsValue = true := by
  revert h
  cases k <;> decide

/-- A node with a value declares a variable. -/
lemma declaresVariable_of_holdsValue {n : Node} (h : n.kind.holdsValue = true) :
    n.declaresVariable = true := by
  rw [Node.declaresVariable, h]
  rfl

/-- The value of a port reads declared variables only. -/
lemma declares_reduceTerms {n : Node} {port : String} {policy : FanIn} {default : Term}
    (hdefault : default.accesses = []) :
    s.Declares (policy.reduceTerms default (s.sourceTerms n port)).accesses := by
  intro a ha
  have hmem := FanIn.accesses_reduceTerms_subset ha
  rw [hdefault, List.nil_append, sourceTerms, List.flatMap_map] at hmem
  obtain ⟨m, hm, hread⟩ := List.mem_flatMap.mp hmem
  obtain ⟨e, -, hnode⟩ := List.mem_filterMap.mp hm
  unfold valueTerm at hread
  split_ifs at hread with hdeclares
  · exact ⟨m, (Graph.node?_eq_some_iff.mp hnode).1, hdeclares, List.mem_singleton.mp hread⟩
  · simp [Term.accesses] at hread
  · simp [Term.accesses] at hread

/-- **What the walk writes uses declared variables only.**

**Proof sketch.** By induction on what the walk can write. A node that is assigned has a kind that
holds a value, and the terms on the right read sources that declare a variable, or are constants. -/
lemma Emits.declares {body : List Stmt} (h : s.Emits body) : s.Declares (Stmt.accessesIn body) := by
  have hassign : ∀ {n : Node} {rhs : Rhs}, n ∈ s.graph.nodes → n.kind.holdsValue = true →
      s.Declares rhs.accesses →
      s.Declares (Stmt.accessesIn [.assign (s.nameOf n) rhs none]) := by
    intro n rhs hn hk hrhs
    rw [Stmt.accessesIn_eq_flatMap, List.flatMap_singleton]
    exact List.forall_mem_append.mpr ⟨declares_member hn (declaresVariable_of_holdsValue hk), hrhs⟩
  induction h with
  | nil => exact List.forall_mem_nil _
  | append _ _ hfront hbehind =>
    rw [Stmt.accessesIn_append]
    exact List.forall_mem_append.mpr ⟨hfront, hbehind⟩
  | cycle => exact List.forall_mem_nil _
  | assignment hn hk _ =>
    exact hassign hn (holdsValue_of_isAssignable hk) (declares_reduceTerms rfl)
  | arithmetic hn hk =>
    exact hassign hn (by rw [hk]; rfl)
      (List.forall_mem_append.mpr ⟨declares_reduceTerms rfl, declares_reduceTerms rfl⟩)
  | comparison hn hk =>
    exact hassign hn (by rw [hk]; rfl)
      (List.forall_mem_append.mpr ⟨declares_reduceTerms rfl, declares_reduceTerms rfl⟩)
  | choice _ _ _ _ hbodies hotherwise =>
    rw [Stmt.accessesIn_eq_flatMap, List.flatMap_singleton, Stmt.accesses, Stmt.accessesIn_orPass,
      Stmt.accessesInClauses_eq_flatMap, List.flatMap_map]
    refine List.forall_mem_append.mpr ⟨?_, hotherwise⟩
    intro a ha
    obtain ⟨c, hc, ha⟩ := List.mem_flatMap.mp ha
    rw [Stmt.accessesIn_orPass] at ha
    exact (List.mem_append.mp ha).elim (declares_reduceTerms rfl a) (hbodies c hc a)

end Scope

/-! ## First values -/

/-- The assignments of first values belong to the given nodes, in order. -/
lemma forall₂_initialAssign {s : Scope} {remark : Node → Option String} {nodes : List Node}
    {assigns : List Stmt}
    (h : (Audited.mapList (initialAssign s remark) nodes).outcome = .ok assigns) :
    List.Forall₂ (fun n t => ∃ l, t = .assign (s.nameOf n) (.literal l) (remark n))
      nodes assigns := by
  refine (Audited.outcome_mapList_eq_ok.mp h).imp ?_
  intro n t hout
  simp only [initialAssign, Audited.outcome_bind_eq_ok, Audited.outcome_pure,
    Except.ok.injEq] at hout
  obtain ⟨l, -, rfl⟩ := hout
  exact ⟨l, rfl⟩

/-- The assignments of first values access the variables of the given nodes. -/
lemma accessesIn_initialAssign {s : Scope} {remark : Node → Option String} {nodes : List Node}
    {assigns : List Stmt}
    (h : (Audited.mapList (initialAssign s remark) nodes).outcome = .ok assigns) :
    Stmt.accessesIn assigns = (nodes.map s.nameOf).map .member := by
  have hrel := forall₂_initialAssign h
  clear h
  induction hrel with
  | nil => rfl
  | cons hhead _ ih =>
    obtain ⟨l, rfl⟩ := hhead
    rw [Stmt.accessesIn, ih]
    rfl

/-- The lines of the assignments of first values assign the variables of the given nodes, each once
and in order. -/
lemma filterMap_assignedName?_initialAssign {s : Scope} (hs : s.Named)
    {remark : Node → Option String} {nodes : List Node} {assigns : List Stmt} {d : Nat}
    (h : (Audited.mapList (initialAssign s remark) nodes).outcome = .ok assigns) :
    (Stmt.printAll d assigns).filterMap assignedName? = nodes.map s.nameOf := by
  have hrel := forall₂_initialAssign h
  clear h
  induction hrel with
  | nil => rfl
  | @cons n t nodes assigns hhead _ ih =>
    obtain ⟨l, rfl⟩ := hhead
    have hname : assignedName? (indented d (assignText (s.nameOf n) (.literal l) (remark n))) =
        some (s.nameOf n) :=
      (assignedName?_indented d _).trans (assignedName?_assignText (hs n.id) _ _)
    rw [Stmt.printAll, Stmt.print, List.singleton_append, List.filterMap_cons_some hname, ih,
      List.map_cons]

/-- A body that is not empty has the same assignments among its lines. -/
lemma filterMap_assignedName?_orPass (d : Nat) (body : List Stmt) :
    (Stmt.printAll d (orPass body)).filterMap assignedName? =
      (Stmt.printAll d body).filterMap assignedName? := by
  unfold orPass
  split_ifs with h
  · have hpass : assignedName? (indented d "pass") = none := by
      rw [assignedName?_indented]
      rfl
    rw [List.isEmpty_iff.mp h]
    exact List.filterMap_cons_none hpass
  · rfl

namespace Target

/-- **The constructor assigns the declared variables**, each once and in the order of the nodes, and
nothing else. -/
lemma filterMap_assignedName?_constructor {t : Target} {limit : Nat} {g : Graph} {p : Program}
    (h : (t.program limit g).outcome = .ok p) :
    p.constructor.print.filterMap assignedName? =
      (g.nodes.filter Node.declaresVariable).map (t.nameOf g) := by
  -- the line with the name of the constructor assigns nothing
  have hhead : ∀ body, (Method.mk "__init__" [] body).print.filterMap assignedName? =
      (Stmt.printAll 2 body).filterMap assignedName? := by
    intro body
    have hnone : assignedName? (indented 1 "def __init__(self):") = none := by
      rw [assignedName?_indented]
      rfl
    exact List.filterMap_cons_none hnone
  cases t with
  | event =>
    simp only [program, eventProgram, eventConstructor, Audited.outcome_bind_eq_ok,
      Audited.outcome_pure, Except.ok.injEq] at h
    obtain ⟨-, -, initial, ⟨assigns, hassigns, rfl⟩, entries, -, -, -, rfl⟩ := h
    have hlines :=
      filterMap_assignedName?_initialAssign (d := 2) (named_ofGraph g eventRules) hassigns
    rw [hhead, filterMap_assignedName?_orPass]
    split_ifs
    · exact hlines
    · have hcomment : assignedName?
          (indented 2 ("# " ++ "UI State Variables (Mapped from Graph)")) = none := by
        rw [assignedName?_indented]
        rfl
      rw [List.singleton_append, Stmt.printAll, Stmt.print, List.singleton_append,
        List.filterMap_cons_none hcomment]
      exact hlines
  | simulation =>
    simp only [program, simulationProgram, Audited.outcome_bind_eq_ok, Audited.outcome_pure,
      Except.ok.injEq] at h
    obtain ⟨-, -, initial, hinitial, reset, -, evaluation, -, reward, -, -, -, rfl⟩ := h
    rw [hhead, filterMap_assignedName?_orPass]
    exact filterMap_assignedName?_initialAssign (d := 2) (named_ofGraph g simulationRules) hinitial

end Target

/-! ## Methods -/

/-- The methods of an event program use declared variables only, and call nothing. -/
lemma declares_of_mem_eventProgram {limit : Nat} {g : Graph} {p : Program}
    (h : (eventProgram limit g).outcome = .ok p) :
    ∀ m ∈ p.methods, Scope.Declares ⟨g, NameTable.ofGraph g eventRules⟩
      (Stmt.accessesIn m.body) := by
  simp only [eventProgram, Audited.outcome_bind_eq_ok, Audited.outcome_pure, Except.ok.injEq] at h
  obtain ⟨-, -, initial, -, entries, hentries, -, -, rfl⟩ := h
  rw [List.forall_mem_cons, List.forall_mem_map]
  refine ⟨?_, ?_⟩
  · rw [Stmt.accessesIn_eq_flatMap, List.flatMap_singleton]
    exact Scope.declares_map_member fun n hn => List.mem_filter.mp hn
  · intro e he
    obtain ⟨body, hbody, hemits⟩ := Scope.emits_of_mem_entryPoints hentries he
    have haccesses : Stmt.accessesIn e.toMethod.body = Stmt.accessesIn body := by
      rw [EntryPoint.toMethod, hbody, Stmt.accessesIn, Stmt.accessesIn_orPass]
      rfl
    rw [haccesses]
    exact hemits.declares

/-- What a step of a simulation does uses declared variables only. -/
lemma declares_step {s : Scope} {limit : Nat} {evaluation : List Stmt} {reward : Expr}
    (hevaluation : (rootStmts s limit s.graph.stepRoots).outcome = .ok evaluation)
    (hreward : (rewardExpr s).outcome = .ok reward) :
    s.Declares (Stmt.accessesIn (actionStmts s (s.graph.nodes.filter Node.takesAction)) ++
      Stmt.accessesIn evaluation ++ reward.accesses) := by
  refine List.forall_mem_append.mpr ⟨List.forall_mem_append.mpr ⟨?_, ?_⟩, ?_⟩
  · intro a ha
    rw [Stmt.accessesIn_eq_flatMap, List.mem_flatMap] at ha
    obtain ⟨t, ht, ha⟩ := ha
    obtain ⟨i, hi, rfl⟩ := List.mem_mapIdx.mp ht
    obtain ⟨hn, haction⟩ := List.mem_filter.mp (List.getElem_mem hi)
    exact ⟨_, hn, by simp [Node.declaresVariable, haction], List.mem_singleton.mp ha⟩
  · exact (Scope.emits_rootStmts hevaluation).declares
  · rcases Scope.rewardExpr_eq_ok hreward with rfl | ⟨n, -, rfl⟩
    · exact List.forall_mem_nil _
    · exact Scope.declares_reduceTerms rfl

/-- The methods of a simulation use declared variables only, and call nothing but the method that
observes. -/
lemma declares_or_calls_of_mem_simulationProgram {limit : Nat} {g : Graph} {p : Program}
    (h : (simulationProgram limit g).outcome = .ok p) : ∀ m ∈ p.methods, ∃ as,
      Scope.Declares ⟨g, NameTable.ofGraph g simulationRules⟩ as ∧
      Stmt.accessesIn m.body ⊆ as ++ [.call "get_observation"] := by
  simp only [simulationProgram, Audited.outcome_bind_eq_ok, Audited.outcome_pure,
    Except.ok.injEq] at h
  obtain ⟨-, -, initial, -, reset, hreset, evaluation, hevaluation, reward, hreward, -, -, rfl⟩ := h
  have hobserved : ∀ n ∈ g.nodes.filter Node.isObserved, n ∈ g.nodes ∧
      n.declaresVariable = true := by
    intro n hn
    obtain ⟨hmem, hflag⟩ := List.mem_filter.mp hn
    exact ⟨hmem, by simp [Node.declaresVariable, hflag]⟩
  have hresettable : ∀ n ∈ g.nodes.filter (·.kind.isResettable), n ∈ g.nodes ∧
      n.declaresVariable = true := by
    intro n hn
    obtain ⟨hmem, hkind⟩ := List.mem_filter.mp hn
    exact ⟨hmem, Node.declaresVariable_of_isResettable hkind⟩
  simp only [List.forall_mem_cons]
  refine ⟨⟨_, Scope.declares_map_member hobserved, ?_⟩,
    ⟨_, Scope.declares_map_member hresettable, ?_⟩, ⟨_, declares_step hevaluation hreward, ?_⟩, by
      simp⟩
  · rw [Stmt.accessesIn_eq_flatMap, List.flatMap_singleton]
    exact List.subset_append_left _ _
  · rw [Stmt.accessesIn_append, accessesIn_initialAssign hreset]
    exact List.Subset.refl _
  · simp only [Stmt.accessesIn_append, List.append_assoc]
    exact List.Subset.refl _

namespace Target

variable {t : Target} {limit : Nat} {g : Graph} {p : Program}

/-- Every access of a method is to a declared variable, or is a call of a method of the class. -/
lemma declared_or_called (h : (t.program limit g).outcome = .ok p) :
    ∀ m ∈ p.methods, ∀ a ∈ Stmt.accessesIn m.body,
      (∃ n ∈ g.nodes, n.declaresVariable = true ∧ a = .member (t.nameOf g n)) ∨
        ∃ callee ∈ p.methods, a = .call callee.name := by
  intro m hm a ha
  cases t with
  | event => exact .inl (declares_of_mem_eventProgram h m hm a ha)
  | simulation =>
    obtain ⟨as, hdeclares, hsub⟩ := declares_or_calls_of_mem_simulationProgram h m hm
    rcases List.mem_append.mp (hsub ha) with hmem | hcall
    · exact .inl (hdeclares a hmem)
    -- the method that observes is the first one of a simulation
    · simp only [program, simulationProgram, Audited.outcome_bind_eq_ok, Audited.outcome_pure,
        Except.ok.injEq] at h
      obtain ⟨-, -, initial, -, reset, -, evaluation, -, reward, -, -, -, rfl⟩ := h
      exact .inr ⟨_, List.mem_cons_self, List.mem_singleton.mp hcall⟩

/-- The declared variables of a graph have distinct names. -/
lemma nodup_map_nameOf (t : Target) (g : Graph) :
    ((g.nodes.filter Node.declaresVariable).map (t.nameOf g)).Nodup :=
  (NameTable.nodup_map_name g t.rules).sublist (List.filter_sublist.map _)

/-- **No method uses a variable that is not declared.** The constructor of a class assigns the
variables of the nodes that declare one, each once and all of them different. Every variable that a
line of another method reads or writes is among them, and every other access is a call of a method
of the class. -/
theorem accesses_declared (t : Target) (limit : Nat) (g : Graph) (p : Program)
    (h : (t.program limit g).outcome = .ok p) :
    p.text = unlines (t.print g.name p.constructor p.methods) ∧
    p.constructor.print.filterMap assignedName? =
      (g.nodes.filter Node.declaresVariable).map (t.nameOf g) ∧
    (p.constructor.print.filterMap assignedName?).Nodup ∧
    ∀ m ∈ p.methods, ∀ line ∈ m.print, ∀ a ∈ accesses line,
      (∃ x, a = .member x ∧ (p.constructor.print.filterMap assignedName?).count x = 1) ∨
        ∃ callee ∈ p.methods, a = .call callee.name := by
  have hassigned := filterMap_assignedName?_constructor h
  have hnodup := t.nodup_map_nameOf g
  refine ⟨by rw [p.text_eq_unlines_print, print_program h], hassigned, hassigned ▸ hnodup, ?_⟩
  intro m hm line hline a ha
  have hbody : a ∈ Stmt.accessesIn m.body := by
    rw [← Method.flatMap_accesses_print (wellFormed_of_mem_program h m (List.mem_cons_of_mem _ hm))]
    exact List.mem_flatMap.mpr ⟨line, hline, ha⟩
  refine (declared_or_called h m hm a hbody).imp_left ?_
  rintro ⟨n, hn, hd, rfl⟩
  refine ⟨t.nameOf g n, rfl, ?_⟩
  rw [hassigned]
  exact List.count_eq_one_of_mem hnodup (List.mem_map_of_mem (List.mem_filter.mpr ⟨hn, hd⟩))

/-- Two nodes that ask for one name, one of them taken from the action; a choice that leads to
itself and to a node whose source is not there; a reward that reads a trigger without a variable. -/
def sharedNames : Graph where
  nodes := [
    { id := "n1", kind := .player, customName := some "score", value := .string "low" },
    { id := "n2", kind := .action, customName := some "score", value := .bool true,
      isAction := some true },
    { id := "n3", kind := .ifElse, cases := [⟨"c", .bool false⟩], cases_nodup := by decide },
    { id := "n4", kind := .math, value := .string "self.hidden", operation := some "/" },
    { id := "n5", kind := .nav },
    { id := "n6", kind := .reward }]
  edges := [⟨"e1", "n2", "out", "n3", "condition"⟩, ⟨"e2", "n3", "case_out_0", "n4", "exec"⟩,
    ⟨"e3", "n3", "default_branch", "n3", "exec"⟩, ⟨"e4", "gone", "out", "n4", "a"⟩,
    ⟨"e5", "n1", "out", "n4", "b"⟩, ⟨"e6", "n5", "trigger", "n6", "value"⟩,
    ⟨"e7", "n4", "result", "n6", "value"⟩]
  nodes_nodup := by decide

/-- The simulation of `sharedNames` is put together, and uses what its constructor assigns. -/
theorem accesses_declared_sharedNames :
    ∃ p, (Target.simulation.program 5 sharedNames).outcome = .ok p ∧
    p.text = unlines (Target.simulation.print sharedNames.name p.constructor p.methods) ∧
    p.constructor.print.filterMap assignedName? =
      (sharedNames.nodes.filter Node.declaresVariable).map (Target.simulation.nameOf sharedNames) ∧
    (p.constructor.print.filterMap assignedName?).Nodup ∧
    ∀ m ∈ p.methods, ∀ line ∈ m.print, ∀ a ∈ accesses line,
      (∃ x, a = .member x ∧ (p.constructor.print.filterMap assignedName?).count x = 1) ∨
        ∃ callee ∈ p.methods, a = .call callee.name :=
  ⟨_, rfl, accesses_declared .simulation 5 sharedNames _ rfl⟩

/-! ## Variables that hide methods -/

/-- The methods of an event program are the one that returns the variables and one for every
trigger. -/
lemma map_name_methods_event (h : (Target.event.program limit g).outcome = .ok p) :
    p.methods.map Method.name =
      "get_state" :: (g.nodesOf [.action, .nav]).map fun n =>
        triggerMethod (Target.event.nameOf g n) := by
  simp only [program, eventProgram, Audited.outcome_bind_eq_ok, Audited.outcome_pure,
    Except.ok.injEq] at h
  obtain ⟨-, -, initial, -, entries, hentries, -, -, rfl⟩ := h
  rw [List.map_cons, List.map_map]
  congr 1
  refine List.forall₂_eq_eq_eq ▸ (List.rel_map ?_ (Audited.outcome_mapList_eq_ok.mp hentries).flip)
  intro e n hentry
  simp only [Scope.entryPoint, Audited.outcome_bind_eq_ok, Audited.outcome_pure,
    Except.ok.injEq] at hentry
  obtain ⟨body, -, rfl⟩ := hentry
  rfl

/-- The name of the method that returns the variables is no name of a node. -/
lemma nameOf_event_ne_get_state {n : Node} (hn : n ∈ g.nodes) :
    Target.event.nameOf g n ≠ "get_state" := by
  have hreserved : Target.event.nameOf g n ∉ ["get_state"] :=
    NameTable.name_not_mem_reserved (r := eventRules) hn
  exact fun heq => hreserved (List.mem_singleton.mpr heq)

/-- A node that is no trigger has another name than the method of any trigger. -/
lemma nameOf_event_ne_triggerMethod {n m : Node} (hn : n ∈ g.nodes) (hm : m ∈ g.nodes)
    (hnk : n.kind.isTrigger = false) (hmk : m.kind.isTrigger = true) :
    Target.event.nameOf g n ≠ triggerMethod (Target.event.nameOf g m) := by
  have hkinds : ∀ k : Kind, k ∈ eventRules.handlerKinds ↔ k.isTrigger = true := by
    intro k
    cases k <;> decide
  have hnot : n.kind ∉ eventRules.handlerKinds := by
    rw [hkinds, hnk]
    decide
  exact NameTable.name_ne_handlerName rfl hm hn ((hkinds _).mpr hmk) hnot

/-- **A variable of an event program hides a method exactly if a trigger has a variable of that
name.** The methods are those that follow the constructor: `get_state`, which returns the variables,
and the handlers of the triggers. No variable is called like `get_state`, and the variable of a node
that is no trigger is called like neither `get_state` nor a handler. So all of these methods can be
called if and only if no trigger with a variable of its own has the name of the handler of a
trigger. -/
theorem unshadowed_iff_of_event (limit : Nat) (g : Graph) (p : Program)
    (h : (Target.event.program limit g).outcome = .ok p) :
    p.text = unlines (Target.event.print g.name p.constructor p.methods) ∧
    "get_state" ∉ p.constructor.print.filterMap assignedName? ∧
    (∀ n ∈ g.nodes, n.kind.isTrigger = false → ∀ m ∈ p.methods, m.name ≠ Target.event.nameOf g n) ∧
    ((∀ x ∈ p.constructor.print.filterMap assignedName?, ∀ m ∈ p.methods, m.name ≠ x) ↔
      ∀ a ∈ g.nodes, ∀ b ∈ g.nodes, a.kind.isTrigger = true → b.kind.isTrigger = true →
        b.declaresVariable = true →
        Target.event.nameOf g b ≠ triggerMethod (Target.event.nameOf g a)) := by
  have hassigned := filterMap_assignedName?_constructor h
  have htrigger : ∀ n, n ∈ g.nodesOf [.action, .nav] ↔ n ∈ g.nodes ∧ n.kind.isTrigger = true := by
    intro n
    rw [Graph.nodesOf, List.mem_filter]
    cases n.kind <;> simp [Kind.isTrigger]
  -- methods have the fixed name and those made from the names of triggers, and no others
  have hmethod : ∀ x, (∀ m ∈ p.methods, m.name ≠ x) ↔
      x ≠ "get_state" ∧ ∀ a ∈ g.nodes, a.kind.isTrigger = true →
        x ≠ triggerMethod (Target.event.nameOf g a) := by
    intro x
    have hnames : (∀ m ∈ p.methods, m.name ≠ x) ↔ ∀ name ∈ p.methods.map Method.name, name ≠ x := by
      rw [List.forall_mem_map]
    rw [hnames, map_name_methods_event h, List.forall_mem_cons, List.forall_mem_map]
    simp only [htrigger, and_imp, ne_comm]
  have hother : ∀ n ∈ g.nodes, n.kind.isTrigger = false →
      ∀ m ∈ p.methods, m.name ≠ Target.event.nameOf g n :=
    fun n hn hkind => (hmethod _).mpr
      ⟨nameOf_event_ne_get_state hn, fun a ha hak => nameOf_event_ne_triggerMethod hn ha hkind hak⟩
  refine ⟨by rw [p.text_eq_unlines_print, print_program h], ?_, hother, ?_⟩
  · rw [hassigned]
    intro hmem
    obtain ⟨n, hn, hname⟩ := List.mem_map.mp hmem
    exact nameOf_event_ne_get_state (List.mem_of_mem_filter hn) hname
  · rw [hassigned, List.forall_mem_map]
    constructor
    · intro hfree a ha b hb hak _ hd
      exact ((hmethod _).mp (hfree b (List.mem_filter.mpr ⟨hb, hd⟩))).2 a ha hak
    · intro hfree n hn
      obtain ⟨hn, hd⟩ := List.mem_filter.mp hn
      cases hkind : n.kind.isTrigger with
      | false => exact hother n hn hkind
      | true =>
        exact (hmethod _).mpr
          ⟨nameOf_event_ne_get_state hn, fun a ha hak => hfree a ha n hn hak hkind hd⟩

/-- A trigger, and a node of the given kind that is observed and has the name of the trigger's
method. -/
def namedLikeMethod (kind : Kind) : Graph where
  nodes := [
    { id := "a", kind := .action, customName := some "go" },
    { id := "b", kind := kind, customName := some "on_go_trigger", value := .string "shown",
      isObservation := some true }]
  nodes_nodup := by simp

/-- A display that has the name of the trigger's method gives it up. -/
theorem unshadowed_state : ∃ p, (Target.event.program 2 (namedLikeMethod .state)).outcome = .ok p ∧
    ∀ x ∈ p.constructor.print.filterMap assignedName?, ∀ m ∈ p.methods, m.name ≠ x :=
  ⟨_, rfl, (unshadowed_iff_of_event 2 (namedLikeMethod .state) _ rfl).2.2.2.mpr (by decide)⟩

/-- A trigger that has the name of the other trigger's method keeps it, and its variable hides the
method. -/
theorem shadowed_trigger : ∃ p, (Target.event.program 2 (namedLikeMethod .action)).outcome = .ok p ∧
    "on_go_trigger" ∈ p.constructor.print.filterMap assignedName? ∧
    ∃ m ∈ p.methods, m.name = "on_go_trigger" :=
  ⟨_, rfl, by decide, by decide⟩

end Target

end LogicGraph
