import Mathlib.Data.List.Zip
import LogicGraph.Proofs.Audited
import LogicGraph.Proofs.Graph.StepRoots

set_option relaxedAutoImplicit false
set_option autoImplicit false

/-!
# Graphs that are wired alike

Two graphs with as many nodes may differ in the ids of their nodes and in their edges, and still be
wired alike: nodes at the same place have the same ports, which lead to, and are fed from, nodes at
the same places. Then one node lies beneath another in one graph exactly if this is so in the other
one, and a step of a simulation has the same roots.

The module closes with changes to the edges of a graph that leave it wired alike.

## Main definitions

* `LogicGraph.Graph.targetNodes` — the nodes that a port leads to.
* `LogicGraph.Graph.Pairs` — nodes at the same place of two graphs.
* `LogicGraph.Graph.WiredAlike` — graphs that are wired alike.
* `LogicGraph.Graph.EdgeStep` — a change to the edges that no port notices.

## Main results

* `LogicGraph.Graph.WiredAlike.reaches`, `LogicGraph.Graph.WiredAlike.matched_beneath` — the same
  lies beneath.
* `LogicGraph.Graph.WiredAlike.forall₂_stepRoots` — the roots of a step are at the same places.
* `LogicGraph.Graph.wiredAlike_of_edgeSteps` — any sequence of changes leaves a graph wired alike.

## Design

Edges to ids that no node has are not compared. The search beneath a node does collect such ids, so
two searches agree only about the ids of nodes; `LogicGraph.Graph.Matched` says so of any two lists
of ids. It is what the search, the greedy choice of roots and the way of a walk are compared by.
-/

namespace LogicGraph

namespace Graph

/-- The nodes that a port leads to, in the order of the edges. -/
def targetNodes (g : Graph) (id port : String) : List Node :=
  (g.targets id port).filterMap g.node?

/-- Two nodes that stand at the same place of their graphs. -/
def Pairs (g h : Graph) (m n : Node) : Prop :=
  (m, n) ∈ g.nodes.zip h.nodes

/-- Two lists hold the ids of nodes at the same places; what else they hold does not count. -/
def Matched (g h : Graph) (ids ids' : List String) : Prop :=
  ∀ m n, g.Pairs h m n → (m.id ∈ ids ↔ n.id ∈ ids')

/-- Two graphs that are wired alike. -/
structure WiredAlike (g h : Graph) : Prop where
  /-- Nodes at the same places have the same kinds and body ports. -/
  kinds : List.Forall₂ (fun m n => m.kind = n.kind ∧ m.bodyPorts = n.bodyPorts) g.nodes h.nodes
  /-- Body ports lead to nodes at the same places. -/
  targets : ∀ m n, g.Pairs h m n → ∀ port ∈ m.bodyPorts,
    List.Forall₂ (g.Pairs h) (g.targetNodes m.id port) (h.targetNodes n.id port)
  /-- Input ports are fed from nodes at the same places. -/
  sources : ∀ m n, g.Pairs h m n → ∀ port ∈ m.kind.portsIn .input,
    List.Forall₂ (g.Pairs h) (g.sources m.id port) (h.sources n.id port)

variable {g h : Graph} {m m' n n' : Node}

/-- A node is found under its id. -/
lemma mem_targetNodes {id port : String} :
    n ∈ g.targetNodes id port ↔ n ∈ g.nodes ∧ n.id ∈ g.targets id port := by
  simp only [targetNodes, List.mem_filterMap, node?_eq_some_iff]
  constructor
  · rintro ⟨id', hid, hn, rfl⟩
    exact ⟨hn, hid⟩
  · rintro ⟨hn, hid⟩
    exact ⟨n.id, hid, hn, rfl⟩

/-- What feeds a port is a node. -/
lemma mem_nodes_of_mem_sources {id port : String} (hn : n ∈ g.sources id port) : n ∈ g.nodes := by
  obtain ⟨e, -, hsource⟩ := List.mem_filterMap.mp hn
  exact (node?_eq_some_iff.mp hsource).1

/-- An id that no node has is not the id of a node. -/
lemma ne_id_of_node?_eq_none {id : String} (hn : n ∈ g.nodes) (hnone : g.node? id = none) :
    id ≠ n.id := by
  rintro rfl
  rw [node?_eq_some_iff.mpr ⟨hn, rfl⟩] at hnone
  exact Option.some_ne_none n hnone

namespace Pairs

/-- The node on the left is a node of the first graph. -/
lemma left_mem (hp : g.Pairs h m n) : m ∈ g.nodes :=
  (List.of_mem_zip hp).1

/-- The node on the right is a node of the second graph. -/
lemma right_mem (hp : g.Pairs h m n) : n ∈ h.nodes :=
  (List.of_mem_zip hp).2

/-- Places may be compared the other way around. -/
lemma symm (hp : g.Pairs h m n) : h.Pairs g n m := by
  unfold Pairs
  rw [← List.zip_swap]
  exact List.mem_map_of_mem hp

/-- A node is paired with one node only. -/
lemma right_unique (hp : g.Pairs h m n) (hp' : g.Pairs h m' n') (hid : m.id = m'.id) : n = n' := by
  obtain ⟨i, hi⟩ := List.mem_iff_getElem?.mp hp
  obtain ⟨j, hj⟩ := List.mem_iff_getElem?.mp hp'
  obtain ⟨hm, hn⟩ := List.getElem?_zip_eq_some.mp hi
  obtain ⟨hm', hn'⟩ := List.getElem?_zip_eq_some.mp hj
  have hplaces : (g.nodes.map Node.id)[i]? = (g.nodes.map Node.id)[j]? := by
    rw [List.getElem?_map, List.getElem?_map, hm, hm', Option.map_some, Option.map_some, hid]
  have hbound : i < (g.nodes.map Node.id).length := by
    rw [List.length_map]
    exact (List.getElem?_eq_some_iff.mp hm).1
  obtain rfl := (List.getElem?_inj hbound g.nodes_nodup).mp hplaces
  exact Option.some.inj (hn.symm.trans hn')

/-- Ids of paired nodes are equal on both sides or on none. -/
lemma id_eq_iff (hp : g.Pairs h m n) (hp' : g.Pairs h m' n') : m.id = m'.id ↔ n.id = n'.id :=
  ⟨fun hid => congrArg Node.id (hp.right_unique hp' hid),
    fun hid => congrArg Node.id (hp.symm.right_unique hp'.symm hid)⟩

end Pairs

/-! ## Lists of ids that match -/

namespace Matched

variable {ids ids' more more' : List String}

/-- No ids match no ids. -/
lemma nil : Matched g h [] [] := by
  intro m n _
  simp

/-- The ids of paired nodes in front of lists that match. -/
lemma cons (hp : g.Pairs h m n) (hids : Matched g h ids ids') :
    Matched g h (m.id :: ids) (n.id :: ids') := by
  intro a b hab
  rw [List.mem_cons, List.mem_cons, hids a b hab, hab.id_eq_iff hp]

/-- Lists that match behind lists that match. -/
lemma append (hids : Matched g h ids ids') (hmore : Matched g h more more') :
    Matched g h (ids ++ more) (ids' ++ more') := by
  intro a b hab
  rw [List.mem_append, List.mem_append, hids a b hab, hmore a b hab]

/-- The ids of paired nodes match. -/
lemma map_id {ms ns : List Node} (hrel : List.Forall₂ (g.Pairs h) ms ns) :
    Matched g h (ms.map Node.id) (ns.map Node.id) := by
  induction hrel with
  | nil => exact nil
  | cons hhead _ ih => exact cons hhead ih

end Matched

/-! ## What lies beneath -/

namespace WiredAlike

/-- Graphs may be compared the other way around. -/
lemma symm (hw : g.WiredAlike h) : h.WiredAlike g where
  kinds := hw.kinds.flip.imp fun _ _ hk => ⟨hk.1.symm, hk.2.symm⟩
  targets := by
    intro n m hp port hport
    rw [← ((List.forall₂_iff_zip.mp hw.kinds).2 hp.symm).2] at hport
    exact (hw.targets m n hp.symm port hport).flip.imp fun _ _ => Pairs.symm
  sources := by
    intro n m hp port hport
    rw [← ((List.forall₂_iff_zip.mp hw.kinds).2 hp.symm).1] at hport
    exact (hw.sources m n hp.symm port hport).flip.imp fun _ _ => Pairs.symm

variable (hw : g.WiredAlike h)

include hw

/-- All nodes are paired, in order. -/
lemma pairs : List.Forall₂ (g.Pairs h) g.nodes h.nodes :=
  List.forall₂_iff_zip.mpr ⟨hw.kinds.length_eq, id⟩

/-- Paired nodes have one kind. -/
lemma kind_eq (hp : g.Pairs h m n) : m.kind = n.kind :=
  ((List.forall₂_iff_zip.mp hw.kinds).2 hp).1

/-- Paired nodes have the same body ports. -/
lemma bodyPorts_eq (hp : g.Pairs h m n) : m.bodyPorts = n.bodyPorts :=
  ((List.forall₂_iff_zip.mp hw.kinds).2 hp).2

/-- Every node of the first graph is paired with a node of the second one. -/
lemma exists_pair (hm : m ∈ g.nodes) : ∃ n, g.Pairs h m n :=
  let ⟨n, _, hp⟩ := exists_of_forall₂_of_mem_left hw.pairs hm
  ⟨n, hp⟩

/-- The nodes that are picked by their kinds are paired. -/
lemma forall₂_filter_kind (f : Kind → Bool) :
    List.Forall₂ (g.Pairs h) (g.nodes.filter fun n => f n.kind)
      (h.nodes.filter fun n => f n.kind) := by
  refine List.rel_filter ?_ hw.pairs
  intro m n hp
  simp only [hw.kind_eq hp]

/-- A step along a body port has its like in the second graph. -/
lemma leads (hp : g.Pairs h m n) (hp' : g.Pairs h m' n') (hl : g.Leads m.id m'.id) :
    h.Leads n.id n'.id := by
  obtain ⟨a, ha, port, hport, htarget⟩ := hl.exists_node
  obtain ⟨hag, haid⟩ := node?_eq_some_iff.mp ha
  obtain rfl := eq_of_id_eq hag hp.left_mem haid
  -- the target is a node, so it is compared, and what it is compared with can only be `n'`
  obtain ⟨b, hb, hpair⟩ := exists_of_forall₂_of_mem_left (hw.targets a n hp port hport)
    (mem_targetNodes.mpr ⟨hp'.left_mem, htarget⟩)
  obtain rfl := hp'.right_unique hpair rfl
  unfold Leads bodyTargets
  rw [node?_eq_some_iff.mpr ⟨hp.right_mem, rfl⟩]
  exact List.mem_flatMap.mpr ⟨port, hw.bodyPorts_eq hp ▸ hport, (mem_targetNodes.mp hb).2⟩

/-- **What is reached in the first graph has its like in the second one.**

**Proof sketch.** By induction on the steps. Whatever leads on is a node, so every id on the way but
the last is that of a node and is paired. -/
lemma reaches (hp : g.Pairs h m n) (hp' : g.Pairs h m' n') (hr : g.Reaches m.id m'.id) :
    h.Reaches n.id n'.id := by
  have hgen : ∀ b, g.Reaches m.id b → ∀ m' n', g.Pairs h m' n' → m'.id = b →
      h.Reaches n.id n'.id := by
    intro b hb
    induction hb with
    | single hl =>
      rintro m' n' hp' rfl
      exact .single (hw.leads hp hp' hl)
    | tail _ hl ih =>
      rintro m' n' hp' rfl
      obtain ⟨c, hc, -⟩ := hl.exists_node
      obtain ⟨hcg, rfl⟩ := node?_eq_some_iff.mp hc
      obtain ⟨d, hpair⟩ := hw.exists_pair hcg
      exact .tail (ih c d hpair rfl) (hw.leads hpair hp' hl)
  exact hgen m'.id hr m' n' hp' rfl

/-- What is beneath ids in the first graph has its like beneath ids that match. -/
lemma mem_beneath {ids ids' : List String} (hids : Matched g h ids ids') (hp : g.Pairs h m n)
    (hm : m.id ∈ g.beneath ids) : n.id ∈ h.beneath ids' := by
  obtain ⟨a, ha, hr⟩ := (mem_beneath_iff g ids m.id).mp hm
  -- the id above leads on, so it is that of a node and has its like among the other ids
  obtain ⟨b, hl, -⟩ := Relation.TransGen.head'_iff.mp hr
  obtain ⟨c, hc, -⟩ := hl.exists_node
  obtain ⟨hcg, rfl⟩ := node?_eq_some_iff.mp hc
  obtain ⟨d, hpair⟩ := hw.exists_pair hcg
  exact (mem_beneath_iff h ids' n.id).mpr ⟨d.id, (hids c d hpair).mp ha, hw.reaches hpair hp hr⟩

/-- What lies beneath ids that match, matches. -/
lemma matched_beneath {ids ids' : List String} (hids : Matched g h ids ids') :
    Matched g h (g.beneath ids) (h.beneath ids') := by
  intro m n hp
  exact ⟨hw.mem_beneath hids hp,
    hw.symm.mem_beneath (fun b a hba => (hids a b hba.symm).symm) hp.symm⟩

/-! ## Roots of a step -/

/-- The greedy round takes paired nodes if what is covered matches. -/
lemma forall₂_promote {ms ns : List Node} (hrel : List.Forall₂ (g.Pairs h) ms ns)
    {covered covered' : List String} (hcovered : Matched g h covered covered') :
    List.Forall₂ (g.Pairs h) (g.promote covered ms) (h.promote covered' ns) := by
  induction hrel generalizing covered covered' with
  | nil => exact .nil
  | @cons m n _ _ hp _ ih =>
    rw [promote, promote]
    by_cases hm : m.id ∈ covered
    · rw [if_pos hm, if_pos ((hcovered m n hp).mp hm)]
      exact ih hcovered
    · -- both nodes are taken, and what is covered from now on matches again
      rw [if_neg hm, if_neg fun hn => hm ((hcovered m n hp).mpr hn)]
      exact .cons hp (ih ((hw.matched_beneath (.cons hp .nil)).append hcovered |>.cons hp))

/-- The free roots are paired. -/
lemma forall₂_freeRoots : List.Forall₂ (g.Pairs h) g.freeRoots h.freeRoots := by
  have hchoices :=
    hw.matched_beneath (.map_id (hw.forall₂_filter_kind fun k => [Kind.ifElse].contains k))
  refine List.rel_filter ?_ (hw.forall₂_filter_kind Kind.isEvaluated)
  intro m n hp
  have hiff : m.id ∈ g.beneathChoices ↔ n.id ∈ h.beneathChoices := hchoices m n hp
  simp only [List.contains_eq_mem, Bool.not_eq_true', decide_eq_false_iff_not, hiff]

/-- **The roots of a step stand at the same places.** -/
lemma forall₂_stepRoots : List.Forall₂ (g.Pairs h) g.stepRoots h.stepRoots := by
  have hfree := Matched.map_id hw.forall₂_freeRoots
  have hpromoted := Matched.map_id
    (hw.forall₂_promote (hw.forall₂_filter_kind Kind.isEvaluated)
      (hfree.append (hw.matched_beneath hfree)))
  rw [stepRoots_eq_filter, stepRoots_eq_filter]
  refine List.rel_filter ?_ hw.pairs
  intro m n hp
  simp only [chosenRoots, List.map_append, List.contains_eq_mem, decide_eq_true_eq]
  exact hfree.append hpromoted m n hp

end WiredAlike

/-! ## Graphs with the same nodes -/

/-- In graphs with the same nodes every node is paired with itself. -/
lemma pairs_self (hnodes : g.nodes = h.nodes) (hn : n ∈ g.nodes) : g.Pairs h n n := by
  obtain ⟨i, hi⟩ := List.mem_iff_getElem?.mp hn
  exact List.mem_iff_getElem?.mpr ⟨i, List.getElem?_zip_eq_some.mpr ⟨hi, hnodes ▸ hi⟩⟩

/-- In graphs with the same nodes a node is paired with itself only. -/
lemma Pairs.eq (hnodes : g.nodes = h.nodes) (hp : g.Pairs h m n) : m = n :=
  (pairs_self hnodes hp.left_mem).right_unique hp rfl

/-- Graphs with the same nodes are wired alike if their ports lead to, and are fed from, the same
nodes. -/
lemma wiredAlike_of_eq (hnodes : g.nodes = h.nodes)
    (htargets : ∀ n ∈ g.nodes, ∀ port ∈ n.bodyPorts, g.targetNodes n.id port =
      h.targetNodes n.id port)
    (hsources : ∀ n ∈ g.nodes, ∀ port ∈ n.kind.portsIn .input, g.sources n.id port =
      h.sources n.id port) :
    g.WiredAlike h where
  kinds := hnodes ▸ List.forall₂_same.mpr fun _ _ => ⟨rfl, rfl⟩
  targets := by
    intro m n hp port hport
    rw [← hp.eq hnodes, ← htargets m hp.left_mem port hport]
    exact List.forall₂_same.mpr fun a ha => pairs_self hnodes (mem_targetNodes.mp ha).1
  sources := by
    intro m n hp port hport
    rw [← hp.eq hnodes, ← hsources m hp.left_mem port hport]
    exact List.forall₂_same.mpr fun a ha => pairs_self hnodes (mem_nodes_of_mem_sources ha)

end Graph

/-! ## Changes to the edges -/

/-- Two edges leave one port. -/
def Edge.SharesSource (e e' : Edge) : Prop :=
  e.source = e'.source ∧ e.sourceHandle = e'.sourceHandle

/-- Two edges enter one port, under one of its names each. -/
def Edge.SharesTarget (e e' : Edge) : Prop :=
  e.target = e'.target ∧ canonicalPort e.targetHandle = canonicalPort e'.targetHandle

/-- Names of one port have one name in use. -/
lemma canonicalPort_eq_of_mem_portAliases {port p q : String} (hp : p ∈ portAliases port)
    (hq : q ∈ portAliases port) :
    canonicalPort p = canonicalPort q := by
  unfold portAliases at hp hq
  split_ifs at hp hq
  · rcases List.mem_pair.mp hp with rfl | rfl <;> rcases List.mem_pair.mp hq with rfl | rfl <;> rfl
  · rw [List.mem_singleton.mp hp, List.mem_singleton.mp hq]

namespace Graph

/-- A change to the edges of a graph that no port of a node notices. -/
inductive EdgeStep (g : Graph) : List Edge → List Edge → Prop where
  /-- An edge with an end that is no node is taken away. -/
  | drop {front behind : List Edge} {e : Edge} : g.node? e.source = none ∨ g.node? e.target = none →
      g.EdgeStep (front ++ e :: behind) (front ++ behind)
  /-- An edge gets another id. -/
  | relabel {front behind : List Edge} (e : Edge) (id : String) :
      g.EdgeStep (front ++ e :: behind) (front ++ { e with id } :: behind)
  /-- Two neighbours that share no port change places. -/
  | swap {front behind : List Edge} {e e' : Edge} : ¬ e.SharesSource e' → ¬ e.SharesTarget e' →
      g.EdgeStep (front ++ e :: e' :: behind) (front ++ e' :: e :: behind)

variable {g : Graph}

/-- What is read off the edges one by one stays the same in a change, if it is read off no edge with
an end that is no node, does not depend on ids, and of two edges that share no port is read off one
at most. -/
lemma EdgeStep.filterMap_eq {α : Type} {read : Edge → Option α} {es es' : List Edge}
    (hstep : g.EdgeStep es es')
    (hdrop : ∀ e, g.node? e.source = none ∨ g.node? e.target = none → read e = none)
    (hlabel : ∀ e id, read { e with id } = read e)
    (hport : ∀ e e', ¬ e.SharesSource e' → ¬ e.SharesTarget e' → read e = none ∨ read e' = none) :
    es.filterMap read = es'.filterMap read := by
  cases hstep with
  | drop hends =>
    rw [List.filterMap_append, List.filterMap_append, List.filterMap_cons_none (hdrop _ hends)]
  | relabel e id =>
    have hread := hlabel e id
    simp only [List.filterMap_append, List.filterMap_cons, hread]
  | @swap _ _ e e' hsource htarget =>
    rw [List.filterMap_append, List.filterMap_append]
    rcases hport e e' hsource htarget with hnone | hnone <;>
      simp only [List.filterMap_cons, hnone]

/-- The nodes that a port leads to, read off the edges one by one. -/
lemma targetNodes_eq_filterMap (g : Graph) (id port : String) :
    g.targetNodes id port =
      g.edges.filterMap fun e => if e.source = id ∧
        e.sourceHandle = port then g.node? e.target else none := by
  rw [targetNodes, targets, outgoing, List.filterMap_map, List.filterMap_filter]
  simp

/-- The nodes that a port is fed from, read off the edges one by one. -/
lemma sources_eq_filterMap (g : Graph) (id port : String) :
    g.sources id port =
      g.edges.filterMap fun e => if e.target = id ∧
        e.targetHandle ∈ portAliases port then g.node? e.source else none := by
  rw [sources, wiredEdges, incoming, List.filterMap_filter]
  simp

/-- A change to the edges keeps the nodes that the ports of a node lead to. -/
lemma EdgeStep.targetNodes_eq {es es' : List Edge} (hstep : g.EdgeStep es es') {n : Node}
    (hn : n ∈ g.nodes) (port : String) :
    { g with edges := es }.targetNodes n.id port =
      { g with edges := es' }.targetNodes n.id port := by
  rw [targetNodes_eq_filterMap, targetNodes_eq_filterMap]
  refine hstep.filterMap_eq ?_ (fun _ _ => rfl) ?_
  · rintro e (hnone | hnone)
    · exact if_neg fun he => ne_id_of_node?_eq_none hn hnone he.1
    · exact ite_eq_right_iff.mpr fun _ => hnone
  · intro e e' hsource _
    by_cases he : e.source = n.id ∧ e.sourceHandle = port
    · exact .inr (if_neg fun he' => hsource ⟨he.1.trans he'.1.symm, he.2.trans he'.2.symm⟩)
    · exact .inl (if_neg he)

/-- A change to the edges keeps the nodes that the ports of a node are fed from. -/
lemma EdgeStep.sources_eq {es es' : List Edge} (hstep : g.EdgeStep es es') {n : Node}
    (hn : n ∈ g.nodes) (port : String) :
    { g with edges := es }.sources n.id port = { g with edges := es' }.sources n.id port := by
  rw [sources_eq_filterMap, sources_eq_filterMap]
  refine hstep.filterMap_eq ?_ (fun _ _ => rfl) ?_
  · rintro e (hnone | hnone)
    · exact ite_eq_right_iff.mpr fun _ => hnone
    · exact if_neg fun he => ne_id_of_node?_eq_none hn hnone he.1
  · intro e e' _ htarget
    by_cases he : e.target = n.id ∧ e.targetHandle ∈ portAliases port
    · refine .inr (if_neg fun he' => htarget ⟨he.1.trans he'.1.symm, ?_⟩)
      exact canonicalPort_eq_of_mem_portAliases he.2 he'.2
    · exact .inl (if_neg he)

/-- **Any sequence of changes to the edges leaves a graph wired alike.** -/
lemma wiredAlike_of_edgeSteps {es : List Edge}
    (hsteps : Relation.ReflTransGen g.EdgeStep g.edges es) :
    g.WiredAlike { g with edges := es } := by
  have hports : ∀ n ∈ g.nodes, ∀ port, g.targetNodes n.id port =
      { g with edges := es }.targetNodes n.id port ∧
      g.sources n.id port = { g with edges := es }.sources n.id port := by
    intro n hn port
    induction hsteps with
    | refl => exact ⟨rfl, rfl⟩
    | tail _ hstep ih =>
      exact ⟨ih.1.trans (hstep.targetNodes_eq hn port), ih.2.trans (hstep.sources_eq hn port)⟩
  exact wiredAlike_of_eq rfl (fun n hn port _ => (hports n hn port).1) fun n hn port _ =>
    (hports n hn port).2

end Graph

end LogicGraph
