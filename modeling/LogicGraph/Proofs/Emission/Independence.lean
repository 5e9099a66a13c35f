import LogicGraph.Proofs.Emission.Alike
import LogicGraph.Proofs.Emission.Walk
import LogicGraph.Proofs.Naming

set_option relaxedAutoImplicit false
set_option autoImplicit false

/-!
# What a program does not depend on

Of the edges of a graph a program shows only which nodes the ports lead to and are fed from, and in
which order. Of the ids of nodes it shows nothing, if the user has given names to all nodes.

## Main definitions

* `LogicGraph.Graph.IsRenaming` — other ids for the nodes of a graph, which keep apart what was
  apart.
* `LogicGraph.Graph.renamed` — the graph with these ids.

## Main results

* `LogicGraph.Target.outcome_program_eq_of_wiring` — the program depends on the nodes at the ports
  alone.
* `LogicGraph.Target.outcome_program_renamed` — the program does not depend on ids.
-/

namespace LogicGraph

/-! ## Edges -/

/-- A node is like itself. -/
lemma Node.Alike.refl (t : Target) (n : Node) : n.Alike t n :=
  ⟨rfl, rfl, rfl, rfl, rfl, rfl, rfl, fun _ => ⟨rfl, rfl⟩⟩

/-- Graphs with one name and the same nodes that are wired alike are alike. -/
lemma Graph.WiredAlike.alike {g h : Graph} (hw : g.WiredAlike h) (hname : g.name = h.name)
    (hnodes : g.nodes = h.nodes) (t : Target) : g.Alike t h where
  toWiredAlike := hw
  name := hname
  nodes := hnodes ▸ List.forall₂_same.mpr fun n _ => Node.Alike.refl t n

namespace Target

/-- **The program depends on the nodes at the ports alone.** Let two graphs have the same name and
nodes. If the body ports of every node lead to the same nodes, and its input ports are fed from the
same nodes, then both graphs have the same program for every target, or none for the same reason. In
particular this is so if the edges of one graph are those of the other one, except that edges with
an end that is no node are left out, edges have other ids, and neighbours that share no port have
changed places any number of times. The limit on the length of a way does not come in: it is not
reached if it is at least the number of nodes. -/
theorem outcome_program_eq_of_wiring (g h : Graph) (hname : g.name = h.name)
    (hnodes : g.nodes = h.nodes) :
    ((∀ n ∈ g.nodes, ∀ port ∈ n.bodyPorts, g.targetNodes n.id port = h.targetNodes n.id port) →
      (∀ n ∈ g.nodes, ∀ port ∈ n.kind.portsIn .input, g.sources n.id port = h.sources n.id port) →
      ∀ (t : Target) (limit : Nat), (t.program limit g).outcome = (t.program limit h).outcome) ∧
    (Relation.ReflTransGen g.EdgeStep g.edges h.edges →
      ∀ (t : Target) (limit : Nat), (t.program limit g).outcome = (t.program limit h).outcome) ∧
    ∀ (t : Target) (limit : Nat), g.nodes.length ≤ limit →
      (t.program limit g).outcome ≠ .error .tooDeep := by
  refine ⟨?_, ?_, fun t limit => t.outcome_program_ne_tooDeep⟩
  · intro htargets hsources t limit
    have hwired := Graph.wiredAlike_of_eq hnodes htargets hsources
    exact (hwired.alike hname hnodes t).outcome_program limit
  · intro hsteps t limit
    -- the other graph is the first one with its edges
    have hh : { g with edges := h.edges } = h := by
      cases g
      cases h
      simp only at hname hnodes
      subst hname hnodes
      rfl
    have hw := Graph.wiredAlike_of_edgeSteps hsteps
    rw [hh] at hw
    exact (hw.alike hname hnodes t).outcome_program limit

/-- A choice that is fed from a node and from nowhere, and that leads to a node and to nowhere. -/
def looseEnds : Graph where
  nodes := [
    { id := "n1", kind := .cell, value := .string "low" },
    { id := "n2", kind := .ifElse, cases := [⟨"c", .string "low"⟩], cases_nodup := by decide },
    { id := "n3", kind := .math, value := .string "none" }]
  edges := [⟨"e1", "n2", "case_out_0", "gone", "exec"⟩, ⟨"e2", "n2", "case_out_0", "n3", "exec"⟩,
    ⟨"e3", "gone", "get", "n2", "condition"⟩, ⟨"e4", "n1", "get", "n2", "input_val"⟩]
  nodes_nodup := by decide

/-- The same choice without loose ends, with the edges in another order and one of them under
another id. -/
def tidyEnds : Graph :=
  { looseEnds with edges :=
    [⟨"e4", "n1", "get", "n2", "input_val"⟩, ⟨"e5", "n2", "case_out_0", "n3", "exec"⟩] }

/-- `looseEnds` and `tidyEnds` have the same nodes at their ports, are a few changes apart, and have
the same programs. -/
theorem outcome_program_tidyEnds :
    (∀ n ∈ looseEnds.nodes, ∀ port ∈ n.bodyPorts,
      looseEnds.targetNodes n.id port = tidyEnds.targetNodes n.id port) ∧
    (∀ n ∈ looseEnds.nodes, ∀ port ∈ n.kind.portsIn .input, looseEnds.sources n.id port =
      tidyEnds.sources n.id port) ∧
    Relation.ReflTransGen looseEnds.EdgeStep looseEnds.edges tidyEnds.edges ∧
    (∃ p, (Target.event.program 3 looseEnds).outcome = .ok p ∧
      (Target.event.program 3 tidyEnds).outcome = .ok p) ∧
    ∃ p, (Target.simulation.program 3 looseEnds).outcome = .ok p ∧
      (Target.simulation.program 3 tidyEnds).outcome = .ok p := by
  have htargets : ∀ n ∈ looseEnds.nodes, ∀ port ∈ n.bodyPorts,
      looseEnds.targetNodes n.id port = tidyEnds.targetNodes n.id port := by decide
  have hsources : ∀ n ∈ looseEnds.nodes, ∀ port ∈ n.kind.portsIn .input,
      looseEnds.sources n.id port = tidyEnds.sources n.id port := by decide
  have hsteps : Relation.ReflTransGen looseEnds.EdgeStep looseEnds.edges tidyEnds.edges := by
    have hfirst : looseEnds.EdgeStep looseEnds.edges looseEnds.edges.tail :=
      @Graph.EdgeStep.drop _ [] _ _ (.inr rfl)
    have hsecond : looseEnds.EdgeStep looseEnds.edges.tail
        [⟨"e2", "n2", "case_out_0", "n3", "exec"⟩, ⟨"e4", "n1", "get", "n2", "input_val"⟩] :=
      @Graph.EdgeStep.drop _ [_] _ _ (.inl rfl)
    have hthird : looseEnds.EdgeStep
        [⟨"e2", "n2", "case_out_0", "n3", "exec"⟩, ⟨"e4", "n1", "get", "n2", "input_val"⟩]
        [⟨"e4", "n1", "get", "n2", "input_val"⟩, ⟨"e2", "n2", "case_out_0", "n3", "exec"⟩] :=
      @Graph.EdgeStep.swap _ [] [] _ _ (by simp [Edge.SharesSource]) (by simp [Edge.SharesTarget])
    have hfourth : looseEnds.EdgeStep
        [⟨"e4", "n1", "get", "n2", "input_val"⟩, ⟨"e2", "n2", "case_out_0", "n3", "exec"⟩]
          tidyEnds.edges :=
      @Graph.EdgeStep.relabel _ [_] [] _ "e5"
    exact .head hfirst (.head hsecond (.head hthird (.single hfourth)))
  have hsame := outcome_program_eq_of_wiring looseEnds tidyEnds rfl rfl
  exact ⟨htargets, hsources, hsteps, ⟨_, rfl, (hsame.1 htargets hsources .event 3).symm.trans rfl⟩,
    _, rfl, (hsame.2.1 hsteps .simulation 3).symm.trans rfl⟩

end Target

/-! ## Ids -/

/-- The node with another id. -/
def Node.renamed (ρ : String → String) (n : Node) : Node :=
  { n with id := ρ n.id }

/-- The edge with other ids at its ends. -/
def Edge.renamed (ρ : String → String) (e : Edge) : Edge :=
  { e with source := ρ e.source, target := ρ e.target }

namespace Graph

variable {g : Graph} {ρ : String → String}

/-- Other ids for the nodes of a graph and the ends of its edges: nodes get different ones, and an
end that is no node gets the id of no node. -/
structure IsRenaming (g : Graph) (ρ : String → String) : Prop where
  /-- Different nodes get different ids. -/
  nodes : ∀ m ∈ g.nodes, ∀ n ∈ g.nodes, ρ m.id = ρ n.id → m.id = n.id
  /-- An end that is no node stays none. -/
  ends : ∀ e ∈ g.edges, ∀ id ∈ [e.source, e.target], g.node? id = none →
    ∀ n ∈ g.nodes, ρ id ≠ ρ n.id

/-- The graph with other ids. -/
def renamed (g : Graph) (ρ : String → String) (hρ : g.IsRenaming ρ) : Graph where
  nodes := g.nodes.map (Node.renamed ρ)
  edges := g.edges.map (Edge.renamed ρ)
  name := g.name
  nodes_nodup := by
    rw [List.map_map]
    refine List.Nodup.map_on ?_ (List.Nodup.of_map Node.id g.nodes_nodup)
    intro m hm n hn heq
    exact eq_of_id_eq hm hn (hρ.nodes m hm n hn heq)

namespace IsRenaming

variable (hρ : g.IsRenaming ρ)

include hρ

/-- The end of an edge gets the id of a node only if it had it before. -/
lemma eq_iff {e : Edge} (he : e ∈ g.edges) {id : String} (hid : id ∈ [e.source, e.target])
    {n : Node} (hn : n ∈ g.nodes) : ρ id = ρ n.id ↔ id = n.id := by
  refine ⟨fun heq => ?_, fun heq => heq ▸ rfl⟩
  cases hnode : g.node? id with
  | none => exact absurd heq (hρ.ends e he id hid hnode n hn)
  | some m =>
    obtain ⟨hm, rfl⟩ := node?_eq_some_iff.mp hnode
    exact hρ.nodes m hm n hn heq

/-- The end of an edge leads to the same node. -/
lemma node?_renamed {e : Edge} (he : e ∈ g.edges) {id : String} (hid : id ∈ [e.source, e.target]) :
    (g.renamed ρ hρ).node? (ρ id) = (g.node? id).map (Node.renamed ρ) := by
  cases hnode : g.node? id with
  | some n =>
    obtain ⟨hn, rfl⟩ := node?_eq_some_iff.mp hnode
    exact node?_eq_some_iff.mpr ⟨List.mem_map_of_mem hn, rfl⟩
  | none =>
    refine Option.eq_none_iff_forall_ne_some.mpr fun m hm => ?_
    obtain ⟨hmem, hmid⟩ := node?_eq_some_iff.mp hm
    obtain ⟨n, hn, rfl⟩ := List.mem_map.mp hmem
    exact hρ.ends e he id hid hnode n hn hmid.symm

/-- A node is paired with itself under its other id. -/
lemma pairs_renamed {n : Node} (hn : n ∈ g.nodes) : g.Pairs (g.renamed ρ hρ) n (n.renamed ρ) := by
  obtain ⟨i, hi⟩ := List.mem_iff_getElem?.mp hn
  refine List.mem_iff_getElem?.mpr ⟨i, List.getElem?_zip_eq_some.mpr ⟨hi, ?_⟩⟩
  rw [renamed, List.getElem?_map, hi]
  rfl

/-- A node is paired with itself only. -/
lemma eq_renamed {m n : Node} (hp : g.Pairs (g.renamed ρ hρ) m n) : n = m.renamed ρ :=
  hp.right_unique (hρ.pairs_renamed hp.left_mem) rfl

/-- A port leads to the same nodes. -/
lemma targetNodes_renamed {n : Node} (hn : n ∈ g.nodes) (port : String) :
    (g.renamed ρ hρ).targetNodes (ρ n.id) port =
      (g.targetNodes n.id port).map (Node.renamed ρ) := by
  rw [targetNodes_eq_filterMap, targetNodes_eq_filterMap, List.map_filterMap, renamed,
    List.filterMap_map]
  refine List.filterMap_congr fun e he => ?_
  have hsource := hρ.eq_iff he List.mem_cons_self hn
  have htarget := hρ.node?_renamed he (List.mem_cons_of_mem _ List.mem_cons_self)
  simp only [Function.comp_apply, Edge.renamed, hsource]
  split_ifs
  · exact htarget
  · rfl

/-- A port is fed from the same nodes. -/
lemma sources_renamed {n : Node} (hn : n ∈ g.nodes) (port : String) :
    (g.renamed ρ hρ).sources (ρ n.id) port = (g.sources n.id port).map (Node.renamed ρ) := by
  rw [sources_eq_filterMap, sources_eq_filterMap, List.map_filterMap, renamed, List.filterMap_map]
  refine List.filterMap_congr fun e he => ?_
  have htarget := hρ.eq_iff he (List.mem_cons_of_mem _ List.mem_cons_self) hn
  have hsource := hρ.node?_renamed he List.mem_cons_self
  simp only [Function.comp_apply, Edge.renamed, htarget]
  split_ifs
  · exact hsource
  · rfl

/-- Nodes are paired with themselves under their other ids. -/
lemma forall₂_renamed {ns : List Node} (hns : ∀ n ∈ ns, n ∈ g.nodes) :
    List.Forall₂ (g.Pairs (g.renamed ρ hρ)) ns (ns.map (Node.renamed ρ)) :=
  List.forall₂_map_right_iff.mpr (List.forall₂_same.mpr fun n hn => hρ.pairs_renamed (hns n hn))

/-- **A graph is wired like itself under other ids.** -/
lemma wiredAlike : g.WiredAlike (g.renamed ρ hρ) where
  kinds := List.forall₂_map_right_iff.mpr (List.forall₂_same.mpr fun _ _ => ⟨rfl, rfl⟩)
  targets := by
    intro m n hp port _
    obtain rfl := hρ.eq_renamed hp
    rw [show (m.renamed ρ).id = ρ m.id from rfl, hρ.targetNodes_renamed hp.left_mem]
    exact hρ.forall₂_renamed fun a ha => (mem_targetNodes.mp ha).1
  sources := by
    intro m n hp port _
    obtain rfl := hρ.eq_renamed hp
    rw [show (m.renamed ρ).id = ρ m.id from rfl, hρ.sources_renamed hp.left_mem]
    exact hρ.forall₂_renamed fun a ha => mem_nodes_of_mem_sources ha

end IsRenaming

end Graph

/-- A node with a name is like itself under another id. -/
lemma Node.alike_renamed {n : Node} {name : String} (hname : n.customName = some name)
    (hne : name ≠ "") (ρ : String → String) (t : Target) : n.Alike t (n.renamed ρ) := by
  have hchosen : nonempty? (some name) = some name := by simp [nonempty?, hne]
  -- a text that is not empty leaves something of itself in an identifier, so the id is not fallen
  -- back upon
  have hbase : ∀ m : Node, m.customName = some name → m.baseName = Text.cleaned name := by
    intro m hm
    rw [Node.baseName, Node.rawName, hm, hchosen, Option.getD_some, Text.identifier,
      if_pos (Text.cleaned_ne_empty hne)]
  have hdisplay : ∀ m : Node, m.customName = some name → m.displayName = name := by
    intro m hm
    rw [Node.displayName, hm, hchosen, Option.getD_some]
  refine ⟨rfl, ?_, rfl, rfl, rfl, rfl, rfl, fun _ => ⟨?_, rfl⟩⟩
  · rw [hbase n hname, hbase (n.renamed ρ) hname]
  · rw [hdisplay n hname, hdisplay (n.renamed ρ) hname]

namespace Target

/-- **The program does not depend on ids** if every node has a name that the user chose: other ids
for the nodes, and for the ends of edges along with them, give the same program for every target and
limit, or none for the same reason. -/
theorem outcome_program_renamed (g : Graph) (ρ : String → String) (hρ : g.IsRenaming ρ)
    (hnamed : ∀ n ∈ g.nodes, ∃ name, n.customName = some name ∧ name ≠ "") (t : Target)
    (limit : Nat) :
    (t.program limit (g.renamed ρ hρ)).outcome = (t.program limit g).outcome := by
  have halike : g.Alike t (g.renamed ρ hρ) := {
    toWiredAlike := hρ.wiredAlike
    name := rfl
    nodes := by
      refine List.forall₂_map_right_iff.mpr (List.forall₂_same.mpr fun n hn => ?_)
      obtain ⟨name, hname, hne⟩ := hnamed n hn
      exact Node.alike_renamed hname hne ρ t }
  exact (halike.outcome_program limit).symm

/-- Two nodes that ask for one name, of which the first leads to the second one and to nowhere. -/
def namedChain : Graph where
  nodes := [
    { id := "a", kind := .action, customName := some "go" },
    { id := "b", kind := .state, customName := some "Go!", value := .string "low" },
    { id := "c", kind := .cell, customName := some "go_", value := .string "high" }]
  edges := [⟨"e1", "a", "trigger", "b", "set_value"⟩, ⟨"e2", "a", "trigger", "gone", "set"⟩,
    ⟨"e3", "c", "get", "b", "set_value"⟩]
  nodes_nodup := by decide

/-- Each id of `namedChain` for another one of them. -/
def rotateIds (id : String) : String :=
  if id = "a" then "b" else if id = "b" then "c" else if id = "c" then "a" else id

/-- The programs of `namedChain` are the same if the ids of its nodes change places. -/
theorem outcome_program_rotateIds : ∃ hρ : namedChain.IsRenaming rotateIds,
    (∀ n ∈ namedChain.nodes, ∃ name, n.customName = some name ∧ name ≠ "") ∧
    namedChain.renamed rotateIds hρ ≠ namedChain ∧
    ∃ p, (Target.event.program 3 namedChain).outcome = .ok p ∧
      (Target.event.program 3 (namedChain.renamed rotateIds hρ)).outcome = .ok p := by
  have hρ : namedChain.IsRenaming rotateIds := ⟨by decide, by decide⟩
  have hnamed : ∀ n ∈ namedChain.nodes, ∃ name, n.customName = some name ∧ name ≠ "" := by
    simp [namedChain]
  have hids : namedChain.nodes.map (Node.renamed rotateIds) ≠ namedChain.nodes := by decide
  exact ⟨hρ, hnamed, fun heq => hids (congrArg Graph.nodes heq), _, rfl,
    (outcome_program_renamed namedChain rotateIds hρ hnamed .event 3).trans rfl⟩

end Target

end LogicGraph
