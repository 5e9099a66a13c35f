import LogicGraph.Proofs.Compile
import LogicGraph.Proofs.Emission.Alike

set_option relaxedAutoImplicit false
set_option autoImplicit false

/-!
# What only the editor shows

A node carries some data for the editor alone: whether it is shown as locked or bypassed, and where
it stands on the canvas. Compiling reads none of it. A simulation does not read the label and the
purpose of a node either; an event program shows both, in the description of a method and in the
remark behind a first value.

## Main definitions

* `LogicGraph.Node.withoutLooks`, `LogicGraph.Node.withoutWords` — a node without such data.
* `LogicGraph.Graph.SameUpTo` — graphs that differ only in what a view of their nodes leaves out.

## Main results

* `LogicGraph.Graph.wiredAlike_of_ids` — graphs with the same ids and edges are wired alike.
* `LogicGraph.Graph.outcome_compile_of_sameUpTo` — compiling does not read such data.
-/

namespace LogicGraph

/-- The node without what only the editor shows. -/
def Node.withoutLooks (n : Node) : Node :=
  { n with isLocked := false, isBypassed := false, position := {} }

/-- The node without what only the editor shows, and without its words for a reader. -/
def Node.withoutWords (n : Node) : Node :=
  { n.withoutLooks with label := "", purpose := none }

/-- Two graphs that differ only in what a view of their nodes leaves out. -/
structure Graph.SameUpTo (view : Node → Node) (g h : Graph) : Prop where
  /-- They have one name. -/
  name : g.name = h.name
  /-- They have the same edges. -/
  edges : g.edges = h.edges
  /-- Their nodes look the same in the view, in order. -/
  nodes : g.nodes.map view = h.nodes.map view

/-- A program shows the same of a node without what only the editor shows. -/
lemma Node.alike_withoutLooks (t : Target) (n : Node) : n.Alike t n.withoutLooks :=
  ⟨rfl, rfl, rfl, rfl, rfl, rfl, rfl, fun _ => ⟨rfl, rfl⟩⟩

/-- A simulation shows the same of a node without its words for a reader. -/
lemma Node.alike_withoutWords (n : Node) : n.Alike .simulation n.withoutWords :=
  ⟨rfl, rfl, rfl, rfl, rfl, rfl, rfl, fun ht => nomatch ht⟩

namespace Node.Alike

variable {t : Target} {l m n : Node}

/-- Nodes are alike in both directions. -/
lemma symm (h : m.Alike t n) : n.Alike t m where
  kind := h.kind.symm
  baseName := h.baseName.symm
  value := h.value.symm
  operation := h.operation.symm
  caseValues := h.caseValues.symm
  takesAction := h.takesAction.symm
  isObserved := h.isObserved.symm
  described ht := ⟨(h.described ht).1.symm, (h.described ht).2.symm⟩

/-- Nodes that are alike to the same node are alike. -/
lemma trans (h : l.Alike t m) (h' : m.Alike t n) : l.Alike t n where
  kind := h.kind.trans h'.kind
  baseName := h.baseName.trans h'.baseName
  value := h.value.trans h'.value
  operation := h.operation.trans h'.operation
  caseValues := h.caseValues.trans h'.caseValues
  takesAction := h.takesAction.trans h'.takesAction
  isObserved := h.isObserved.trans h'.isObserved
  described ht :=
    ⟨(h.described ht).1.trans (h'.described ht).1, (h.described ht).2.trans (h'.described ht).2⟩

end Node.Alike

namespace Graph

variable {g h : Graph}

/-- Graphs with the same ids at the same places have their nodes for an id at the same place. -/
lemma rel_node? (hids : List.Forall₂ (fun m n : Node => m.id = n.id) g.nodes h.nodes)
    (id : String) :
    Option.Rel (g.Pairs h) (g.node? id) (h.node? id) := by
  obtain ⟨hlength, hzip⟩ := List.forall₂_iff_zip.mp hids
  have hpairs : List.Forall₂ (g.Pairs h) g.nodes h.nodes :=
    List.forall₂_iff_zip.mpr ⟨hlength, fun hp => hp⟩
  cases hg : g.node? id with
  | some m =>
    obtain ⟨hm, rfl⟩ := node?_eq_some_iff.mp hg
    obtain ⟨n, hn, hp⟩ := exists_of_forall₂_of_mem_left hpairs hm
    rw [node?_eq_some_iff.mpr ⟨hn, (hzip hp).symm⟩]
    exact .some hp
  | none =>
    cases hh : h.node? id with
    | none => exact .none
    | some n =>
      -- a node of the second graph alone would have its like in the first one
      obtain ⟨hn, rfl⟩ := node?_eq_some_iff.mp hh
      obtain ⟨m, hm, hp⟩ := exists_of_forall₂_of_mem_right hpairs hn
      exact absurd (hzip hp).symm (ne_id_of_node?_eq_none hm hg)

/-- **Graphs with the same ids and edges are wired alike**, if their nodes have the same kinds and
body ports. -/
lemma wiredAlike_of_ids (hids : List.Forall₂ (fun m n : Node => m.id = n.id) g.nodes h.nodes)
    (hedges : g.edges = h.edges)
    (hkinds : List.Forall₂ (fun m n : Node => m.kind = n.kind ∧ m.bodyPorts = n.bodyPorts)
      g.nodes h.nodes) :
    g.WiredAlike h where
  kinds := hkinds
  targets := by
    intro m n hp port _
    have hid : m.id = n.id := (List.forall₂_iff_zip.mp hids).2 hp
    have htargets : g.targets m.id port = h.targets n.id port := by
      rw [targets, targets, outgoing, outgoing, hedges, hid]
    rw [targetNodes, targetNodes, htargets]
    exact List.rel_filterMap (R := Eq) (fun id _ heq => heq ▸ rel_node? hids id)
      (List.forall₂_eq_eq_eq ▸ rfl)
  sources := by
    intro m n hp port _
    have hid : m.id = n.id := (List.forall₂_iff_zip.mp hids).2 hp
    rw [sources, sources, wiredEdges, wiredEdges, incoming, incoming, hedges, hid]
    exact List.rel_filterMap (R := Eq) (fun e _ heq => heq ▸ rel_node? hids e.source)
      (List.forall₂_eq_eq_eq ▸ rfl)

/-- **Graphs that are the same up to a view are alike**, if the view keeps ids and a program shows
the same of a node and of its view. -/
lemma SameUpTo.alike {view : Node → Node} {t : Target} (hsame : g.SameUpTo view h)
    (hid : ∀ n, (view n).id = n.id) (hview : ∀ n : Node, n.Alike t (view n)) : g.Alike t h := by
  have hnodes : List.Forall₂ (fun m n => view m = view n) g.nodes h.nodes := by
    have hmap : List.Forall₂ Eq (g.nodes.map view) (h.nodes.map view) :=
      List.forall₂_eq_eq_eq ▸ hsame.nodes
    rwa [List.forall₂_map_left_iff, List.forall₂_map_right_iff] at hmap
  have hids : List.Forall₂ (fun m n : Node => m.id = n.id) g.nodes h.nodes :=
    hnodes.imp fun m n heq => by rw [← hid m, heq, hid n]
  have halike : List.Forall₂ (Node.Alike t) g.nodes h.nodes := by
    refine hnodes.imp fun m n heq => (hview m).trans ?_
    rw [heq]
    exact (hview n).symm
  exact {
    toWiredAlike :=
      wiredAlike_of_ids hids hsame.edges (halike.imp fun _ _ ha => ⟨ha.kind, ha.bodyPorts⟩)
    name := hsame.name
    nodes := halike }

/-- Graphs that are alike are compiled to the same text, or fail alike. -/
lemma Alike.outcome_compile {ε : Type} {t : Target} (hg : g.Alike t h) (m : Machine ε) :
    (m.compile g t).outcome = (m.compile h t).outcome := by
  rw [Machine.outcome_compile, Machine.outcome_compile, hg.outcome_program]

/-- **Compiling does not read what only the editor shows.** If two graphs differ in nothing but what
their nodes show as locked or bypassed and where they stand, then compiling on any machine gives the
same text for every target, or fails alike; and at any limit on the length of a way the same program
is put together. For a simulation, labels and purposes may differ as well. -/
theorem outcome_compile_of_sameUpTo {ε : Type} (m : Machine ε) (g h : Graph) :
    (g.SameUpTo Node.withoutLooks h → ∀ t : Target,
      (m.compile g t).outcome = (m.compile h t).outcome ∧
      ∀ limit, (t.program limit g).outcome = (t.program limit h).outcome) ∧
    (g.SameUpTo Node.withoutWords h →
      (m.compile g .simulation).outcome = (m.compile h .simulation).outcome ∧
      ∀ limit, (Target.simulation.program limit g).outcome =
        (Target.simulation.program limit h).outcome) := by
  constructor
  · intro hsame t
    have halike : g.Alike t h := hsame.alike (fun _ => rfl) (Node.alike_withoutLooks t)
    exact ⟨halike.outcome_compile m, halike.outcome_program⟩
  · intro hsame
    have halike : g.Alike .simulation h := hsame.alike (fun _ => rfl) Node.alike_withoutWords
    exact ⟨halike.outcome_compile m, halike.outcome_program⟩

/-- A trigger that sets a display, as a new editor shows it. -/
def freshCanvas : Graph where
  nodes := [
    { id := "n1", kind := .action, label := "Go" },
    { id := "n2", kind := .player, value := .string "low", purpose := some "the lamp" }]
  edges := [⟨"e1", "n1", "trigger", "n2", "set_value"⟩]
  nodes_nodup := by decide

/-- The same nodes, locked, bypassed and moved. -/
def tidiedCanvas : Graph :=
  { freshCanvas with
    nodes := [
      { id := "n1", kind := .action, label := "Go", isBypassed := true,
        position := ⟨.int 220, .int 200⟩ },
      { id := "n2", kind := .player, value := .string "low", purpose := some "the lamp",
        isLocked := true }]
    nodes_nodup := by decide }

/-- The same nodes, locked, bypassed and moved, with other labels and purposes. -/
def relabelledCanvas : Graph :=
  { freshCanvas with
    nodes := [
      { id := "n1", kind := .action, label := "Start", isBypassed := true,
        position := ⟨.int 220, .int 200⟩ },
      { id := "n2", kind := .player, value := .string "low", purpose := some "a lamp",
        isLocked := true }]
    nodes_nodup := by decide }

/-- `freshCanvas` and `tidiedCanvas` have the same event program, and `freshCanvas` and
`relabelledCanvas` the same simulation; the graphs themselves differ. -/
theorem outcome_compile_canvas :
    freshCanvas ≠ tidiedCanvas ∧ freshCanvas.SameUpTo Node.withoutLooks tidiedCanvas ∧
    (Machine.standard.compile freshCanvas .event).outcome =
      (Machine.standard.compile tidiedCanvas .event).outcome ∧
    (∃ p, (Target.event.program 2 freshCanvas).outcome = .ok p ∧
      (Target.event.program 2 tidiedCanvas).outcome = .ok p) ∧
    tidiedCanvas ≠ relabelledCanvas ∧ freshCanvas.SameUpTo Node.withoutWords relabelledCanvas ∧
    (Machine.standard.compile freshCanvas .simulation).outcome =
      (Machine.standard.compile relabelledCanvas .simulation).outcome ∧
    ∃ p, (Target.simulation.program 2 freshCanvas).outcome = .ok p ∧
      (Target.simulation.program 2 relabelledCanvas).outcome = .ok p := by
  have hlooks : freshCanvas.SameUpTo Node.withoutLooks tidiedCanvas := ⟨rfl, rfl, by decide⟩
  have hwords : freshCanvas.SameUpTo Node.withoutWords relabelledCanvas := ⟨rfl, rfl, by decide⟩
  have hevent := (outcome_compile_of_sameUpTo .standard freshCanvas tidiedCanvas).1 hlooks .event
  have hsimulation := (outcome_compile_of_sameUpTo .standard freshCanvas relabelledCanvas).2 hwords
  exact ⟨by decide, hlooks, hevent.1, ⟨_, rfl, (hevent.2 2).symm.trans rfl⟩, by
    decide, hwords, hsimulation.1, _, rfl, (hsimulation.2 2).symm.trans rfl⟩

end Graph

end LogicGraph
