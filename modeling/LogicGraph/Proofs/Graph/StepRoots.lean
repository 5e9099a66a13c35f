import Mathlib.Data.Fintype.Card
import Mathlib.Data.List.Nodup
import Mathlib.Data.List.Sort
import Mathlib.Data.Set.Finite.List
import LogicGraph.Proofs.Graph.Reach

set_option relaxedAutoImplicit false
set_option autoImplicit false

/-!
# Roots of a step

A step of a simulation carries out some of the evaluated nodes in their own right and all others
beneath them. The roots are chosen in two rounds: first the nodes beneath no choice, then, in the
order of the nodes, every node that nothing chosen so far covers. The second round is greedy over a
growing set, and what both rounds take is sorted in the end. This module says in closed form which
nodes these are, and that the sorted list is a part of the nodes in their order.

## Main definitions

* `LogicGraph.Graph.IsFree` — a node beneath no choice.
* `LogicGraph.Graph.Precedes` — the order of the nodes.
* `LogicGraph.Graph.PlacedBefore` — the order of the places, which the roots are sorted by.

## Main results

* `LogicGraph.Graph.mem_promote_iff` — what the greedy round takes.
* `LogicGraph.Graph.stepRoots_eq_filter` — sorting what the rounds take is picking it out of the
  nodes.
* `LogicGraph.Graph.mem_stepRoots_iff` — the roots.
* `LogicGraph.Graph.isRoot_or_reached` — every evaluated node is a root or beneath one.
* `LogicGraph.Graph.mem_stepRoots_iff_of_acyclic` — without cycles, the roots are the nodes beneath
  no choice.
* `LogicGraph.Graph.stepRoots_gated_iff` — when a root is beneath no choice but those beneath
  itself.

## Design

A node that is covered by an earlier one is covered by an earlier root, since what covers the
earlier node covers the later one too. So a node is promoted if no earlier node reaches it, root or
not, and the growing set drops out of the description.
-/

namespace LogicGraph.Graph

variable {g : Graph}

/-- A node beneath no choice. -/
def IsFree (g : Graph) (n : Node) : Prop :=
  ∀ f ∈ g.nodes, f.kind = .ifElse → n.id ∉ g.nested f.id

/-- `a` stands before `b` among the nodes. -/
def Precedes (g : Graph) (a b : Node) : Prop :=
  [a, b].Sublist g.nodes

/-- The nodes of a graph are distinct. -/
lemma nodup_nodes (g : Graph) : g.nodes.Nodup :=
  List.Nodup.of_map _ g.nodes_nodup

/-- Nodes of a graph with one id are equal. -/
lemma eq_of_id_eq {m n : Node} (hm : m ∈ g.nodes) (hn : n ∈ g.nodes) (h : m.id = n.id) : m = n :=
  List.inj_on_of_nodup_map g.nodes_nodup hm hn h

/-- The evaluated nodes. -/
lemma mem_evaluated {n : Node} : n ∈ g.evaluated ↔ n ∈ g.nodes ∧ n.kind.isEvaluated = true := by
  simp [evaluated]

/-- An id is that of a listed node of the graph only if the node with the id is listed. -/
lemma id_mem_map_iff {n : Node} {ns : List Node} (hn : n ∈ g.nodes) (hns : ∀ m ∈ ns, m ∈ g.nodes) :
    n.id ∈ ns.map Node.id ↔ n ∈ ns := by
  constructor
  · intro h
    obtain ⟨m, hm, hid⟩ := List.mem_map.mp h
    exact eq_of_id_eq (hns m hm) hn hid ▸ hm
  · exact List.mem_map_of_mem

/-! ## Free nodes -/

/-- The ids beneath some choice. -/
lemma mem_beneathChoices_iff {b : String} :
    b ∈ g.beneathChoices ↔ ∃ f ∈ g.nodes, f.kind = .ifElse ∧ b ∈ g.nested f.id := by
  simp only [beneathChoices, mem_beneath_iff, mem_nested_iff, nodesOf, List.mem_map,
    List.mem_filter]
  constructor
  · rintro ⟨_, ⟨f, ⟨hf, hk⟩, rfl⟩, hr⟩
    exact ⟨f, hf, by simpa using hk, hr⟩
  · rintro ⟨f, hf, hk, hr⟩
    exact ⟨f.id, ⟨f, ⟨hf, by simp [hk]⟩, rfl⟩, hr⟩

/-- The first round takes the free ones among the evaluated nodes. -/
lemma mem_freeRoots_iff {n : Node} : n ∈ g.freeRoots ↔ n ∈ g.evaluated ∧ g.IsFree n := by
  simp only [freeRoots, List.mem_filter, Bool.not_eq_true', List.contains_eq_mem,
    decide_eq_false_iff_not, mem_beneathChoices_iff, IsFree]
  push Not
  rfl

/-! ## The greedy round -/

/-- The greedy round takes nodes in the order in which it goes through them. -/
lemma promote_sublist (covered : List String) (ns : List Node) :
    (g.promote covered ns).Sublist ns := by
  induction ns generalizing covered with
  | nil => exact .slnil
  | cons n rest ih =>
    rw [promote]
    split
    · exact (ih covered).cons n
    · exact (ih _).cons_cons n

/-- What the greedy round takes is from the list it goes through. -/
lemma mem_of_mem_promote {covered : List String} {ns : List Node} {n : Node}
    (h : n ∈ g.promote covered ns) : n ∈ ns :=
  (promote_sublist covered ns).subset h

/-- The greedy round takes nothing that is covered. -/
lemma notMem_covered_of_mem_promote {covered : List String} {ns : List Node} {n : Node}
    (h : n ∈ g.promote covered ns) : n.id ∉ covered := by
  induction ns generalizing covered with
  | nil => simp [promote] at h
  | cons m rest ih =>
    rw [promote] at h
    split at h
    · exact ih h
    · next hm =>
      rcases List.mem_cons.mp h with rfl | h
      · exact hm
      · exact fun hn => ih h (List.mem_append_right _ hn)

/-- A pair in order within a list with one more in front. -/
lemma pair_sublist_cons_iff {a b m : Node} {rest : List Node} :
    [a, b].Sublist (m :: rest) ↔ [a, b].Sublist rest ∨ a = m ∧ b ∈ rest := by
  rw [List.sublist_cons_iff]
  constructor
  · rintro (h | ⟨r, hr, h⟩)
    · exact .inl h
    · obtain ⟨rfl, rfl⟩ := List.cons.inj hr
      exact .inr ⟨rfl, List.singleton_sublist.mp h⟩
  · rintro (h | ⟨rfl, h⟩)
    · exact .inl h
    · exact .inr ⟨[b], rfl, List.singleton_sublist.mpr h⟩

/-- **What the greedy round takes.** If all that is beneath covered ids is covered, the round takes
those nodes that are not covered and that no earlier node reaches.

**Proof sketch.** Induction on the list. A covered node in front covers nothing new, so its reaching
a later node is already excluded by that node not being covered. A node that is taken adds itself
and all it reaches to the covered ids, which stay closed by transitivity. -/
lemma mem_promote_iff (ns : List Node) :
    ∀ {covered : List String}, (ns.map Node.id).Nodup →
      (∀ a ∈ covered, ∀ b, g.Reaches a b → b ∈ covered) → ∀ n,
      (n ∈ g.promote covered ns ↔
        n ∈ ns ∧ n.id ∉ covered ∧ ∀ a, [a, n].Sublist ns → ¬ g.Reaches a.id n.id) := by
  induction ns with
  | nil => simp [promote]
  | cons m rest ih =>
    intro covered hd hclosed n
    rw [List.map_cons, List.nodup_cons] at hd
    have hne : n ∈ rest → n.id ≠ m.id := fun hn h => hd.1 (h ▸ List.mem_map_of_mem hn)
    simp only [pair_sublist_cons_iff, List.mem_cons]
    by_cases hm : m.id ∈ covered
    · rw [promote, if_pos hm, ih hd.2 hclosed]
      constructor
      · rintro ⟨hn, hc, ha⟩
        refine ⟨.inr hn, hc, ?_⟩
        rintro a (h | ⟨rfl, -⟩)
        · exact ha a h
        · exact fun hr => hc (hclosed _ hm _ hr)
      · rintro ⟨rfl | hn, hc, ha⟩
        · exact absurd hm hc
        · exact ⟨hn, hc, fun a h => ha a (.inl h)⟩
    · have hclosed' : ∀ a ∈ m.id :: g.nested m.id ++ covered, ∀ b, g.Reaches a b →
          b ∈ m.id :: g.nested m.id ++ covered := by
        intro a ha b hr
        simp only [List.cons_append, List.mem_cons, List.mem_append, mem_nested_iff] at ha ⊢
        rcases ha with rfl | ha | ha
        · exact .inr (.inl hr)
        · exact .inr (.inl (ha.trans hr))
        · exact .inr (.inr (hclosed a ha b hr))
      rw [promote, if_neg hm, List.mem_cons, ih hd.2 hclosed']
      simp only [List.cons_append, List.mem_cons, List.mem_append, mem_nested_iff]
      constructor
      · rintro (rfl | ⟨hn, hc, ha⟩)
        · refine ⟨.inl rfl, hm, ?_⟩
          -- the node in front stands behind no other, as it does not occur again
          rintro a (h | ⟨-, h⟩)
          · exact absurd rfl (hne (h.subset (by simp)))
          · exact absurd rfl (hne h)
        · refine ⟨.inr hn, fun h => hc (.inr (.inr h)), ?_⟩
          rintro a (h | ⟨rfl, -⟩)
          · exact ha a h
          · exact fun hr => hc (.inr (.inl hr))
      · rintro ⟨rfl | hn, hc, ha⟩
        · exact .inl rfl
        · refine .inr ⟨hn, ?_, fun a h => ha a (.inl h)⟩
          rintro (h | h | h)
          · exact hne hn h
          · exact ha m (.inr ⟨rfl, hn⟩) h
          · exact hc h

/-- What the greedy round goes through is covered before, or taken, or beneath something taken. -/
lemma covered_or_promoted (ns : List Node) :
    ∀ (covered : List String) {n : Node}, n ∈ ns →
      n.id ∈ covered ∨ ∃ r ∈ g.promote covered ns, r.id = n.id ∨ g.Reaches r.id n.id := by
  induction ns with
  | nil => simp
  | cons m rest ih =>
    intro covered n hn
    rw [promote]
    split
    · next hm =>
      rcases List.mem_cons.mp hn with rfl | hn
      · exact .inl hm
      · exact ih covered hn
    · rcases List.mem_cons.mp hn with rfl | hn
      · exact .inr ⟨n, List.mem_cons_self, .inl rfl⟩
      · rcases ih (m.id :: g.nested m.id ++ covered) hn with h | ⟨r, hr, h⟩
        · simp only [List.cons_append, List.mem_cons, List.mem_append, mem_nested_iff] at h
          rcases h with h | h | h
          · exact .inr ⟨m, List.mem_cons_self, .inl h.symm⟩
          · exact .inr ⟨m, List.mem_cons_self, .inr h⟩
          · exact .inl h
        · exact .inr ⟨r, List.mem_cons_of_mem _ hr, h⟩

/-! ## The roots -/

/-- What the first round covers: the free nodes and what is beneath them. -/
lemma mem_freeCover_iff {n : Node} (hn : n ∈ g.nodes) :
    n.id ∈ g.freeRoots.map Node.id ++ g.beneath (g.freeRoots.map Node.id) ↔
      n ∈ g.freeRoots ∨ ∃ a ∈ g.freeRoots, g.Reaches a.id n.id := by
  have hsub : ∀ m ∈ g.freeRoots, m ∈ g.nodes := fun m hm =>
    (mem_evaluated.mp (mem_freeRoots_iff.mp hm).1).1
  rw [List.mem_append, id_mem_map_iff hn hsub, mem_beneath_iff]
  simp only [List.mem_map, exists_exists_and_eq_and]

/-- What is chosen is an evaluated node. -/
lemma mem_evaluated_of_mem_chosenRoots {n : Node} (h : n ∈ g.chosenRoots) : n ∈ g.evaluated := by
  rcases List.mem_append.mp h with h | h
  · exact (mem_freeRoots_iff.mp h).1
  · exact mem_of_mem_promote h

/-- No node is chosen twice: the second round takes nothing that the first one has taken. -/
lemma chosenRoots_nodup (g : Graph) : g.chosenRoots.Nodup := by
  have hevaluated : g.evaluated.Nodup := g.nodup_nodes.sublist List.filter_sublist
  refine List.Nodup.append (hevaluated.sublist List.filter_sublist)
    (hevaluated.sublist (promote_sublist _ _)) ?_
  intro n hfree hpromoted
  exact notMem_covered_of_mem_promote hpromoted
    (List.mem_append_left _ (List.mem_map_of_mem hfree))

/-- Nodes at one place are equal. -/
lemma eq_of_placeOf_eq {m n : Node} (hm : m ∈ g.nodes) (hn : n ∈ g.nodes)
    (h : g.placeOf m = g.placeOf n) : m = n :=
  eq_of_id_eq hm hn ((List.idxOf_inj (List.mem_map_of_mem hm)).mp h)

/-- The order of the places. -/
def PlacedBefore (g : Graph) (a b : Node) : Prop :=
  g.placeOf a ≤ g.placeOf b
deriving Decidable

/-- Of two nodes, one stands before the other or at the same place. -/
instance (g : Graph) : Std.Total g.PlacedBefore :=
  ⟨fun _ _ => Nat.le_total _ _⟩

/-- The order of places is transitive. -/
instance (g : Graph) : IsTrans Node g.PlacedBefore :=
  ⟨fun _ _ _ => Nat.le_trans⟩

/-- The nodes stand in the order of their places. -/
lemma pairwise_placedBefore (g : Graph) : g.nodes.Pairwise g.PlacedBefore := by
  refine List.pairwise_iff_getElem.mpr fun i j hi hj hij => ?_
  have hplace : ∀ k (hk : k < g.nodes.length), g.placeOf g.nodes[k] = k := by
    intro k hk
    have hlength : k < (g.nodes.map Node.id).length := by rwa [List.length_map]
    rw [placeOf, ← List.getElem_map Node.id]
    exact g.nodes_nodup.idxOf_getElem k hlength
  rw [PlacedBefore, hplace i hi, hplace j hj]
  exact hij.le

/-- Sorting by places is the sorting of the library. -/
lemma stepRoots_eq_insertionSort (g : Graph) :
    g.stepRoots = g.chosenRoots.insertionSort g.PlacedBefore := by
  have hinsert : g.insertByPlace = List.orderedInsert g.PlacedBefore := by
    funext n ns
    induction ns with
    | nil => rfl
    | cons m rest ih =>
      rw [insertByPlace, List.orderedInsert_cons, ih]
      rfl
  rw [stepRoots, hinsert]
  rfl

/-- **Sorting what is chosen is picking it out of the nodes.** Both lists have the same members,
each once, and are in the order of the places. -/
lemma stepRoots_eq_filter (g : Graph) :
    g.stepRoots = g.nodes.filter fun n => (g.chosenRoots.map Node.id).contains n.id := by
  have hchosen : ∀ n ∈ g.chosenRoots, n ∈ g.nodes :=
    fun n hn => (mem_evaluated.mp (mem_evaluated_of_mem_chosenRoots hn)).1
  have hperm : g.stepRoots.Perm g.chosenRoots := by
    rw [stepRoots_eq_insertionSort]
    exact List.perm_insertionSort _ _
  have hsorted : g.stepRoots.Pairwise g.PlacedBefore := by
    rw [stepRoots_eq_insertionSort]
    exact List.pairwise_insertionSort _ _
  have hmem : ∀ n, n ∈ g.chosenRoots ↔
      n ∈ g.nodes.filter fun n => (g.chosenRoots.map Node.id).contains n.id := by
    intro n
    rw [List.mem_filter, List.contains_iff_mem]
    constructor
    · exact fun hn => ⟨hchosen n hn, List.mem_map_of_mem hn⟩
    · rintro ⟨hn, hid⟩
      exact (id_mem_map_iff hn hchosen).mp hid
  refine List.Perm.eq_of_pairwise ?_ hsorted
    (g.pairwise_placedBefore.sublist List.filter_sublist) (hperm.trans ?_)
  · intro a b ha hb hab hba
    exact eq_of_placeOf_eq (hchosen a (hperm.mem_iff.mp ha)) (List.mem_of_mem_filter hb)
      (Nat.le_antisymm hab hba)
  · exact (List.perm_ext_iff_of_nodup g.chosenRoots_nodup
      (g.nodup_nodes.sublist List.filter_sublist)).mpr hmem

/-- The roots are in the order of the nodes. -/
lemma stepRoots_sublist (g : Graph) : g.stepRoots.Sublist g.nodes := by
  rw [stepRoots_eq_filter]
  exact List.filter_sublist

/-- A root is a free evaluated node, or one that the second round takes. -/
lemma mem_stepRoots {n : Node} :
    n ∈ g.stepRoots ↔ n ∈ g.freeRoots ∨
      n ∈ g.promote (g.freeRoots.map Node.id ++ g.beneath (g.freeRoots.map Node.id))
        g.evaluated := by
  rw [stepRoots_eq_insertionSort, List.mem_insertionSort]
  exact List.mem_append

/-- Order among the evaluated nodes is order among all nodes. -/
lemma pair_sublist_evaluated_iff {a n : Node} (ha : a ∈ g.evaluated) (hn : n ∈ g.evaluated) :
    [a, n].Sublist g.evaluated ↔ g.Precedes a n := by
  constructor
  · exact fun h => h.trans List.filter_sublist
  · intro h
    have := h.filter fun n => n.kind.isEvaluated
    rwa [List.filter_eq_self.mpr] at this
    intro m hm
    rcases List.mem_pair.mp hm with rfl | rfl
    · exact (mem_evaluated.mp ha).2
    · exact (mem_evaluated.mp hn).2

/-- **The roots of a step** are the evaluated nodes that are free, or that neither a free nor an
earlier evaluated node reaches. -/
theorem mem_stepRoots_iff {n : Node} :
    n ∈ g.stepRoots ↔ n ∈ g.evaluated ∧
      (g.IsFree n ∨ ∀ a ∈ g.evaluated, g.IsFree a ∨ g.Precedes a n → n.id ∉ g.nested a.id) := by
  have hnodup : (g.evaluated.map Node.id).Nodup :=
    g.nodes_nodup.sublist (List.filter_sublist.map Node.id)
  have hclosed : ∀ a ∈ g.freeRoots.map Node.id ++ g.beneath (g.freeRoots.map Node.id),
      ∀ b, g.Reaches a b → b ∈ g.freeRoots.map Node.id ++ g.beneath (g.freeRoots.map Node.id) := by
    intro a ha b hr
    rw [List.mem_append, mem_beneath_iff] at ha ⊢
    rcases ha with ha | ⟨c, hc, hca⟩
    · exact .inr ⟨a, ha, hr⟩
    · exact .inr ⟨c, hc, hca.trans hr⟩
  rw [mem_stepRoots, mem_promote_iff _ hnodup hclosed, mem_freeRoots_iff]
  simp only [mem_nested_iff]
  constructor
  · rintro (⟨hn, hf⟩ | ⟨hn, hc, ha⟩)
    · exact ⟨hn, .inl hf⟩
    · rw [mem_freeCover_iff (mem_evaluated.mp hn).1] at hc
      push Not at hc
      refine ⟨hn, .inr ?_⟩
      rintro a hae (hfree | hprec)
      · exact hc.2 a (mem_freeRoots_iff.mpr ⟨hae, hfree⟩)
      · exact ha a ((pair_sublist_evaluated_iff hae hn).mpr hprec)
  · rintro ⟨hn, hf⟩
    by_cases hfree : g.IsFree n
    · exact .inl ⟨hn, hfree⟩
    · have hall := hf.resolve_left hfree
      refine .inr ⟨hn, ?_, ?_⟩
      · rw [mem_freeCover_iff (mem_evaluated.mp hn).1]
        rintro (h | ⟨a, ha, hr⟩)
        · exact hfree (mem_freeRoots_iff.mp h).2
        · obtain ⟨hae, haf⟩ := mem_freeRoots_iff.mp ha
          exact hall a hae (.inl haf) hr
      · intro a h
        have hae : a ∈ g.evaluated := h.subset (by simp)
        exact hall a hae (.inr ((pair_sublist_evaluated_iff hae hn).mp h))

/-- Every evaluated node is a root or beneath a root. -/
theorem isRoot_or_reached {n : Node} (hn : n ∈ g.evaluated) :
    n ∈ g.stepRoots ∨ ∃ r ∈ g.stepRoots, n.id ∈ g.nested r.id := by
  have hmem : n ∈ g.nodes := (mem_evaluated.mp hn).1
  simp only [mem_nested_iff]
  rcases covered_or_promoted g.evaluated
    (g.freeRoots.map Node.id ++ g.beneath (g.freeRoots.map Node.id)) hn with h | ⟨r, hr, h⟩
  · rw [mem_freeCover_iff hmem] at h
    rcases h with h | ⟨a, ha, hr⟩
    · exact .inl (mem_stepRoots.mpr (.inl h))
    · exact .inr ⟨a, mem_stepRoots.mpr (.inl ha), hr⟩
  · have hroot : r ∈ g.stepRoots := mem_stepRoots.mpr (.inr hr)
    rcases h with h | h
    · have : r = n := eq_of_id_eq (mem_evaluated.mp (mem_of_mem_promote hr)).1 hmem h
      exact .inl (this ▸ hroot)
    · exact .inr ⟨r, hroot, h⟩

/-! ## Graphs without cycles -/

/-- In a graph without cycles a choice is free or beneath a free choice.

**Proof sketch.** Reachability between nodes is transitive, and irreflexive by assumption, so on the
finitely many nodes it is well founded. A choice that is not free is beneath another one, which the
induction hypothesis deals with. -/
lemma exists_free_choice (hacyclic : ∀ n ∈ g.nodes, n.id ∉ g.nested n.id) {f : Node}
    (hf : f ∈ g.nodes) (hk : f.kind = .ifElse) :
    ∃ a ∈ g.nodes, a.kind = .ifElse ∧ g.IsFree a ∧ (a = f ∨ g.Reaches a.id f.id) := by
  let above : {n // n ∈ g.nodes} → {n // n ∈ g.nodes} → Prop := fun a b => g.Reaches a.1.id b.1.id
  have : Finite {n // n ∈ g.nodes} := g.nodes.finite_toSet
  have : IsTrans _ above := ⟨fun _ _ _ h₁ h₂ => Relation.TransGen.trans h₁ h₂⟩
  have : Std.Irrefl above := ⟨fun a h => hacyclic a.1 a.2 (mem_nested_iff.mpr h)⟩
  have hwf : WellFounded above := Finite.wellFounded_of_trans_of_irrefl above
  suffices h : ∀ a : {n // n ∈ g.nodes}, a.1.kind = .ifElse →
      ∃ b ∈ g.nodes, b.kind = .ifElse ∧ g.IsFree b ∧
        (b = a.1 ∨ g.Reaches b.id a.1.id) from h ⟨f, hf⟩ hk
  intro a
  induction a using hwf.induction with
  | _ a ih =>
    intro ha
    by_cases hfree : g.IsFree a.1
    · exact ⟨a.1, a.2, ha, hfree, .inl rfl⟩
    · unfold IsFree at hfree
      push Not at hfree
      obtain ⟨c, hc, hck, hca⟩ := hfree
      rw [mem_nested_iff] at hca
      obtain ⟨b, hb, hbk, hbf, h⟩ := ih ⟨c, hc⟩ hca hck
      refine ⟨b, hb, hbk, hbf, .inr ?_⟩
      rcases h with rfl | h
      · exact hca
      · exact Relation.TransGen.trans h hca

/-- **Without cycles** the roots of a step are the free ones among the evaluated nodes. -/
theorem mem_stepRoots_iff_of_acyclic (hacyclic : ∀ n ∈ g.nodes, n.id ∉ g.nested n.id) {n : Node} :
    n ∈ g.stepRoots ↔ n ∈ g.evaluated ∧ g.IsFree n := by
  rw [mem_stepRoots_iff]
  refine and_congr_right fun _ => ⟨?_, .inl⟩
  rintro (hfree | hall)
  · exact hfree
  · intro f hf hk hfn
    obtain ⟨a, ha, hak, hafree, h⟩ := exists_free_choice hacyclic hf hk
    have hae : a ∈ g.evaluated := mem_evaluated.mpr ⟨ha, by rw [hak]; rfl⟩
    have han : g.Reaches a.id n.id := by
      rcases h with rfl | h
      · exact mem_nested_iff.mp hfn
      · exact Relation.TransGen.trans h (mem_nested_iff.mp hfn)
    exact hall a hae (.inl hafree) (mem_nested_iff.mpr han)

/-! ## Gating -/

/-- **When roots are gated.** A root of a step lies beneath a choice only if the choice lies beneath
the root, too, if and only if the following holds of every evaluated node and every choice above it
that is not also beneath it: the node is beneath some evaluated node that is free or stands before
it. -/
theorem stepRoots_gated_iff (g : Graph) :
    (∀ r ∈ g.stepRoots, ∀ f ∈ g.nodes, f.kind = .ifElse → r.id ∈ g.nested f.id →
      f.id ∈ g.nested r.id) ↔
      ∀ r ∈ g.evaluated, ∀ f ∈ g.nodes, f.kind = .ifElse → r.id ∈ g.nested f.id →
        f.id ∉ g.nested r.id →
        ∃ a ∈ g.evaluated, r.id ∈ g.nested a.id ∧ (g.IsFree a ∨ g.Precedes a r) := by
  constructor
  · intro h r hr f hf hk hfr hrf
    by_contra hno
    push Not at hno
    have hroot : r ∈ g.stepRoots := mem_stepRoots_iff.mpr ⟨hr, .inr fun a ha hor hra => by
      obtain ⟨h₁, h₂⟩ := hno a ha hra
      exact hor.elim h₁ h₂⟩
    exact hrf (h r hroot f hf hk hfr)
  · intro h r hroot f hf hk hfr
    obtain ⟨hr, hor⟩ := mem_stepRoots_iff.mp hroot
    by_contra hrf
    obtain ⟨a, ha, hra, haor⟩ := h r hr f hf hk hfr hrf
    rcases hor with hfree | hall
    · exact hfree f hf hk hfr
    · exact hall a ha haor hra

/-- An arithmetic node in front of two choices that lead to each other, one of which leads to it as
well. -/
def cycleWithTail : Graph where
  nodes :=
    [{ id := "m", kind := .math }, { id := "a", kind := .ifElse }, { id := "b", kind := .ifElse }]
  edges := [⟨"e1", "a", "default_branch", "b", "exec"⟩, ⟨"e2", "b", "default_branch", "a", "exec"⟩,
    ⟨"e3", "a", "default_branch", "m", "a"⟩]
  nodes_nodup := by decide

/-- In `cycleWithTail` the arithmetic node is a root of the step although it lies on no cycle and
beneath a choice. -/
theorem stepRoots_cycleWithTail_not_gated :
    ∃ r ∈ cycleWithTail.stepRoots, ∃ f ∈ cycleWithTail.nodes, f.kind = .ifElse ∧
      r.id ∈ cycleWithTail.nested f.id ∧ f.id ∉ cycleWithTail.nested r.id := by
  decide

end LogicGraph.Graph
