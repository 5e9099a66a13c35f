import Mathlib.Logic.Relation
import Mathlib.Tactic.Common
import LogicGraph.Graph.Reach

set_option relaxedAutoImplicit false
set_option autoImplicit false

/-!
# The search beneath a node is reachability

`Graph.beneath` collects ids by a search with a bound on its steps. Here the ids it collects are
identified with the ids that are reached along body ports, and the bound is shown never to cut the
search short.

## Main definitions

* `LogicGraph.Graph.Leads` — one step along a body port.
* `LogicGraph.Graph.Reaches` — one or more such steps.
* `LogicGraph.Graph.Walk` — a given number of such steps.
* `LogicGraph.Graph.SearchInv` — what holds between two steps of the search.

## Main results

* `LogicGraph.Graph.mem_beneath_iff`, `LogicGraph.Graph.mem_nested_iff` — the search finds exactly
  what is reached.
* `LogicGraph.Graph.leads_iff` — a step is an edge that leaves a node by a body port.
* `LogicGraph.Graph.exists_walk_iff` — what is reached is reached by a walk of some length.

## Design

The invariant of the search says that whatever has been found, or was given at the start, either
still waits or has all its targets among the found ids. Found ids are distinct targets of edges, so
there are at most as many as edges; each step takes one id from the waiting ones and puts back as
many as it finds, hence `waiting + edges ≤ fuel + found` is kept by a step, and with no fuel left
nothing waits.
-/

namespace LogicGraph.Graph

variable {g : Graph}

/-- One step along a body port: `b` is a target of a body port of `a`. -/
def Leads (g : Graph) (a b : String) : Prop :=
  b ∈ g.bodyTargets a

/-- One or more steps along body ports. -/
def Reaches (g : Graph) : String → String → Prop :=
  Relation.TransGen g.Leads

/-- A walk of the given number of steps along body ports. -/
def Walk (g : Graph) : Nat → String → String → Prop
  | 0, a, b => a = b
  | k + 1, a, b => ∃ c, g.Leads a c ∧ g.Walk k c b

/-- A step along a body port starts at a node of the graph. -/
lemma Leads.exists_node {a b : String} (h : g.Leads a b) :
    ∃ n, g.node? a = some n ∧ ∃ port ∈ n.bodyPorts, b ∈ g.targets n.id port := by
  unfold Leads bodyTargets at h
  cases hn : g.node? a with
  | none => simp [hn] at h
  | some n =>
    rw [hn] at h
    obtain ⟨port, hport, hb⟩ := List.mem_flatMap.mp h
    exact ⟨n, rfl, port, hport, hb⟩

/-- The steps along body ports from a node are those to the targets of its body ports. -/
lemma leads_iff_of_node? {n : Node} {a b : String} (hn : g.node? a = some n) :
    g.Leads a b ↔ ∃ port ∈ n.bodyPorts, b ∈ g.targets n.id port := by
  rw [Leads, bodyTargets, hn, List.mem_flatMap]

/-- A step along a body port is an edge that leaves a node of the graph by a body port. -/
lemma leads_iff {a b : String} :
    g.Leads a b ↔ ∃ n ∈ g.nodes, n.id = a ∧ ∃ e ∈ g.edges, e.source = a ∧
      e.sourceHandle ∈ n.bodyPorts ∧ e.target = b := by
  constructor
  · intro h
    obtain ⟨n, hn, port, hport, hb⟩ := h.exists_node
    obtain ⟨hmem, rfl⟩ := node?_eq_some_iff.mp hn
    obtain ⟨e, he, rfl⟩ := List.mem_map.mp hb
    obtain ⟨hedge, hsource, rfl⟩ : e ∈ g.edges ∧ e.source = n.id ∧ e.sourceHandle = port := by
      simpa [outgoing] using he
    exact ⟨n, hmem, rfl, e, hedge, hsource, hport, rfl⟩
  · rintro ⟨n, hn, rfl, e, he, hsource, hport, rfl⟩
    refine (leads_iff_of_node? (node?_eq_some_iff.mpr ⟨hn, rfl⟩)).mpr ⟨e.sourceHandle, hport, ?_⟩
    exact List.mem_map_of_mem (List.mem_filter.mpr ⟨he, by simp [hsource]⟩)

/-- A step along a body port ends at the target of an edge. -/
lemma Leads.mem_targets {a b : String} (h : g.Leads a b) : b ∈ g.edges.map Edge.target := by
  obtain ⟨n, -, port, -, hb⟩ := h.exists_node
  obtain ⟨e, he, rfl⟩ := List.mem_map.mp hb
  exact List.mem_map_of_mem (List.mem_filter.mp he).1

/-! ## Fresh ids -/

/-- The fresh members of a list are those that have not been found. -/
@[simp] lemma mem_unfound {b : String} {found l : List String} :
    b ∈ unfound found l ↔ b ∈ l ∧ b ∉ found := by
  induction l generalizing found with
  | nil => simp [unfound]
  | cons s rest ih =>
    by_cases hs : s ∈ found
    · rw [unfound, if_pos hs, ih, List.mem_cons]
      constructor
      · rintro ⟨hb, hf⟩
        exact ⟨.inr hb, hf⟩
      · rintro ⟨rfl | hb, hf⟩
        · exact absurd hs hf
        · exact ⟨hb, hf⟩
    · rw [unfound, if_neg hs, List.mem_cons, ih, List.mem_cons]
      by_cases hbs : b = s
      · simp [hbs, hs]
      · simp [hbs]

/-- Each fresh member is taken once. -/
lemma nodup_unfound (found l : List String) : (unfound found l).Nodup := by
  induction l generalizing found with
  | nil => simp [unfound]
  | cons s rest ih =>
    by_cases hs : s ∈ found
    · rw [unfound, if_pos hs]
      exact ih found
    · rw [unfound, if_neg hs, List.nodup_cons]
      exact ⟨by simp, ih _⟩

/-! ## The search -/

/-- What holds between two steps of a search from `ids`. -/
structure SearchInv (g : Graph) (ids waiting found : List String) : Prop where
  /-- Nothing is found twice. -/
  nodup : found.Nodup
  /-- What is found is reached. -/
  sound : ∀ b ∈ found, ∃ a ∈ ids, g.Reaches a b
  /-- What waits was given or found. -/
  known : ∀ a ∈ waiting, a ∈ ids ∨ a ∈ found
  /-- What was given or found waits, or its targets have been found. -/
  closed : ∀ a, a ∈ ids ∨ a ∈ found → a ∈ waiting ∨ ∀ b, g.Leads a b → b ∈ found

/-- The invariant holds at the start. -/
lemma SearchInv.start (g : Graph) (ids : List String) : SearchInv g ids ids [] where
  nodup := List.nodup_nil
  sound := by simp
  known := fun a ha => .inl ha
  closed := fun a ha => .inl (by simpa using ha)

/-- A step of the search keeps the invariant. -/
lemma SearchInv.step {ids waiting found : List String} {id : String}
    (h : SearchInv g ids (id :: waiting) found) :
    SearchInv g ids (unfound found (g.bodyTargets id) ++ waiting)
      (unfound found (g.bodyTargets id) ++ found) where
  nodup := by
    refine List.nodup_append.mpr ⟨nodup_unfound _ _, h.nodup, ?_⟩
    rintro a ha b hb rfl
    exact (mem_unfound.mp ha).2 hb
  sound := by
    intro b hb
    rcases List.mem_append.mp hb with hb | hb
    · have hstep : g.Leads id b := (mem_unfound.mp hb).1
      rcases h.known id List.mem_cons_self with hid | hid
      · exact ⟨id, hid, .single hstep⟩
      · obtain ⟨a, ha, hr⟩ := h.sound id hid
        exact ⟨a, ha, .tail hr hstep⟩
    · exact h.sound b hb
  known := by
    intro a ha
    rcases List.mem_append.mp ha with ha | ha
    · exact .inr (List.mem_append_left _ ha)
    · exact (h.known a (List.mem_cons_of_mem _ ha)).imp_right (List.mem_append_right _)
  closed := by
    have hid : ∀ b, g.Leads id b → b ∈ unfound found (g.bodyTargets id) ++ found := by
      intro b hb
      by_cases hf : b ∈ found
      · exact List.mem_append_right _ hf
      · exact List.mem_append_left _ (mem_unfound.mpr ⟨hb, hf⟩)
    -- an older id waits, has just been followed, or was done with before; a fresh one waits
    have hold : ∀ a, a ∈ ids ∨ a ∈ found → a ∈ unfound found (g.bodyTargets id) ++ waiting ∨
        ∀ b, g.Leads a b → b ∈ unfound found (g.bodyTargets id) ++ found := by
      intro a ha
      rcases h.closed a ha with hw | hd
      · rcases List.mem_cons.mp hw with rfl | hw
        · exact .inr hid
        · exact .inl (List.mem_append_right _ hw)
      · exact .inr fun b hb => List.mem_append_right _ (hd b hb)
    intro a ha
    rw [List.mem_append] at ha
    rcases ha with ha | ha | ha
    · exact hold a (.inl ha)
    · exact .inl (List.mem_append_left _ ha)
    · exact hold a (.inr ha)

/-- Found ids are distinct targets of edges, so there are at most as many as edges. -/
lemma SearchInv.length_le {ids waiting found : List String} (h : SearchInv g ids waiting found) :
    found.length ≤ g.edges.length := by
  have hsub : found ⊆ g.edges.map Edge.target := by
    intro b hb
    obtain ⟨a, -, hr⟩ := h.sound b hb
    obtain ⟨c, -, hc⟩ := Relation.TransGen.tail'_iff.mp hr
    exact hc.mem_targets
  simpa using h.nodup.length_le_of_subset hsub

/-- When nothing waits, the found ids are exactly those that are reached. -/
lemma SearchInv.mem_iff {ids found : List String} (h : SearchInv g ids [] found) (b : String) :
    b ∈ found ↔ ∃ a ∈ ids, g.Reaches a b := by
  refine ⟨h.sound b, ?_⟩
  rintro ⟨a, ha, hr⟩
  have hclosed : ∀ c, c ∈ ids ∨ c ∈ found → ∀ d, g.Leads c d → d ∈ found := by
    intro c hc
    exact (h.closed c hc).resolve_left (by simp)
  induction hr with
  | single hab => exact hclosed a (.inl ha) _ hab
  | tail _ hbc ih => exact hclosed _ (.inr ih) _ hbc

/-- The search ends with an empty list of waiting ids, whatever it had found before.

**Proof sketch.** Induction on the fuel. A step takes one id and puts back as many as it finds, so
the inequality `waiting + edges ≤ fuel + found` is kept. Without fuel it leaves no room for a
waiting id, as there are at most as many found ids as edges. -/
lemma SearchInv.mem_search_iff {ids : List String} (fuel : Nat) :
    ∀ {waiting found : List String}, SearchInv g ids waiting found →
      waiting.length + g.edges.length ≤ fuel + found.length → ∀ b,
      (b ∈ g.search fuel waiting found ↔ ∃ a ∈ ids, g.Reaches a b) := by
  induction fuel with
  | zero =>
    intro waiting found h hfuel b
    have hle := h.length_le
    obtain rfl : waiting = [] := List.eq_nil_of_length_eq_zero (by omega)
    exact h.mem_iff b
  | succ fuel ih =>
    intro waiting found h hfuel b
    cases waiting with
    | nil => exact h.mem_iff b
    | cons id waiting =>
      apply ih h.step
      simp only [List.length_append, List.length_cons] at hfuel ⊢
      omega

/-- **The ids beneath some given ids** are those that are reached from one of them by one or more
steps. -/
theorem mem_beneath_iff (g : Graph) (ids : List String) (b : String) :
    b ∈ g.beneath ids ↔ ∃ a ∈ ids, g.Reaches a b :=
  (SearchInv.start g ids).mem_search_iff _ (by simp [Nat.add_comm]) b

/-- **The ids beneath a node** are those that are reached from it by one or more steps. -/
theorem mem_nested_iff {a b : String} : b ∈ g.nested a ↔ g.Reaches a b := by
  simp [nested, mem_beneath_iff]

/-! ## Walks -/

/-- What is reached in any number of steps is reached by a walk of some length. -/
lemma exists_walk_iff {a b : String} :
    (∃ k, g.Walk k a b) ↔ Relation.ReflTransGen g.Leads a b := by
  constructor
  · rintro ⟨k, hk⟩
    induction k generalizing a with
    | zero =>
      cases hk
      exact .refl
    | succ k ih =>
      obtain ⟨c, hac, hcb⟩ := hk
      exact .head hac (ih hcb)
  · intro h
    induction h using Relation.ReflTransGen.head_induction_on with
    | refl => exact ⟨0, rfl⟩
    | head hac _ ih =>
      obtain ⟨k, hk⟩ := ih
      exact ⟨k + 1, _, hac, hk⟩

/-- What is reached in one or more steps is reached by a walk of such a length. -/
lemma exists_walk_succ_iff {a b : String} : (∃ k, g.Walk (k + 1) a b) ↔ g.Reaches a b := by
  rw [Reaches, Relation.TransGen.head'_iff]
  constructor
  · rintro ⟨k, c, hac, hcb⟩
    exact ⟨c, hac, exists_walk_iff.mp ⟨k, hcb⟩⟩
  · rintro ⟨c, hac, hcb⟩
    obtain ⟨k, hk⟩ := exists_walk_iff.mpr hcb
    exact ⟨k, c, hac, hk⟩

end LogicGraph.Graph
