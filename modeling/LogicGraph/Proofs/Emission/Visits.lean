import LogicGraph.Proofs.Emission.Steps

set_option relaxedAutoImplicit false
set_option autoImplicit false

/-!
# Which nodes the walk comes to

A simulation leaves out what lies beneath a root, because the statements for the root hold it
already. What lies beneath is found by a search that follows each id once. The walk that writes the
statements follows an id again and again, on every way that leads to it, and only turns back at a
node on its own way. Here it is shown that both come to the same ids.

## Main definitions

* `LogicGraph.Graph.Descends` — the ways that the walk may take.
* `LogicGraph.Scope.watched` — the walk with a watch, which is told of every node that it comes to.
* `LogicGraph.Scope.ComesTo` — the walk comes to a node on a given way.

## Main results

* `LogicGraph.Scope.outcome_watched`, `LogicGraph.Scope.watched_nothing` — a watched walk is the
  walk.
* `LogicGraph.Scope.ComesTo.descends`, `LogicGraph.Scope.comesTo_of_descends` — the walk takes all
  the ways that it may take.
* `LogicGraph.Graph.exists_descends_iff` — they lead to what is reached along body ports.
* `LogicGraph.Graph.nested_iff_comesTo` — the search finds what the walk comes to.

## Design

The walk gives statements and notices, and neither tells which nodes it has come to. A watch is
therefore put in front of each node: it may report anything, depending on the node and the way
there, and a node has been come to if every watch is heard from there. The outcome is the same for
every watch, and with one that is silent so are the notices.
-/

namespace LogicGraph

open Audited

/-! ## The ways of the walk -/

namespace Graph

variable {g : Graph} {way way' : List String} {id id' b : String}

/-- The walk at `id`, with `way` behind it, may go on to `id'`, with `way'` behind it: any number of
times it leaves a node that is not on the way for a target of a body port. -/
inductive Descends (g : Graph) : List String → String → List String → String → Prop where
  /-- The walk stays where it is. -/
  | here {way : List String} {id : String} : g.Descends way id way id
  /-- The walk leaves a node, which then is on the way. -/
  | step {way way' : List String} {id next id' : String} : id ∉ way → g.Leads id next →
      g.Descends (id :: way) next way' id' → g.Descends way id way' id'

/-- What gets on the way is distinct and new there, and all of it are nodes of the graph. -/
lemma Descends.exists_added (h : g.Descends way id way' id') :
    ∃ added, way' = added ++ way ∧ added.Nodup ∧ ∀ a ∈ added, a ∉ way ∧
      ∃ n ∈ g.nodes, n.id = a := by
  induction h with
  | here => exact ⟨[], rfl, List.nodup_nil, by simp⟩
  | @step way way' id next id' hway hleads _ ih =>
    obtain ⟨added, rfl, hnodup, hadded⟩ := ih
    obtain ⟨n, hn, hid, -⟩ := leads_iff.mp hleads
    refine ⟨added ++ [id], by simp, ?_, ?_⟩
    · refine List.nodup_append.mpr ⟨hnodup, List.nodup_singleton id, ?_⟩
      rintro a ha b hb rfl
      exact (hadded a ha).1 (List.mem_singleton.mp hb ▸ List.mem_cons_self)
    · intro a ha
      rcases List.mem_append.mp ha with ha | ha
      · exact ⟨fun hmem => (hadded a ha).1 (List.mem_cons_of_mem _ hmem), (hadded a ha).2⟩
      · rw [List.mem_singleton.mp ha]
        exact ⟨hway, n, hn, hid⟩

/-- The walk stays where it is, or it goes on to what is reached. -/
lemma Descends.eq_or_reaches (h : g.Descends way id way' id') :
    (way' = way ∧ id' = id) ∨ g.Reaches id id' := by
  induction h with
  | here => exact .inl ⟨rfl, rfl⟩
  | step _ hleads _ ih =>
    rcases ih with ⟨-, rfl⟩ | hreaches
    · exact .inr (.single hleads)
    · exact .inr (.head hleads hreaches)

/-- **A shortest walk to a node is one of the ways**, if no node on the way has a walk as short.

**Proof sketch.** By induction on the length of the walk. Its first node is not on the way, because
no node there has a walk as short. Once it is on the way it has none that is as short as the rest,
because the whole walk is a shortest one. Walks of no steps do not count, so the node at the end may
be on the way already. -/
lemma exists_descends_of_walk {k : Nat} (hwalk : g.Walk k id b)
    (hshortest : ∀ j, 0 < j → j < k → ¬ g.Walk j id b)
    (hway : ∀ w ∈ way, ∀ j, 0 < j → j ≤ k → ¬ g.Walk j w b) :
    ∃ way', g.Descends way id way' b ∧ way'.length = way.length + k := by
  induction k generalizing way id with
  | zero =>
    obtain rfl : id = b := hwalk
    exact ⟨way, .here, rfl⟩
  | succ k ih =>
    obtain ⟨next, hleads, hrest⟩ := hwalk
    have hnot : id ∉ way := fun hmem => hway id hmem (k + 1) (by omega) le_rfl ⟨next, hleads, hrest⟩
    have hnext : ∀ j, 0 < j → j < k → ¬ g.Walk j next b :=
      fun j _ hj hshort => hshortest (j + 1) (by omega) (by omega) ⟨next, hleads, hshort⟩
    have hcons : ∀ w ∈ id :: way, ∀ j, 0 < j → j ≤ k → ¬ g.Walk j w b := by
      rw [List.forall_mem_cons]
      exact ⟨fun j hpos hj => hshortest j hpos (by omega),
        fun w hw j hpos hj => hway w hw j hpos (by omega)⟩
    obtain ⟨way', hdescends, hlength⟩ := ih hrest hnext hcons
    refine ⟨way', .step hnot hleads hdescends, ?_⟩
    rw [hlength, List.length_cons]
    omega

/-- **The ways of the walk lead to what is reached along body ports.** -/
lemma exists_descends_iff : (∃ way, way ≠ [] ∧ g.Descends [] id way b) ↔ g.Reaches id b := by
  constructor
  · rintro ⟨way, hne, hdescends⟩
    exact hdescends.eq_or_reaches.resolve_left fun h => hne h.1
  · intro hreaches
    classical
    have hwalk := exists_walk_succ_iff.mpr hreaches
    have hshortest : ∀ j, 0 < j → j < Nat.find hwalk + 1 → ¬ g.Walk j id b := by
      intro j hpos hj hshort
      obtain ⟨i, rfl⟩ : ∃ i, j = i + 1 := ⟨j - 1, by omega⟩
      exact Nat.find_min hwalk (by omega) hshort
    have hnone : ∀ w ∈ ([] : List String), ∀ j, 0 < j → j ≤ Nat.find hwalk + 1 →
        ¬ g.Walk j w b := by simp
    obtain ⟨way, hdescends, hlength⟩ :=
      exists_descends_of_walk (Nat.find_spec hwalk) hshortest hnone
    refine ⟨way, ?_, hdescends⟩
    rintro rfl
    simp at hlength

end Graph

/-! ## The watched walk -/

namespace Scope

variable {s : Scope} {watch : List String → String → List Notice} {limit : Nat}
  {way way' : List String} {id id' : String}

/-- The walk with a watch: what `watch` says about a node and the way there is reported when the
walk comes to the node. -/
def watched (s : Scope) (watch : List String → String → List Notice) (limit : Nat)
    (way : List String) (id : String) :
    Emission := do
  Audited.report (watch way id)
  match s.graph.node? id with
  | none => do
    Audited.report [.missingNode id]
    return []
  | some n =>
    if id ∈ way then do
      Audited.report [.cycle id]
      return [.pass (some (s.nameOf n))]
    else
      match limit with
      | 0 => .fail .tooDeep
      | limit + 1 => s.existing (s.watched watch limit (id :: way)) n

/-- The walk from `id`, with `way` behind it, comes to `id'` with `way'` behind it: whatever a watch
says there is reported. -/
def ComesTo (s : Scope) (limit : Nat) (way : List String) (id : String) (way' : List String)
    (id' : String) : Prop :=
  ∀ watch : List String → String → List Notice,
    watch way' id' ⊆ (s.watched watch limit way id).notices

/-- **With a silent watch, the watched walk is the walk**, notices and all. -/
lemma watched_nothing (limit : Nat) (way : List String) (id : String) :
    s.watched (fun _ _ => []) limit way id = s.node limit way id := by
  induction limit using Nat.strongRecOn generalizing way id with
  | ind limit ih =>
    rw [watched, node]
    have hsilent : ∀ e : Emission, (Audited.report [] >>= fun _ => e) = e := fun _ => rfl
    rw [hsilent]
    cases s.graph.node? id with
    | none => rfl
    | some n =>
      simp only
      split_ifs
      · rfl
      · cases limit with
        | zero => rfl
        | succ limit =>
          have hvisit : s.watched (fun _ _ => []) limit (id :: way) = s.node limit (id :: way) := by
            funext next
            exact ih limit (Nat.lt_succ_self limit) (id :: way) next
          simp only [hvisit]

/-- **The watched walk ends as the walk does**, whatever the watch says. -/
lemma outcome_watched (watch : List String → String → List Notice) (limit : Nat) (way : List String)
    (id : String) :
    (s.watched watch limit way id).outcome = (s.node limit way id).outcome := by
  induction limit using Nat.strongRecOn generalizing way id with
  | ind limit ih =>
    rw [watched, node, outcome_report_bind]
    cases s.graph.node? id with
    | none => rfl
    | some n =>
      simp only
      split_ifs
      · rfl
      · cases limit with
        | zero => rfl
        | succ limit =>
          exact outcome_existing_congr (ih limit (Nat.lt_succ_self limit) (id :: way)) n

/-- A notice of the watched walk comes from the watch at the node, or from the step there, or from
the walk from a target. -/
lemma notice_cases_watched {x : Notice} (h : x ∈ (s.watched watch limit way id).notices) :
    x ∈ watch way id ∨ x = .missingNode id ∨ x = .cycle id ∨
    (∃ edge port, x = .danglingEdge edge id port) ∨
    id ∉ way ∧ ∃ rest t, limit = rest + 1 ∧ s.graph.Leads id t ∧
      x ∈ (s.watched watch rest (id :: way) t).notices := by
  rw [watched, mem_notices_bind] at h
  rcases h with h | ⟨_, -, h⟩
  · exact .inl h
  · right
    cases hn : s.graph.node? id with
    | none =>
      simp only [hn, mem_notices_bind] at h
      rcases h with h | ⟨_, -, h⟩
      · exact .inl (List.mem_singleton.mp h)
      · cases h
    | some n =>
      right
      simp only [hn] at h
      split_ifs at h with hway
      · rcases mem_notices_bind.mp h with h | ⟨_, -, h⟩
        · exact .inl (List.mem_singleton.mp h)
        · cases h
      · right
        cases limit with
        | zero => cases h
        | succ limit =>
          obtain rfl := (Graph.node?_eq_some_iff.mp hn).2
          rcases notice_cases_existing hn h with hedge | ⟨t, hleads, hx⟩
          · exact .inl hedge
          · exact .inr ⟨hway, limit, t, rfl, hleads, hx⟩

/-- **The walk takes no other ways than it may.**

**Proof sketch.** A watch that speaks up only at the node in question, on the way in question, uses
a notice that the walk has no use for. By induction on the limit, the notice has been passed on from
one step to the next. -/
lemma ComesTo.descends (h : s.ComesTo limit way id way' id') :
    s.graph.Descends way id way' id' := by
  let watch : List String → String → List Notice := fun w i => if w = way' ∧
    i = id' then [.cleared] else []
  have hmem : Notice.cleared ∈ (s.watched watch limit way id).notices := h watch (by simp [watch])
  clear h
  induction limit using Nat.strongRecOn generalizing way id with
  | ind limit ih =>
    rcases notice_cases_watched hmem with
      hx | hx | hx | ⟨_, _, hx⟩ | ⟨hway, rest, t, rfl, hleads, hx⟩
    · by_cases hhere : way = way' ∧ id = id'
      · obtain ⟨rfl, rfl⟩ := hhere
        exact .here
      · simp [watch, hhere] at hx
    · cases hx
    · cases hx
    · cases hx
    · exact .step hway hleads (ih rest (Nat.lt_succ_self rest) hx)

/-- **The walk takes all the ways that it may**, if it ends with statements. -/
lemma comesTo_of_descends {body : List Stmt} (hdescends : s.graph.Descends way id way' id')
    (h : (s.node limit way id).outcome = .ok body) : s.ComesTo limit way id way' id' := by
  intro watch x hx
  rw [← outcome_watched watch] at h
  induction hdescends generalizing limit body with
  | here =>
    rw [watched, mem_notices_bind]
    exact .inl hx
  | @step way way' id next id' hway hleads _ ih =>
    obtain ⟨n, hn, -⟩ := hleads.exists_node
    obtain ⟨-, rfl⟩ := Graph.node?_eq_some_iff.mp hn
    rw [watched, outcome_report_bind] at h
    rw [watched, mem_notices_bind]
    refine .inr ⟨(), rfl, ?_⟩
    simp only [hn, if_neg hway] at h ⊢
    cases limit with
    | zero => cases h
    | succ limit =>
      obtain ⟨b, hout, hnotices, -⟩ := (gives_existing h).exists_of_leads hn hleads
      exact hnotices (ih hout hx)

end Scope

/-- **The search beneath a node finds what the walk comes to.** Beneath a node lie the ids that are
reached by one or more edges, each of which leaves a node of the graph by one of its body ports. If
as many nodes may follow as the graph has and no case has an integer that is too long, then the walk
from the node ends with statements. Whenever it does, the ids beneath the node are those that it
comes to with a way behind it. -/
theorem Graph.nested_iff_comesTo (g : Graph) (id : String) :
    (∀ b, b ∈ g.nested id ↔ Relation.TransGen (fun a c => ∃ n ∈ g.nodes, n.id = a ∧
      ∃ e ∈ g.edges, e.source = a ∧ e.sourceHandle ∈ n.bodyPorts ∧ e.target = c) id b) ∧
    ∀ (names : NameTable) (limit : Nat), let s : Scope := ⟨g, names⟩
      (∀ watch, (s.watched watch limit [] id).outcome = (s.node limit [] id).outcome) ∧
      s.watched (fun _ _ => []) limit [] id = s.node limit [] id ∧
      (g.nodes.length ≤ limit → g.WritableCases → ∃ body, (s.node limit [] id).outcome = .ok body) ∧
      ∀ body, (s.node limit [] id).outcome = .ok body →
        ∀ b, b ∈ g.nested id ↔ ∃ way, way ≠ [] ∧ s.ComesTo limit [] id way b := by
  have hleads : (fun a c => ∃ n ∈ g.nodes, n.id = a ∧
      ∃ e ∈ g.edges, e.source = a ∧ e.sourceHandle ∈ n.bodyPorts ∧ e.target = c) = g.Leads := by
    funext a c
    exact propext Graph.leads_iff.symm
  refine ⟨fun b => by rw [hleads, mem_nested_iff, Reaches], ?_⟩
  intro names limit s
  refine ⟨fun watch => Scope.outcome_watched watch limit [] id, Scope.watched_nothing limit [] id,
    ?_, ?_⟩
  · intro hlimit hcases
    exact Scope.exists_node_eq_ok (s := s) hcases hlimit [] id
  · intro body h b
    rw [mem_nested_iff, ← exists_descends_iff]
    constructor
    · intro hway
      obtain ⟨way, hne, hdescends⟩ := hway
      exact ⟨way, hne, Scope.comesTo_of_descends hdescends h⟩
    · intro hway
      obtain ⟨way, hne, hcomes⟩ := hway
      exact ⟨way, hne, hcomes.descends⟩

end LogicGraph
