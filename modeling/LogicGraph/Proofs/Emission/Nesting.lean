import LogicGraph.Proofs.Emission.Visits

set_option relaxedAutoImplicit false
set_option autoImplicit false

/-!
# How deep the walk goes

Whatever edges a user has drawn, the walk ends: a node that it leaves gets on the way and is not
left a second time. For the same reason its lines are not indented more and more. Only a choice with
a case puts anything one level deeper, and each of them does so once on a way.

## Main results

* `LogicGraph.Graph.toNat_branches_add_ahead_le` — a choice that goes on the way is ahead no more.
* `LogicGraph.Scope.depth_bounds_of_mem_parts` — how deep a statement of the walk stands.
* `LogicGraph.Scope.node_ends_and_nests` — the walk ends, and bounds on its ways and on its lines.
-/

namespace LogicGraph

/-- With a node that goes on the way, the level that it takes is ahead no more. -/
lemma Graph.toNat_branches_add_ahead_le {g : Graph} {way : List String} {n : Node}
    (hn : n ∈ g.nodes) (hway : n.id ∉ way) :
    n.branches.toNat + g.ahead Node.branches (n.id :: way) ≤ g.ahead Node.branches way := by
  cases hbranches : n.branches with
  | false =>
    have hle := g.ahead_cons_le Node.branches n.id way
    rw [Bool.toNat_false]
    omega
  | true =>
    have hlt := Graph.ahead_cons_lt hn hbranches hway
    rw [Bool.toNat_true]
    omega

namespace Scope

variable {s : Scope} {limit d : Nat} {way : List String} {id : String} {body : List Stmt}

/-- **How deep a statement of the walk stands**: not above the walk, and no more levels below it
than there are choices with a case that are not on the way.

**Proof sketch.** By induction on the limit, one step of the walk at a time. A step goes down a
level only if its node is a choice with a case, and for the steps behind it this node is on the
way. -/
lemma depth_bounds_of_mem_parts {p : Nat × Stmt} (h : (s.node limit way id).outcome = .ok body)
    (hp : p ∈ Stmt.partsAll d body) : d ≤ p.1 ∧ p.1 ≤ d + s.graph.ahead Node.branches way := by
  induction limit using Nat.strongRecOn generalizing way id d body with
  | ind limit ih =>
    rcases part_cases_node h hp with ⟨n, -, -, -, rfl⟩ | ⟨n, hn, rfl, hway, rest, rfl, hstep⟩
    · exact ⟨le_rfl, Nat.le_add_right _ _⟩
    · have hlevel := Graph.toNat_branches_add_ahead_le hn hway
      rcases hstep with ⟨-, -, hlow, hhigh⟩ | ⟨t, -, b, hb, hp⟩
      · omega
      · obtain ⟨hlow, hhigh⟩ := ih rest (Nat.lt_succ_self rest) hb hp
        omega

end Scope

/-- **The walk ends, and goes only so deep.** From any id and with anything on the way at the start,
what the walk gives is the same for all limits that are not less than the number of nodes. It is not
too deep, and if no case has an integer that is too long then there are statements. A watched walk
ends as the walk does, and is the walk itself if the watch is silent. Wherever the walk comes to,
what it has put on the way are different nodes of the graph that were not there before, so it has
put no more there than the graph has nodes. Each line of its statements, from any depth on, is
indented by four spaces for each level: at least as many levels as it starts from, and at most as
many more as there are choices with a case. -/
theorem Scope.node_ends_and_nests (s : Scope) (way : List String) (id : String) :
    (∃ emission : Emission,
      (∀ limit, s.graph.nodes.length ≤ limit → s.node limit way id = emission) ∧
      emission.outcome ≠ .error .tooDeep ∧
      (s.graph.WritableCases → ∃ body, emission.outcome = .ok body)) ∧
    (∀ limit, (∀ watch, (s.watched watch limit way id).outcome = (s.node limit way id).outcome) ∧
      s.watched (fun _ _ => []) limit way id = s.node limit way id) ∧
    (∀ limit way' id', s.ComesTo limit way id way' id' →
      ∃ added, way' = added ++ way ∧ added.Nodup ∧
        (∀ a ∈ added, a ∉ way ∧ ∃ n ∈ s.graph.nodes, n.id = a) ∧
        added.length ≤ s.graph.nodes.length) ∧
    ∀ limit body, (s.node limit way id).outcome = .ok body →
      ∀ depth : Nat, ∀ line ∈ Stmt.lines depth body,
        ∃ level, indentation line = 4 * level ∧ depth ≤ level ∧
          level ≤ depth + s.graph.nodes.countP Node.branches := by
  have hahead : ∀ limit, s.graph.nodes.length ≤ limit → s.graph.ahead (fun _ => true) way ≤ limit :=
    fun limit hlimit => (s.graph.ahead_le_length _ way).trans hlimit
  refine ⟨⟨s.node s.graph.nodes.length way id, ?_, ?_, ?_⟩, fun limit => ⟨fun watch => ?_, ?_⟩, ?_,
    ?_⟩
  · intro limit hlimit
    exact node_eq_node (hahead limit hlimit) (hahead _ le_rfl) id
  · exact node_ne_tooDeep _ (hahead _ le_rfl) id
  · intro hcases
    exact exists_node_eq_ok hcases le_rfl way id
  · exact outcome_watched watch limit way id
  · exact watched_nothing limit way id
  · intro limit way' id' hcomes
    obtain ⟨added, hway, hnodup, hadded⟩ := hcomes.descends.exists_added
    have hsub : added ⊆ s.graph.nodes.map Node.id := by
      intro a ha
      obtain ⟨n, hn, rfl⟩ := (hadded a ha).2
      exact List.mem_map_of_mem hn
    have hlength : added.length ≤ s.graph.nodes.length := by
      simpa using hnodup.length_le_of_subset hsub
    exact ⟨added, hway, hnodup, hadded, hlength⟩
  · intro limit body h depth line hline
    obtain ⟨p, hp, hindentation, -⟩ :=
      Stmt.exists_part_of_mem_lines (carriesOut_of_mem_parts h) hline
    obtain ⟨hlow, hhigh⟩ := depth_bounds_of_mem_parts h hp
    have hcount := s.graph.ahead_le_countP Node.branches way
    exact ⟨p.1, hindentation, hlow, by omega⟩

end LogicGraph
