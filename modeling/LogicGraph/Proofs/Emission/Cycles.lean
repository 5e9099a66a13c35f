import LogicGraph.Proofs.Emission.Members
import LogicGraph.Proofs.Emission.Steps

set_option relaxedAutoImplicit false
set_option autoImplicit false

/-!
# When a cycle is remarked

A node on its own way is not carried out again. In its place stands a statement that does nothing,
with a remark that names the node. Such a remark is found among the lines for a node exactly if a
cycle can be reached from there, and the node that it names is on one. A node that is carried out
twice, at the ends of two ways or of two edges, is not remarked upon.

## Main definitions

* `LogicGraph.Graph.EntersCycle` — from an id a cycle can be reached.

## Main results

* `LogicGraph.Scope.exists_of_cycle?_eq_some` — a statement that names a node has met it on a cycle.
* `LogicGraph.Scope.exists_pass_of_entersCycle` — where a cycle can be reached, there is such a
  statement.
* `LogicGraph.Graph.cycle_remarked_iff` — both, for the lines that are printed.
-/

namespace LogicGraph

namespace Graph

variable {g : Graph}

/-- From an id, or at the id itself, there is a cycle of steps along body ports. -/
def EntersCycle (g : Graph) (id : String) : Prop :=
  ∃ c, (c = id ∨ g.Reaches id c) ∧ g.Reaches c c

/-- What enters a cycle has a next step, from where the cycle is still to be entered. -/
lemma EntersCycle.exists_leads {id : String} (h : g.EntersCycle id) :
    ∃ next, g.Leads id next ∧ g.EntersCycle next := by
  obtain ⟨c, hc, hcycle⟩ := h
  have hreaches : g.Reaches id c := by
    rcases hc with rfl | hreaches
    · exact hcycle
    · exact hreaches
  obtain ⟨next, hleads, hrest⟩ := Relation.TransGen.head'_iff.mp hreaches
  exact ⟨next, hleads, c, Relation.reflTransGen_iff_eq_or_transGen.mp hrest, hcycle⟩

end Graph

namespace Scope

variable {s : Scope} {limit d : Nat} {way : List String} {id : String} {body : List Stmt}

/-- **A statement that names a node has met it on a cycle**, if all that is on the way reaches the
node where the walk is.

**Proof sketch.** By induction on the limit. The statement stands for a node on its own way, which
then reaches itself; or it comes from the walk from a target, which is reached by all that was on
the way and by the node that has been left. -/
lemma exists_of_cycle?_eq_some {p : Nat × Stmt} {name : String}
    (h : (s.node limit way id).outcome = .ok body) (hway : ∀ w ∈ way, s.graph.Reaches w id)
    (hp : p ∈ Stmt.partsAll d body) (hname : p.2.cycle? = some name) :
    ∃ n ∈ s.graph.nodes, s.nameOf n = name ∧ (n.id = id ∨ s.graph.Reaches id n.id) ∧
      s.graph.Reaches n.id n.id := by
  induction limit using Nat.strongRecOn generalizing way id d body with
  | ind limit ih =>
    rcases part_cases_node h hp with
      ⟨n, hn, rfl, hmem, rfl⟩ | ⟨n, -, -, -, rest, rfl, ⟨-, hown, -⟩ | ⟨t, hleads, b, hb, hp⟩⟩
    · exact ⟨n, hn, Option.some.inj hname, .inl rfl, hway n.id hmem⟩
    · rw [hown] at hname
      cases hname
    · have hnext : ∀ w ∈ id :: way, s.graph.Reaches w t := by
        rw [List.forall_mem_cons]
        exact ⟨.single hleads, fun w hw => (hway w hw).tail hleads⟩
      obtain ⟨n, hn, hnameOf, hreached, hcycle⟩ := ih rest (Nat.lt_succ_self rest) hb hnext hp
      refine ⟨n, hn, hnameOf, .inr ?_, hcycle⟩
      rcases hreached with rfl | hreached
      · exact .single hleads
      · exact .head hleads hreached

/-- **Where a cycle can be entered, there is a statement that names a node.**

**Proof sketch.** By induction on the limit. The walk that enters a cycle always has a next step, so
it cannot end at a missing node or at one without targets. It ends with statements, hence it has
come to a node on its own way. -/
lemma exists_pass_of_entersCycle (h : (s.node limit way id).outcome = .ok body)
    (hcycle : s.graph.EntersCycle id) (d : Nat) :
    ∃ e name, (e, Stmt.pass (some name)) ∈ Stmt.partsAll d body := by
  induction limit using Nat.strongRecOn generalizing way id d body with
  | ind limit ih =>
    obtain ⟨next, hleads, hnext⟩ := hcycle.exists_leads
    rcases node_eq_ok h with ⟨hnone, -⟩ | ⟨n, -, -, rfl⟩ | ⟨n, rest, hn, -, rfl, hstep⟩
    · obtain ⟨n, hn, -⟩ := hleads.exists_node
      rw [hn] at hnone
      cases hnone
    · exact ⟨d, s.nameOf n, List.mem_singleton.mpr rfl⟩
    · obtain ⟨-, rfl⟩ := Graph.node?_eq_some_iff.mp hn
      obtain ⟨b, hb, -, hparts⟩ := (gives_existing hstep).exists_of_leads hn hleads
      obtain ⟨e, name, hp⟩ := ih rest (Nat.lt_succ_self rest) hb hnext (d + n.branches.toNat)
      exact ⟨e, name, hparts d hp⟩

end Scope

/-- **When a cycle is remarked.** If as many nodes may follow as the graph has and no case has an
integer that is too long, then the walk from an id ends with statements. Whenever it does, one of
their lines, at any depth, has a remark about a cycle exactly if the id or something reached from it
lies on a cycle of steps along body ports; and the one node with the name in the remark lies on such
a cycle. -/
theorem Graph.cycle_remarked_iff (g : Graph) (r : NameRules) (id : String) (limit depth : Nat) :
    let s : Scope := ⟨g, NameTable.ofGraph g r⟩
    (g.nodes.length ≤ limit → g.WritableCases → ∃ body, (s.node limit [] id).outcome = .ok body) ∧
    ∀ body, (s.node limit [] id).outcome = .ok body →
      ((∃ line ∈ Stmt.lines depth body, (cycleName? line).isSome = true) ↔
        ∃ c, (c = id ∨ g.Reaches id c) ∧ g.Reaches c c) ∧
      ∀ line ∈ Stmt.lines depth body, ∀ name, cycleName? line = some name →
        ∃ n ∈ g.nodes, s.nameOf n = name ∧ g.Reaches n.id n.id ∧
          ∀ m ∈ g.nodes, s.nameOf m = name → m = n := by
  intro s
  refine ⟨?_, fun body h => ?_⟩
  · intro hlimit hcases
    exact Scope.exists_node_eq_ok (s := s) hcases hlimit [] id
  -- every line that names a node comes from a statement that has met it on a cycle
  have hmet : ∀ line ∈ Stmt.lines depth body, ∀ name, cycleName? line = some name →
      ∃ n ∈ g.nodes, s.nameOf n = name ∧ (n.id = id ∨ g.Reaches id n.id) ∧ g.Reaches n.id n.id := by
    intro line hline name hname
    obtain ⟨p, hp, -, hcycle⟩ :=
      Stmt.exists_part_of_mem_lines (Scope.carriesOut_of_mem_parts h) hline
    exact Scope.exists_of_cycle?_eq_some h (by simp) hp (hcycle.symm.trans hname)
  refine ⟨⟨?_, fun hcycle => ?_⟩, fun line hline name hname => ?_⟩
  · rintro ⟨line, hline, hsome⟩
    obtain ⟨name, hname⟩ := Option.isSome_iff_exists.mp hsome
    obtain ⟨n, -, -, hreached, hcycle⟩ := hmet line hline name hname
    exact ⟨n.id, hreached, hcycle⟩
  · obtain ⟨e, name, hp⟩ := Scope.exists_pass_of_entersCycle h hcycle depth
    obtain ⟨line, hline, hname⟩ := Stmt.exists_line_of_mem_parts hp
    exact ⟨line, hline, Option.isSome_iff_exists.mpr ⟨name, hname⟩⟩
  · obtain ⟨n, hn, rfl, -, hcycle⟩ := hmet line hline name hname
    exact ⟨n, hn, rfl, hcycle, fun m hm heq => NameTable.eq_of_name_eq r hm hn heq⟩

-- two edges lead to `b`, and three ways to `d`, but nothing leads back
example :
    let g : Graph :=
      { nodes :=
        [{ id := "a", kind := .ifElse }, { id := "b", kind := .ifElse },
          { id := "c", kind := .ifElse }, { id := "d", kind := .math }]
        edges :=
          [⟨"e1", "a", "default_branch", "b", "exec"⟩, ⟨"e2", "a", "default_branch", "b", "exec"⟩,
          ⟨"e3", "a", "default_branch", "c", "exec"⟩, ⟨"e4", "b", "default_branch", "d", "a"⟩,
          ⟨"e5", "c", "default_branch", "d", "a"⟩]
        nodes_nodup := by decide }
    ((Scope.node ⟨g, ⟨[("d", "d")]⟩⟩ 3 [] "a").outcome.toOption.map fun body =>
      (Stmt.lines 0 body).map cycleName?) =
      some [none, none, none] := by
  rfl

end LogicGraph
