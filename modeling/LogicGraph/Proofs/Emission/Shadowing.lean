import LogicGraph.Proofs.Emission.GivenNames

set_option relaxedAutoImplicit false
set_option autoImplicit false

/-!
# Variables of a simulation that hide a method

A simulation has four methods, and three of their names are reserved. The name of the fourth, the
constructor, is given to the first node that asks for it, like any other name. If that node declares
a variable, then the constructor assigns a variable that hides the constructor itself.

## Main results

* `LogicGraph.NameTable.name_eq_iff_find?` — a name that is not reserved goes to the first node that
  asks for it.
* `LogicGraph.Target.unshadowed_iff_of_simulation` — when the variables of a simulation hide no
  method.
-/

namespace LogicGraph

/-! ## Who gets a name -/

/-- A name with a number behind ends with a digit. -/
lemma numbered_ne {x : String} (hx : ∀ c ∈ x.toList.getLast?, c.isDigit = false) (base : String)
    (k : Nat) :
    numbered base k ≠ x := by
  rintro rfl
  have hchars : (numbered base k).toList = base.toList ++ "_".toList ++ Nat.toDigits 10 k := by
    simp [numbered, toString, Nat.toList_repr]
  have hlast := List.getLast?_eq_some_getLast (Nat.toDigits_ne_nil (b := 10) (n := k))
  have hdigit :=
    Nat.isDigit_of_mem_toDigits (b := 10) (by decide) (by decide) (List.mem_of_getLast? hlast)
  rw [hchars, List.getLast?_append, hlast, Option.some_or] at hx
  rw [hx _ rfl] at hdigit
  cases hdigit

namespace NameTable

section FirstRound

variable {g : Graph} {r : NameRules} {n : Node} {x : String}

/-- A name without a number goes to a node that asks for it. -/
lemma baseName_eq_of_name_eq (hx : ∀ c ∈ x.toList.getLast?, c.isDigit = false) (hn : n ∈ g.nodes)
    (hname : (ofGraph g r.firstRound).name n.id = x) : n.baseName = x := by
  obtain ⟨front, behind, h⟩ := List.append_of_mem hn
  rcases isFirstFree_firstRound (r := r) h with ⟨-, heq⟩ | ⟨-, k, -, heq⟩
  · rw [← heq, hname]
  · exact absurd (heq.symm.trans hname) (numbered_ne hx n.baseName k)

/-- If a node asks for a name that is not reserved, then it gets the name, or one in front of it has
got it. -/
lemma exists_name_eq_of_baseName_eq (hreserved : x ∉ r.reserved) {front behind : List Node}
    (h : g.nodes = front ++ n :: behind) (hbase : n.baseName = x) :
    ∃ m ∈ front ++ [n], (ofGraph g r.firstRound).name m.id = x := by
  rcases isFirstFree_firstRound (r := r) h with ⟨-, heq⟩ | ⟨htaken, -⟩
  · exact ⟨n, List.mem_append_right _ List.mem_cons_self, heq.trans hbase⟩
  · rw [hbase] at htaken
    rcases htaken with htaken | ⟨m, hm, heq⟩
    · exact absurd htaken hreserved
    · exact ⟨m, List.mem_append_left _ hm, heq.symm⟩

/-- **Who gets a name** that is not reserved and has no number: the first node that asks for it.

**Proof sketch.** Whoever has the name has asked for it. Were there a node in front that asks for it
too, then that one, or one still further in front, would have the name; but no two nodes have it. -/
lemma name_eq_iff_find? (hreserved : x ∉ r.reserved)
    (hx : ∀ c ∈ x.toList.getLast?, c.isDigit = false) (hn : n ∈ g.nodes) :
    (ofGraph g r.firstRound).name n.id = x ↔ g.nodes.find? (·.baseName == x) = some n := by
  rw [List.find?_eq_some_iff_append]
  simp only [beq_iff_eq, Bool.not_eq_true', beq_eq_false_iff_ne]
  constructor
  · intro hname
    obtain ⟨front, behind, h⟩ := List.append_of_mem hn
    refine ⟨baseName_eq_of_name_eq hx hn hname, front, behind, h, ?_⟩
    intro m hm hbase
    obtain ⟨before, between, hfront⟩ := List.append_of_mem hm
    have hsplit : g.nodes = before ++ m :: (between ++ n :: behind) := by
      rw [h, hfront, List.append_assoc, List.cons_append]
    obtain ⟨first, hfirst, hgot⟩ := exists_name_eq_of_baseName_eq hreserved hsplit hbase
    have hmem : first ∈ front := by
      rw [hfront, List.append_cons]
      exact List.mem_append_left _ hfirst
    obtain rfl : first = n :=
      eq_of_name_eq r.firstRound (h ▸ List.mem_append_left _ hmem) hn (hgot.trans hname.symm)
    -- the node itself would stand twice in the graph
    have hnodup := g.nodes_nodup
    rw [h, List.map_append, List.map_cons] at hnodup
    exact (List.nodup_append.mp hnodup).2.2 _ (List.mem_map_of_mem hmem) _ List.mem_cons_self rfl
  · rintro ⟨hbase, front, behind, h, hothers⟩
    obtain ⟨m, hm, hgot⟩ := exists_name_eq_of_baseName_eq hreserved h hbase
    rcases List.mem_append.mp hm with hm | hm
    · have hmem : m ∈ g.nodes := h ▸ List.mem_append_left _ hm
      exact absurd (baseName_eq_of_name_eq hx hmem hgot) (hothers m hm)
    · rwa [← List.mem_singleton.mp hm]

end FirstRound

end NameTable

/-! ## Variables that hide methods -/

namespace Target

variable {limit : Nat} {g : Graph} {p : Program}

/-- The methods of a simulation. -/
lemma map_name_methods_simulation (h : (Target.simulation.program limit g).outcome = .ok p) :
    (p.constructor :: p.methods).map Method.name =
      ["__init__", "get_observation", "reset", "step"] := by
  simp only [program, simulationProgram, Audited.outcome_bind_eq_ok, Audited.outcome_pure,
    Except.ok.injEq] at h
  obtain ⟨-, -, initial, -, reset, -, evaluation, -, reward, -, -, -, rfl⟩ := h
  rfl

/-- The names of the methods besides the constructor are reserved. -/
lemma nameOf_simulation_not_mem {n : Node} (hn : n ∈ g.nodes) :
    Target.simulation.nameOf g n ∉ ["get_observation", "reset", "step"] := by
  have hreserved : Target.simulation.nameOf g n ∉ simulationRules.reserved :=
    NameTable.name_not_mem_reserved hn
  intro hmem
  refine hreserved ?_
  revert hmem
  generalize Target.simulation.nameOf g n = x
  simp only [simulationRules, List.mem_cons, List.not_mem_nil, or_false]
  tauto

/-- The node with the name of the constructor is the first one that asks for it. -/
lemma nameOf_simulation_eq_constructor_iff {n : Node} (hn : n ∈ g.nodes) :
    Target.simulation.nameOf g n = "__init__" ↔ g.nodes.find? (·.baseName == "__init__") = some n :=
  NameTable.name_eq_iff_find? (r := simulationRules) (by decide) (by decide) hn

/-- **A variable of a simulation hides a method exactly if it has the name of the constructor.** No
variable is called like one of the other methods. A variable is called like the constructor exactly
if the first node that asks for this name declares a variable; and so this is what has to be
excluded for every method to be callable. -/
theorem unshadowed_iff_of_simulation (limit : Nat) (g : Graph) (p : Program)
    (h : (Target.simulation.program limit g).outcome = .ok p) :
    p.text = unlines (Target.simulation.print g.name p.constructor p.methods) ∧
    (p.constructor :: p.methods).map Method.name =
      ["__init__", "get_observation", "reset", "step"] ∧
    (∀ x ∈ p.constructor.print.filterMap assignedName?, ∀ m ∈ p.methods, m.name ≠ x) ∧
    ((∀ x ∈ p.constructor.print.filterMap assignedName?,
        ∀ m ∈ p.constructor :: p.methods, m.name ≠ x) ↔
      ∀ n ∈ g.nodes.find? (·.baseName == "__init__"), n.declaresVariable = false) := by
  have hnames := map_name_methods_simulation h
  obtain ⟨hconstructor, hmethods⟩ := List.cons.inj hnames
  have hassigned := filterMap_assignedName?_constructor h
  have hother : ∀ x ∈ p.constructor.print.filterMap assignedName?, ∀ m ∈ p.methods, m.name ≠ x := by
    rw [hassigned, List.forall_mem_map]
    rintro n hn m hm heq
    refine nameOf_simulation_not_mem (List.mem_of_mem_filter hn) ?_
    rw [← heq, ← hmethods]
    exact List.mem_map_of_mem hm
  have hfirst : (∀ x ∈ p.constructor.print.filterMap assignedName?, "__init__" ≠ x) ↔
      ∀ n ∈ g.nodes.find? (·.baseName == "__init__"), n.declaresVariable = false := by
    rw [hassigned, List.forall_mem_map]
    constructor
    · intro hfree n hfound
      have hn : n ∈ g.nodes := List.mem_of_find?_eq_some hfound
      by_contra hdeclares
      rw [Bool.not_eq_false] at hdeclares
      exact hfree n (List.mem_filter.mpr ⟨hn, hdeclares⟩)
        ((nameOf_simulation_eq_constructor_iff hn).mpr hfound).symm
    · intro hfree n hn heq
      obtain ⟨hn, hdeclares⟩ := List.mem_filter.mp hn
      have hfalse := hfree n ((nameOf_simulation_eq_constructor_iff hn).mp heq.symm)
      rw [hfalse] at hdeclares
      cases hdeclares
  refine ⟨by rw [p.text_eq_unlines_print, print_program h], hnames, hother, ?_⟩
  simp only [List.forall_mem_cons, hconstructor]
  rw [← hfirst]
  exact ⟨fun hfree x hx => (hfree x hx).1, fun hfree x hx => ⟨hfree x hx, hother x hx⟩⟩

/-- Nodes that ask for the names of all four methods, the first of them for that of the constructor.
It has no variable. -/
def namedLikeMethods : Graph where
  nodes := [
    { id := "a", kind := .reward, customName := some "--Init  " },
    { id := "b", kind := .cell, variableName := some "__init__", value := .string "low" },
    { id := "reset", kind := .object, value := .bool false },
    { id := "c", kind := .player, customName := some "STEP", value := .string "high" },
    { id := "d", kind := .math, customName := some "get observation", value := .bool true }]
  nodes_nodup := by simp

/-- No method of the simulation of `namedLikeMethods` is hidden. -/
theorem unshadowed_namedLikeMethods :
    ∃ p, (Target.simulation.program 2 namedLikeMethods).outcome = .ok p ∧
    ∀ x ∈ p.constructor.print.filterMap assignedName?,
      ∀ m ∈ p.constructor :: p.methods, m.name ≠ x :=
  ⟨_, rfl, (unshadowed_iff_of_simulation 2 namedLikeMethods _ rfl).2.2.2.mpr (by decide)⟩

/-- One variable, with the name of the constructor. -/
def namedLikeConstructor : Graph where
  nodes := [{ id := "a", kind := .cell, customName := some "__init__", value := .bool true }]
  nodes_nodup := by simp

/-- The variable of `namedLikeConstructor` hides the constructor that assigns it. -/
theorem shadowed_constructor :
    ∃ p, (Target.simulation.program 2 namedLikeConstructor).outcome = .ok p ∧
    ∃ x ∈ p.constructor.print.filterMap assignedName?,
      ∃ m ∈ p.constructor :: p.methods, m.name = x := by
  obtain ⟨p, hp⟩ : ∃ p, (Target.simulation.program 2 namedLikeConstructor).outcome = .ok p :=
    ⟨_, rfl⟩
  obtain ⟨hconstructor, -⟩ := List.cons.inj (map_name_methods_simulation hp)
  refine ⟨p, hp, "__init__", ?_, p.constructor, List.mem_cons_self, hconstructor⟩
  rw [filterMap_assignedName?_constructor hp]
  decide

end Target

end LogicGraph
