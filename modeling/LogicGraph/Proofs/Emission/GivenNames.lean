import LogicGraph.Proofs.Emission.Members

set_option relaxedAutoImplicit false
set_option autoImplicit false

/-!
# The names that nodes and methods get

A table of names is made in two rounds, and each round is a loop that keeps a list of taken names.
This module says what a table holds without the loops: which name each node gets in the first round,
who gets another one in the second round and which, and that all names of a class, those of its
methods included, are different.

## Main definitions

* `LogicGraph.IsFirstFree` — the first free one among a name and the same name with a number behind.
* `LogicGraph.NameRules.firstRound` — the rules without a second round.

## Main results

* `LogicGraph.isFirstFree_of_claimAll_eq` — what a node gets in the first round.
* `LogicGraph.yieldHandlers_eq_cases` — what can happen to a node in the second round.
* `LogicGraph.NameTable.names_given` — what a table of names holds, and that methods have different
  names.

## Design

Both rounds are read from the front: a round that gives `front ++ p :: behind` has given out the
names of `front`, and no others, when it comes to `p`. The list of taken names matters as a set
alone, so that the order in which the rounds add to it can be forgotten.
-/

namespace LogicGraph

open Text

/-! ## The first free name -/

/-- The name for someone who asks for `base`: `base` itself if it is not taken, and otherwise `base`
with the least number behind, from two on, that makes a name which is not taken. -/
def IsFirstFree (taken : Set String) (base name : String) : Prop :=
  (base ∉ taken ∧ name = base) ∨
    base ∈ taken ∧ ∃ k, IsLeast {j | 2 ≤ j ∧ numbered base j ∉ taken} k ∧ name = numbered base k

/-- The loop over numbers gives the first free name. -/
lemma isFirstFree_claim (taken : List String) (base : String) :
    IsFirstFree {x | x ∈ taken} base (claim taken base) := by
  unfold claim
  split_ifs with hbase
  · exact .inr ⟨hbase, _, isLeast_freeNumber taken base 2, rfl⟩
  · exact .inl ⟨hbase, rfl⟩

/-- If what is asked for is taken, then the first free name has a number. -/
lemma IsFirstFree.exists_numbered {taken : Set String} {base name : String}
    (h : IsFirstFree taken base name) (hbase : base ∈ taken) :
    ∃ k, IsLeast {j | 2 ≤ j ∧ numbered base j ∉ taken} k ∧ name = numbered base k := by
  rcases h with ⟨hnot, -⟩ | ⟨-, h⟩
  · exact absurd hbase hnot
  · exact h

/-- The names that are taken once some nodes have got theirs. -/
def takenAfter (taken : List String) (named : List (Node × String)) : Set String :=
  {x | x ∈ taken ∨ ∃ q ∈ named, x = q.2}

/-- Without nodes no more names are taken. -/
@[simp] lemma takenAfter_nil (taken : List String) : takenAfter taken [] = {x | x ∈ taken} := by
  simp [takenAfter]

/-- A name that is given out is taken from then on. -/
lemma takenAfter_cons (taken : List String) (q : Node × String) (named : List (Node × String)) :
    takenAfter taken (q :: named) = takenAfter (q.2 :: taken) named := by
  ext x
  simp only [takenAfter, Set.mem_ofPred_eq, List.exists_mem_cons_iff]
  rw [List.mem_cons, ← or_assoc, or_comm (a := x ∈ taken)]

/-- A name that was taken before is not taken twice. -/
lemma takenAfter_cons_of_mem {taken : List String} {q : Node × String} (hq : q.2 ∈ taken)
    (named : List (Node × String)) :
    takenAfter taken (q :: named) = takenAfter taken named := by
  ext x
  simp only [takenAfter, Set.mem_ofPred_eq, List.exists_mem_cons_iff]
  constructor
  · rintro (hx | rfl | hx)
    · exact .inl hx
    · exact .inl hq
    · exact .inr hx
  · tauto

/-! ## The first round -/

/-- **What a node gets in the first round**: the first name that is free when all nodes in front of
it have been served.

**Proof sketch.** By induction on what was given out before. The node in front is served first; its
name is then taken, and the round goes on with the rest of the nodes. -/
lemma isFirstFree_of_claimAll_eq {taken : List String} {nodes : List Node}
    {front behind : List (Node × String)} {p : Node × String}
    (h : claimAll taken nodes = front ++ p :: behind) :
    IsFirstFree (takenAfter taken front) p.1.baseName p.2 := by
  induction front generalizing taken nodes with
  | nil =>
    cases nodes with
    | nil => simp [claimAll] at h
    | cons n rest =>
      rw [claimAll, List.nil_append, List.cons.injEq] at h
      obtain ⟨rfl, -⟩ := h
      rw [takenAfter_nil]
      exact isFirstFree_claim taken n.baseName
  | cons q front ih =>
    cases nodes with
    | nil => simp [claimAll] at h
    | cons n rest =>
      rw [claimAll, List.cons_append, List.cons.injEq] at h
      obtain ⟨rfl, hrest⟩ := h
      rw [takenAfter_cons]
      exact ih hrest

/-! ## The second round -/

section Yield

variable {kinds : List Kind} {handlers taken : List String}

/-- **What can happen to a node in the second round**: it keeps its name if its kind has methods or
the name is no name of a method, and otherwise it gets the first name that is free by then.

**Proof sketch.** By induction on the nodes in front. Whatever happens to the first of them, its
name after the round is taken when the round goes on: a name that is kept was taken before. -/
lemma yieldHandlers_eq_cases {front behind front' behind' : List (Node × String)}
    {p p' : Node × String}
    (h : yieldHandlers kinds handlers taken (front ++ p :: behind) = front' ++ p' :: behind')
    (hlength : front.length = front'.length) (htaken : ∀ q ∈ front, q.2 ∈ taken) :
    ((p.1.kind ∈ kinds ∨ p.2 ∉ handlers) ∧ p' = p) ∨
      p.1.kind ∉ kinds ∧ p.2 ∈ handlers ∧ IsFirstFree (takenAfter taken front') p.2 p'.2 := by
  induction front generalizing taken front' with
  | nil =>
    obtain rfl : front' = [] := List.eq_nil_of_length_eq_zero hlength.symm
    rw [List.nil_append, List.nil_append, yieldHandlers] at h
    split_ifs at h with hkeep
    · left
      rw [List.cons.injEq] at h
      exact ⟨by simpa using hkeep, h.1.symm⟩
    · right
      rw [List.cons.injEq] at h
      obtain ⟨rfl, -⟩ := h
      have hgives : p.1.kind ∉ kinds ∧ p.2 ∈ handlers := by simpa using hkeep
      refine ⟨hgives.1, hgives.2, ?_⟩
      rw [takenAfter_nil]
      exact isFirstFree_claim taken p.2
  | cons q front ih =>
    obtain ⟨hq, hfront⟩ := List.forall_mem_cons.mp htaken
    cases front' with
    | nil => simp at hlength
    | cons q' front' =>
      have hlength' : front.length = front'.length := by simpa using hlength
      rw [List.cons_append, List.cons_append, yieldHandlers] at h
      split_ifs at h with hkeep
      · rw [List.cons.injEq] at h
        obtain ⟨rfl, hrest⟩ := h
        rw [takenAfter_cons_of_mem hq]
        exact ih hrest hlength' hfront
      · rw [List.cons.injEq] at h
        obtain ⟨rfl, hrest⟩ := h
        rw [takenAfter_cons]
        exact ih hrest hlength' fun r hr => List.mem_cons_of_mem _ (hfront r hr)

end Yield

/-! ## The table -/

/-- The rules without a second round. -/
def NameRules.firstRound (r : NameRules) : NameRules :=
  { r with handlerName := none }

namespace NameTable

variable {g : Graph} {r : NameRules}

/-- Without a second round, a table holds what the first round gives out. -/
lemma claimAll_eq_map_name :
    claimAll r.reserved g.nodes = g.nodes.map fun n => (n, (ofGraph g r.firstRound).name n.id) :=
  apply_eq_map_name (r := r.firstRound)

/-- The table has one entry for each node, in the order of the nodes. -/
lemma entries_eq_map_name (g : Graph) (r : NameRules) :
    (ofGraph g r).entries = g.nodes.map fun n => (n.id, (ofGraph g r).name n.id) := by
  calc (ofGraph g r).entries = (r.apply g.nodes).map fun p => (p.1.id, p.2) := rfl
    _ = g.nodes.map fun n => (n.id, (ofGraph g r).name n.id) := by
        rw [apply_eq_map_name, List.map_map]
        rfl

/-- The name of a node before the second round. -/
lemma isFirstFree_firstRound {front behind : List Node} {n : Node}
    (h : g.nodes = front ++ n :: behind) :
    IsFirstFree {x | x ∈ r.reserved ∨ ∃ m ∈ front, x = (ofGraph g r.firstRound).name m.id}
      n.baseName ((ofGraph g r.firstRound).name n.id) := by
  have hround := claimAll_eq_map_name (g := g) (r := r)
  rw [h, List.map_append, List.map_cons, ← h] at hround
  simpa [takenAfter] using isFirstFree_of_claimAll_eq hround

/-- The names of methods that the nodes of a graph claim, made from their names before the second
round. -/
def handlers (g : Graph) (r : NameRules) : Set String :=
  {x | ∃ f ∈ r.handlerName, ∃ m ∈ g.nodes, m.kind ∈ r.handlerKinds ∧
    x = f ((ofGraph g r.firstRound).name m.id)}

/-- The second round goes by the names of methods that nodes claim. -/
lemma mem_handlerNames_iff {f : String → String} (hf : r.handlerName = some f) {x : String} :
    x ∈ handlerNames r.handlerKinds f (claimAll r.reserved g.nodes) ↔ x ∈ handlers g r := by
  rw [claimAll_eq_map_name]
  simp [handlerNames, handlers, hf, List.filter_map, and_assoc, eq_comm]

/-- **The name of a node after the second round.** -/
lemma name_cases {front behind : List Node} {n : Node} (h : g.nodes = front ++ n :: behind) :
    ((n.kind ∈ r.handlerKinds ∨ (ofGraph g r.firstRound).name n.id ∉ handlers g r) ∧
        (ofGraph g r).name n.id = (ofGraph g r.firstRound).name n.id) ∨
      n.kind ∉ r.handlerKinds ∧ (ofGraph g r.firstRound).name n.id ∈ handlers g r ∧
        IsFirstFree
          (handlers g r ∪ {x | ∃ m ∈ g.nodes, x = (ofGraph g r.firstRound).name m.id} ∪
            {x | x ∈ r.reserved} ∪ {x | ∃ m ∈ front, x = (ofGraph g r).name m.id})
          ((ofGraph g r.firstRound).name n.id) ((ofGraph g r).name n.id) := by
  cases hf : r.handlerName with
  | none =>
    left
    have hrules : r.firstRound = r := by
      cases r
      cases hf
      rfl
    rw [hrules]
    exact ⟨.inr (by simp [handlers, hf]), rfl⟩
  | some f =>
    have hsplit : ∀ F : Node → Node × String,
        g.nodes.map F = front.map F ++ F n :: behind.map F := by
      intro F
      rw [h, List.map_append, List.map_cons]
    -- the second round as it runs, with the names of both rounds read from the tables
    have hrun : yieldHandlers r.handlerKinds
        (handlerNames r.handlerKinds f (claimAll r.reserved g.nodes))
        (handlerNames r.handlerKinds f (claimAll r.reserved g.nodes) ++
          (claimAll r.reserved g.nodes).map (·.2) ++ r.reserved)
        (g.nodes.map fun m => (m, (ofGraph g r.firstRound).name m.id)) =
        g.nodes.map fun m => (m, (ofGraph g r).name m.id) := by
      rw [← claimAll_eq_map_name, ← apply_eq_map_name]
      unfold NameRules.apply
      simp only [hf]
    have htaken : ∀ q ∈ front.map fun m => (m, (ofGraph g r.firstRound).name m.id),
        q.2 ∈ handlerNames r.handlerKinds f (claimAll r.reserved g.nodes) ++
          (claimAll r.reserved g.nodes).map (·.2) ++ r.reserved := by
      intro q hq
      refine List.mem_append_left _ (List.mem_append_right _ (List.mem_map_of_mem ?_))
      rw [claimAll_eq_map_name, hsplit]
      exact List.mem_append_left _ hq
    have hset : takenAfter (handlerNames r.handlerKinds f (claimAll r.reserved g.nodes) ++
          (claimAll r.reserved g.nodes).map (·.2) ++ r.reserved)
            (front.map fun m => (m, (ofGraph g r).name m.id)) =
        handlers g r ∪ {x | ∃ m ∈ g.nodes, x = (ofGraph g r.firstRound).name m.id} ∪
          {x | x ∈ r.reserved} ∪ {x | ∃ m ∈ front, x = (ofGraph g r).name m.id} := by
      ext x
      simp only [takenAfter, Set.mem_ofPred_eq, Set.mem_union, List.mem_append,
        mem_handlerNames_iff hf]
      rw [claimAll_eq_map_name]
      simp only [List.mem_map, exists_exists_and_eq_and, eq_comm (a := x)]
    rw [hsplit, hsplit] at hrun
    have hcases := yieldHandlers_eq_cases hrun (by simp) htaken
    rw [hset] at hcases
    simpa only [mem_handlerNames_iff hf, Prod.mk.injEq, true_and] using hcases

/-! ## Methods -/

/-- Methods of triggers with different names have different names. -/
lemma triggerMethod_injective : Function.Injective triggerMethod := by
  intro a b h
  have hchars : "on_".toList ++ a.toList ++ "_trigger".toList = "on_".toList ++ b.toList ++
      "_trigger".toList := by
    simpa [triggerMethod, toString] using congrArg String.toList h
  exact String.toList_inj.mp (List.append_cancel_left (List.append_cancel_right hchars))

/-- The method of a trigger has another name than a method whose name begins in another way. -/
lemma triggerMethod_ne {name other : String} (h : other.toList.head? ≠ some 'o') :
    triggerMethod name ≠ other := by
  rintro rfl
  exact h (by simp [triggerMethod, toString])

/-- The constructor of a class has a fixed name. -/
lemma name_constructor {t : Target} {limit : Nat} {g : Graph} {p : Program}
    (h : (t.program limit g).outcome = .ok p) :
    p.constructor.name = "__init__" := by
  cases t with
  | event =>
    simp only [Target.program, eventProgram, Audited.outcome_bind_eq_ok, Audited.outcome_pure,
      Except.ok.injEq] at h
    obtain ⟨-, -, initial, -, entries, -, -, -, rfl⟩ := h
    rfl
  | simulation =>
    simp only [Target.program, simulationProgram, Audited.outcome_bind_eq_ok, Audited.outcome_pure,
      Except.ok.injEq] at h
    obtain ⟨-, -, initial, -, reset, -, evaluation, -, reward, -, -, -, rfl⟩ := h
    rfl

/-- The methods of a class of an event program have different names. -/
lemma nodup_methodNames (g : Graph) :
    ("__init__" :: "get_state" :: (g.nodesOf [.action, .nav]).map fun n =>
      triggerMethod (Target.event.nameOf g n)).Nodup := by
  have hnames : ((g.nodesOf [.action, .nav]).map (Target.event.nameOf g)).Nodup :=
    (nodup_map_name g eventRules).sublist (List.filter_sublist.map _)
  have htriggers := hnames.map triggerMethod_injective
  rw [List.map_map] at htriggers
  have hother : ∀ other : String, other.toList.head? ≠ some 'o' →
      other ∉ (g.nodesOf [.action, .nav]).map fun n => triggerMethod (Target.event.nameOf g n) := by
    intro other hhead hmem
    obtain ⟨n, -, heq⟩ := List.mem_map.mp hmem
    exact triggerMethod_ne hhead heq
  refine List.nodup_cons.mpr ⟨?_, List.nodup_cons.mpr ⟨hother _ (by decide), htriggers⟩⟩
  rw [List.mem_cons, not_or]
  exact ⟨by decide, hother _ (by decide)⟩

/-- **What a table of names holds.** Every node has one name, and different nodes have different
ones. No name is reserved, and all are identifiers. In the first round a node gets the first name
that is free when the nodes in front have theirs. In the second round nodes whose kind has methods
keep their names, and so do those whose name is no name of a method; of the others, each gets the
first number that is free by then. Hence the methods of the class of an event program have different
names. -/
theorem names_given (g : Graph) (r : NameRules) :
    let first := fun n : Node => (ofGraph g r.firstRound).name n.id
    let last := fun n : Node => (ofGraph g r).name n.id
    (ofGraph g r).entries = g.nodes.map (fun n => (n.id, last n)) ∧
    ((ofGraph g r).entries.map Prod.fst).Nodup ∧ ((ofGraph g r).entries.map Prod.snd).Nodup ∧
    (∀ n ∈ g.nodes, last n ∉ r.reserved ∧ IsIdentifier (last n)) ∧
    (∀ front n behind, g.nodes = front ++ n :: behind →
      IsFirstFree {x | x ∈ r.reserved ∨ ∃ m ∈ front, x = first m} n.baseName (first n)) ∧
    (∀ n ∈ g.nodes, n.kind ∈ r.handlerKinds ∨ first n ∉ handlers g r → last n = first n) ∧
    (∀ n ∈ g.nodes, n.kind ∉ r.handlerKinds → last n ∉ handlers g r) ∧
    (∀ front n behind, g.nodes = front ++ n :: behind → n.kind ∉ r.handlerKinds →
      first n ∈ handlers g r →
      ∃ k, IsLeast
          {j | 2 ≤ j ∧ numbered (first n) j ∉ handlers g r ∪ {x | ∃ m ∈ g.nodes, x = first m} ∪
            {x | x ∈ r.reserved} ∪ {x | ∃ m ∈ front, x = last m}} k ∧
        last n = numbered (first n) k) ∧
    (∀ limit p, (Target.event.program limit g).outcome = .ok p →
      (p.constructor :: p.methods).map Method.name =
        "__init__" :: "get_state" :: (g.nodesOf [.action, .nav]).map fun n =>
          triggerMethod (Target.event.nameOf g n)) ∧
    ("__init__" :: "get_state" :: (g.nodesOf [.action, .nav]).map fun n =>
      triggerMethod (Target.event.nameOf g n)).Nodup := by
  intro first last
  have hentries := entries_eq_map_name g r
  have hcases : ∀ n ∈ g.nodes, ∃ front behind, g.nodes = front ++ n :: behind :=
    fun n hn => List.append_of_mem hn
  refine ⟨hentries, ?_, ?_, ?_, fun front n behind h => isFirstFree_firstRound h, ?_, ?_, ?_, ?_,
    nodup_methodNames g⟩
  · rw [hentries, List.map_map]
    exact g.nodes_nodup
  · rw [hentries, List.map_map]
    exact nodup_map_name g r
  · exact fun n hn => ⟨name_not_mem_reserved hn, isIdentifier_name g r n.id⟩
  · intro n hn hkeep
    obtain ⟨front, behind, h⟩ := hcases n hn
    rcases name_cases (r := r) h with ⟨-, heq⟩ | ⟨hkind, hmem, -⟩
    · exact heq
    · exact absurd hkeep (by simp [hkind, first, hmem])
  · intro n hn hkind
    obtain ⟨front, behind, h⟩ := hcases n hn
    rcases name_cases (r := r) h with ⟨hkeep, heq⟩ | ⟨-, hmem, hfree⟩
    · show (ofGraph g r).name n.id ∉ handlers g r
      rw [heq]
      exact hkeep.resolve_left hkind
    · obtain ⟨k, hleast, heq⟩ := hfree.exists_numbered (.inl (.inl (.inl hmem)))
      exact fun hlast => hleast.1.2 (.inl (.inl (.inl (heq ▸ hlast))))
  · intro front n behind h hkind hmem
    rcases name_cases (r := r) h with ⟨hkeep, -⟩ | ⟨-, -, hfree⟩
    · exact absurd hkeep (by simp only [hkind, false_or, not_not]; exact hmem)
    · exact hfree.exists_numbered (.inl (.inl (.inl hmem)))
  · intro limit p h
    rw [List.map_cons, Target.map_name_methods_event h, name_constructor h]

end NameTable

end LogicGraph
