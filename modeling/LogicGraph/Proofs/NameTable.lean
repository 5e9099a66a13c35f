import Mathlib.Data.List.Forall2
import Mathlib.Data.List.Nodup
import Mathlib.Order.Bounds.Defs
import Mathlib.Tactic.Common
import LogicGraph.Naming

set_option relaxedAutoImplicit false
set_option autoImplicit false

/-!
# Names of nodes are distinct

Names are given out in two rounds. The first serves the nodes in order and never gives out a name
that is reserved or that a node in front has got. In the second round some nodes give up the name of
a method for one that nobody holds. After both rounds every node has a name of its own.

## Main results

* `LogicGraph.isLeast_freeNumber` — the search for a free number finds the least one.
* `LogicGraph.claim_not_mem` — a claimed name is free.
* `LogicGraph.nodup_claimAll`, `LogicGraph.nodup_yieldHandlers` — what each of the two rounds gives
  out is distinct.
* `LogicGraph.NameRules.nodup_apply` — what both rounds give out is distinct.
* `LogicGraph.NameTable.name_eq_of_mem_apply` — a node is found under the name it was given.
* `LogicGraph.NameRules.forall₂_apply` — names depend on the kinds of nodes and on what they ask for
  alone.

## Design

A name that is given up stays taken. In the second round a node therefore keeps the name it had or
gets one that no node held before, and this is all that has to be known about the round.
-/

namespace LogicGraph

/-! ## Free numbers -/

/-- An identifier with another number behind is another identifier. -/
lemma numbered_injective (base : String) : Function.Injective (numbered base) := by
  intro i j h
  have hchars : base.toList ++ "_".toList ++ Nat.toDigits 10 i = base.toList ++ "_".toList ++
      Nat.toDigits 10 j := by
    simpa [numbered, Nat.toList_repr] using congrArg String.toList h
  have hdigits := congrArg (Nat.ofDigitChars 10 · 0) (List.append_cancel_left hchars)
  simpa [Nat.ofDigitChars_toDigits] using hdigits

/-- Among more numbers in a row than there are taken names, one makes a free identifier. -/
lemma exists_free_number (taken : List String) (base : String) (k : Nat) :
    ∃ i, k ≤ i ∧ i < k + (taken.length + 1) ∧ numbered base i ∉ taken := by
  by_contra hno
  push Not at hno
  -- were all of them taken, there would be too many distinct taken names
  have hsub : (List.range' k (taken.length + 1)).map (numbered base) ⊆ taken := by
    intro name hname
    obtain ⟨i, hi, rfl⟩ := List.mem_map.mp hname
    rw [List.mem_range'_1] at hi
    exact hno i hi.1 hi.2
  have hnodup : ((List.range' k (taken.length + 1)).map (numbered base)).Nodup :=
    (List.nodup_range' 1).map (numbered_injective base)
  have hle := hnodup.length_le_of_subset hsub
  rw [List.length_map, List.length_range'] at hle
  omega

/-- The search for a number goes on to the least free one, if it is allowed to get that far. -/
lemma isLeast_freeNumber_of_free {taken : List String} {base : String} {fuel k i : Nat}
    (hki : k ≤ i) (hi : i < k + fuel) (hfree : numbered base i ∉ taken) :
    IsLeast {j | k ≤ j ∧ numbered base j ∉ taken} (freeNumber taken base fuel k) := by
  induction fuel generalizing k with
  | zero => omega
  | succ fuel ih =>
    rw [freeNumber]
    split_ifs with hk
    · have hne : k ≠ i := by
        rintro rfl
        exact hfree hk
      obtain ⟨⟨hle, hnot⟩, hleast⟩ := ih (k := k + 1) (by omega) (by omega)
      refine ⟨⟨by omega, hnot⟩, ?_⟩
      rintro j ⟨hkj, hj⟩
      have hkj' : k ≠ j := by
        rintro rfl
        exact hj hk
      exact hleast ⟨by omega, hj⟩
    · exact ⟨⟨Nat.le_refl k, hk⟩, fun j hj => hj.1⟩

/-- **The search for a free number finds the least one.** -/
lemma isLeast_freeNumber (taken : List String) (base : String) (k : Nat) :
    IsLeast {j | k ≤ j ∧ numbered base j ∉ taken} (freeNumber taken base (taken.length + 1) k) := by
  obtain ⟨i, hki, hi, hfree⟩ := exists_free_number taken base k
  exact isLeast_freeNumber_of_free hki hi hfree

/-- **A claimed name is free.** -/
lemma claim_not_mem (taken : List String) (base : String) : claim taken base ∉ taken := by
  unfold claim
  split_ifs with hbase
  · exact (isLeast_freeNumber taken base 2).1.2
  · exact hbase

/-! ## The first round -/

/-- The first round serves the nodes in order. -/
@[simp] lemma map_fst_claimAll (taken : List String) (nodes : List Node) :
    (claimAll taken nodes).map Prod.fst = nodes := by
  induction nodes generalizing taken with
  | nil => rfl
  | cons n rest ih => rw [claimAll, List.map_cons, ih]

/-- The first round gives out free names. -/
lemma not_mem_of_mem_claimAll {taken : List String} {nodes : List Node} {p : Node × String}
    (h : p ∈ claimAll taken nodes) : p.2 ∉ taken := by
  induction nodes generalizing taken with
  | nil => simp [claimAll] at h
  | cons n rest ih =>
    rw [claimAll] at h
    rcases List.mem_cons.mp h with rfl | h
    · exact claim_not_mem taken n.baseName
    · exact fun htaken => ih h (List.mem_cons_of_mem _ htaken)

/-- **The first round gives out distinct names.** -/
lemma nodup_claimAll (taken : List String) (nodes : List Node) :
    ((claimAll taken nodes).map Prod.snd).Nodup := by
  induction nodes generalizing taken with
  | nil => exact List.nodup_nil
  | cons n rest ih =>
    rw [claimAll, List.map_cons, List.nodup_cons]
    refine ⟨?_, ih _⟩
    intro hmem
    obtain ⟨p, hp, heq⟩ := List.mem_map.mp hmem
    exact not_mem_of_mem_claimAll hp (heq ▸ List.mem_cons_self)

/-! ## The second round -/

section Yield

variable {kinds : List Kind} {handlers taken : List String} {named : List (Node × String)}
  {p : Node × String}

/-- The second round keeps the nodes and their order. -/
@[simp] lemma map_fst_yieldHandlers :
    (yieldHandlers kinds handlers taken named).map Prod.fst = named.map Prod.fst := by
  induction named generalizing taken with
  | nil => rfl
  | cons q rest ih =>
    rw [yieldHandlers]
    split_ifs
    · rw [List.map_cons, List.map_cons, ih]
    · rw [List.map_cons, List.map_cons, ih]

/-- In the second round a node keeps its name, or gets a free one. -/
lemma mem_or_not_mem_of_mem_yieldHandlers (h : p ∈ yieldHandlers kinds handlers taken named) :
    p ∈ named ∨ p.2 ∉ taken := by
  induction named generalizing taken with
  | nil => simp [yieldHandlers] at h
  | cons q rest ih =>
    rw [yieldHandlers] at h
    split_ifs at h
    · rcases List.mem_cons.mp h with rfl | h
      · exact .inl List.mem_cons_self
      · exact (ih h).imp_left (List.mem_cons_of_mem _)
    · rcases List.mem_cons.mp h with rfl | h
      · exact .inr (claim_not_mem taken q.2)
      · rcases ih h with hrest | hnot
        · exact .inl (List.mem_cons_of_mem _ hrest)
        · exact .inr fun htaken => hnot (List.mem_cons_of_mem _ htaken)

/-- A node whose kind has methods keeps its name in the second round. -/
lemma mem_of_mem_yieldHandlers (h : p ∈ yieldHandlers kinds handlers taken named)
    (hk : p.1.kind ∈ kinds) :
    p ∈ named := by
  induction named generalizing taken with
  | nil => simp [yieldHandlers] at h
  | cons q rest ih =>
    rw [yieldHandlers] at h
    split_ifs at h with hcond
    · rcases List.mem_cons.mp h with rfl | h
      · exact List.mem_cons_self
      · exact List.mem_cons_of_mem _ (ih h)
    · rcases List.mem_cons.mp h with rfl | h
      · exact absurd (by simp [hk]) hcond
      · exact List.mem_cons_of_mem _ (ih h)

/-- A node whose kind has no methods holds no name of a method after the second round. -/
lemma not_mem_handlers_of_mem_yieldHandlers (hsub : handlers ⊆ taken)
    (h : p ∈ yieldHandlers kinds handlers taken named) (hk : p.1.kind ∉ kinds) :
    p.2 ∉ handlers := by
  induction named generalizing taken with
  | nil => simp [yieldHandlers] at h
  | cons q rest ih =>
    rw [yieldHandlers] at h
    split_ifs at h with hcond
    · rcases List.mem_cons.mp h with rfl | h
      · simpa [hk] using hcond
      · exact ih hsub h
    · rcases List.mem_cons.mp h with rfl | h
      · exact fun hmem => claim_not_mem taken q.2 (hsub hmem)
      · exact ih (List.subset_cons_of_subset _ hsub) h

/-- **The second round gives out distinct names**, if the names before were distinct and all of them
are taken. -/
lemma nodup_yieldHandlers (hnodup : (named.map Prod.snd).Nodup)
    (htaken : ∀ q ∈ named, q.2 ∈ taken) :
    ((yieldHandlers kinds handlers taken named).map Prod.snd).Nodup := by
  induction named generalizing taken with
  | nil => exact List.nodup_nil
  | cons q rest ih =>
    rw [List.map_cons, List.nodup_cons] at hnodup
    obtain ⟨hq, hrest⟩ := List.forall_mem_cons.mp htaken
    rw [yieldHandlers]
    split_ifs
    · rw [List.map_cons, List.nodup_cons]
      refine ⟨?_, ih hnodup.2 hrest⟩
      intro hmem
      obtain ⟨r, hr, heq⟩ := List.mem_map.mp hmem
      rcases mem_or_not_mem_of_mem_yieldHandlers hr with hold | hnot
      · exact hnodup.1 (heq ▸ List.mem_map_of_mem hold)
      · exact hnot (heq ▸ hq)
    · rw [List.map_cons, List.nodup_cons]
      refine ⟨?_, ih hnodup.2 fun r hr => List.mem_cons_of_mem _ (hrest r hr)⟩
      intro hmem
      obtain ⟨r, hr, heq⟩ := List.mem_map.mp hmem
      rcases mem_or_not_mem_of_mem_yieldHandlers hr with hold | hnot
      · have htaken : claim taken q.2 ∈ taken := heq.subst (motive := (· ∈ taken)) (hrest r hold)
        exact claim_not_mem taken q.2 htaken
      · exact hnot (heq ▸ List.mem_cons_self)

end Yield

/-! ## What names depend on -/

/-- Two nodes of one kind with one name. -/
def SameClaim (p q : Node × String) : Prop :=
  p.1.kind = q.1.kind ∧ p.2 = q.2

/-- Two nodes of one kind that ask for one name. -/
def Node.AsksAlike (m n : Node) : Prop :=
  m.kind = n.kind ∧ m.baseName = n.baseName

/-- The first round gives the same names to nodes that ask for the same. -/
lemma forall₂_claimAll {nodes nodes' : List Node} (h : List.Forall₂ Node.AsksAlike nodes nodes')
    (taken : List String) :
    List.Forall₂ SameClaim (claimAll taken nodes) (claimAll taken nodes') := by
  induction h generalizing taken with
  | nil => exact .nil
  | cons hhead _ ih =>
    rw [claimAll, claimAll, hhead.2]
    exact .cons ⟨hhead.1, rfl⟩ (ih _)

/-- Nodes of the same kinds with the same names have methods of the same names. -/
lemma handlerNames_congr {kinds : List Kind} {f : String → String}
    {named named' : List (Node × String)} (h : List.Forall₂ SameClaim named named') :
    handlerNames kinds f named = handlerNames kinds f named' := by
  induction h with
  | nil => rfl
  | @cons p q _ _ hhead _ ih =>
    simp only [handlerNames, List.filter_cons, hhead.1] at ih ⊢
    split_ifs
    · rw [List.map_cons, List.map_cons, hhead.2, ih]
    · exact ih

/-- The second round gives the same names to nodes of the same kinds that had the same names
before. -/
lemma forall₂_yieldHandlers {kinds : List Kind} {handlers : List String}
    {named named' : List (Node × String)} (h : List.Forall₂ SameClaim named named')
    (taken : List String) :
    List.Forall₂ SameClaim (yieldHandlers kinds handlers taken named)
      (yieldHandlers kinds handlers taken named') := by
  induction h generalizing taken with
  | nil => exact .nil
  | @cons p q _ _ hhead _ ih =>
    rw [yieldHandlers, yieldHandlers, hhead.1, hhead.2]
    split_ifs
    · exact .cons ⟨hhead.1, rfl⟩ (ih _)
    · exact .cons ⟨hhead.1, rfl⟩ (ih _)

/-! ## Both rounds -/

namespace NameRules

/-- Both rounds keep the nodes and their order. -/
@[simp] lemma map_fst_apply (r : NameRules) (nodes : List Node) :
    (r.apply nodes).map Prod.fst = nodes := by
  unfold apply
  simp only
  split
  · exact map_fst_claimAll _ _
  · rw [map_fst_yieldHandlers, map_fst_claimAll]

/-- No node gets a reserved name. -/
lemma not_mem_reserved_of_mem_apply {r : NameRules} {nodes : List Node} {p : Node × String}
    (h : p ∈ r.apply nodes) :
    p.2 ∉ r.reserved := by
  unfold apply at h
  simp only at h
  split at h
  · exact not_mem_of_mem_claimAll h
  · rcases mem_or_not_mem_of_mem_yieldHandlers h with hold | hnot
    · exact not_mem_of_mem_claimAll hold
    · exact fun hmem => hnot (List.mem_append_right _ hmem)

/-- **Distinct nodes get distinct names.** -/
lemma nodup_apply (r : NameRules) (nodes : List Node) : ((r.apply nodes).map Prod.snd).Nodup := by
  unfold apply
  simp only
  split
  · exact nodup_claimAll _ _
  · refine nodup_yieldHandlers (nodup_claimAll _ _) ?_
    intro q hq
    exact List.mem_append_left _ (List.mem_append_right _ (List.mem_map_of_mem hq))

/-- **Names depend on the kinds of the nodes and on what they ask for alone.** -/
lemma forall₂_apply {nodes nodes' : List Node} (r : NameRules)
    (h : List.Forall₂ Node.AsksAlike nodes nodes') :
    List.Forall₂ SameClaim (r.apply nodes) (r.apply nodes') := by
  have hfirst := forall₂_claimAll h r.reserved
  have hnames : (claimAll r.reserved nodes).map (·.2) = (claimAll r.reserved nodes').map (·.2) :=
    List.forall₂_eq_eq_eq ▸ List.rel_map (fun _ _ hpq => hpq.2) hfirst
  unfold apply
  simp only
  split
  · exact hfirst
  · rw [handlerNames_congr hfirst, hnames]
    exact forall₂_yieldHandlers hfirst _

end NameRules

/-! ## The table -/

namespace NameTable

variable {g : Graph} {r : NameRules}

/-- **A node is found under the name it was given.** -/
lemma name_eq_of_mem_apply {p : Node × String} (h : p ∈ r.apply g.nodes) :
    (ofGraph g r).name p.1.id = p.2 := by
  have hkeys : (((ofGraph g r).entries).map Prod.fst).Nodup := by
    have hmap : (ofGraph g r).entries.map Prod.fst =
        ((r.apply g.nodes).map Prod.fst).map Node.id := by
      rw [ofGraph, List.map_map, List.map_map]
      rfl
    rw [hmap, NameRules.map_fst_apply]
    exact g.nodes_nodup
  have hmem : (p.1.id, p.2) ∈ (ofGraph g r).entries := List.mem_map_of_mem h
  obtain ⟨before, behind, hsplit⟩ := List.append_of_mem hmem
  have hlookup : (ofGraph g r).entries.lookup p.1.id = some p.2 := by
    refine List.lookup_eq_some_iff.mpr ⟨before, behind, hsplit, ?_⟩
    intro q hq
    rw [hsplit, List.map_append, List.map_cons] at hkeys
    have hne :=
      (List.nodup_append.mp hkeys).2.2 q.1 (List.mem_map_of_mem hq) p.1.id List.mem_cons_self
    simpa using hne.symm
  rw [name, name?, hlookup, Option.getD_some]

/-- Every node is given a name, and is found under it. -/
lemma mk_name_mem_apply {n : Node} (hn : n ∈ g.nodes) :
    (n, (ofGraph g r).name n.id) ∈ r.apply g.nodes := by
  rw [← NameRules.map_fst_apply r g.nodes] at hn
  obtain ⟨p, hp, rfl⟩ := List.mem_map.mp hn
  rwa [name_eq_of_mem_apply hp]

/-- The names that the rules give out are those of the table. -/
lemma apply_eq_map_name : r.apply g.nodes = g.nodes.map fun n => (n, (ofGraph g r).name n.id) := by
  calc r.apply g.nodes = (r.apply g.nodes).map id := (List.map_id _).symm
    _ = (r.apply g.nodes).map fun p => (p.1, (ofGraph g r).name p.1.id) :=
        List.map_congr_left fun p hp => Prod.ext rfl (name_eq_of_mem_apply hp).symm
    _ = ((r.apply g.nodes).map Prod.fst).map fun n => (n, (ofGraph g r).name n.id) := by
        rw [List.map_map]
        rfl
    _ = g.nodes.map fun n => (n, (ofGraph g r).name n.id) := by rw [NameRules.map_fst_apply]

/-- **The names of the nodes of a graph are distinct.** -/
lemma nodup_map_name (g : Graph) (r : NameRules) :
    (g.nodes.map fun n => (ofGraph g r).name n.id).Nodup := by
  have hnodup := NameRules.nodup_apply r g.nodes
  rwa [apply_eq_map_name, List.map_map] at hnodup

/-- Two nodes of a graph with one name are the same. -/
lemma eq_of_name_eq (r : NameRules) {m n : Node} (hm : m ∈ g.nodes) (hn : n ∈ g.nodes)
    (h : (ofGraph g r).name m.id = (ofGraph g r).name n.id) : m = n :=
  List.inj_on_of_nodup_map (nodup_map_name g r) hm hn h

/-- Nodes that ask for the same have the same names in the tables of two graphs. -/
lemma forall₂_name {h : Graph} (r : NameRules)
    (hnodes : List.Forall₂ Node.AsksAlike g.nodes h.nodes) :
    List.Forall₂ (fun m n => (ofGraph g r).name m.id = (ofGraph h r).name n.id) g.nodes
      h.nodes := by
  have happly := r.forall₂_apply hnodes
  rw [apply_eq_map_name, apply_eq_map_name, List.forall₂_map_left_iff,
    List.forall₂_map_right_iff] at happly
  exact happly.imp fun _ _ hsame => hsame.2

/-- No node of a graph has a reserved name. -/
lemma name_not_mem_reserved {n : Node} (hn : n ∈ g.nodes) : (ofGraph g r).name n.id ∉ r.reserved :=
  NameRules.not_mem_reserved_of_mem_apply (mk_name_mem_apply hn)

/-- If nodes of some kinds have methods, then no node of another kind has the name of such a
method. -/
lemma name_ne_handlerName {f : String → String} (hf : r.handlerName = some f) {m n : Node}
    (hm : m ∈ g.nodes) (hn : n ∈ g.nodes) (hmk : m.kind ∈ r.handlerKinds)
    (hnk : n.kind ∉ r.handlerKinds) :
    (ofGraph g r).name n.id ≠ f ((ofGraph g r).name m.id) := by
  -- the node with a method keeps its name of the first round, so that its method is among those
  -- given up for
  have happly : r.apply g.nodes = yieldHandlers r.handlerKinds
      (handlerNames r.handlerKinds f (claimAll r.reserved g.nodes))
      (handlerNames r.handlerKinds f (claimAll r.reserved g.nodes) ++
        (claimAll r.reserved g.nodes).map (·.2) ++ r.reserved) (claimAll r.reserved g.nodes) := by
    unfold NameRules.apply
    simp only [hf]
  have hmem : f ((ofGraph g r).name m.id) ∈ handlerNames r.handlerKinds f
      (claimAll r.reserved g.nodes) := by
    have hkept := mem_of_mem_yieldHandlers (happly ▸ mk_name_mem_apply hm) hmk
    exact List.mem_map.mpr ⟨_, List.mem_filter.mpr ⟨hkept, by simpa using hmk⟩, rfl⟩
  intro heq
  refine not_mem_handlers_of_mem_yieldHandlers ?_ (happly ▸ mk_name_mem_apply hn) hnk (heq ▸ hmem)
  exact List.subset_append_of_subset_left _ (List.subset_append_left _ _)

end NameTable

end LogicGraph
