import LogicGraph.Proofs.Document.Strict
import LogicGraph.Proofs.Emission.Coverage
import LogicGraph.Proofs.Number.Numeral

set_option relaxedAutoImplicit false
set_option autoImplicit false

/-!
# The output ports of a choice

A choice is asked for its output ports in two ways. A check reads the number at the end of a port's
name, in digits of any script and with any zeros in front, and wants a case of that number. The walk
makes the name of the port of each case and compares names. The walk follows fewer names: of the
names that the check takes for one case, just the one whose number is plain. An edge by any other of
these names passes a strict check and is never followed.

## Main definitions

* `LogicGraph.SpellsCase` — a name that ends in a number, however it is spelled.
* `LogicGraph.HasPlainNumber` — a name that ends in a plain number.
* `LogicGraph.Graph.Follows` — an edge that is followed when its source is carried out.

## Main results

* `LogicGraph.hasPort_ifElse_iff` — the output ports of a choice for a check.
* `LogicGraph.Node.mem_bodyPorts_iff_of_ifElse` — the output ports of a choice for the walk.
* `LogicGraph.Node.mem_bodyPorts_iff_of_hasPort` — the two differ by the names with a number that is
  not plain.
* `LogicGraph.Node.outputPorts_agree_iff` — when the two agree, and what this means for edges.
-/

namespace LogicGraph

/-- The name of a case port, with the number of the case spelled in any way. -/
def SpellsCase (port : String) (k : Nat) : Prop :=
  ∃ cs, port.toList = casePortStem.toList ++ cs ∧ Numeral.Spells cs k

/-- The name of a case port with a plain number. -/
def HasPlainNumber (port : String) : Prop :=
  ∃ cs, port.toList = casePortStem.toList ++ cs ∧ Numeral.IsPlain cs

/-! ## Names of case ports -/

/-- The characters of a case port: the stem and the digits of its number. -/
lemma toList_casePort (i : Nat) :
    (casePort i).toList = casePortStem.toList ++ Nat.toDigits 10 i := by
  rw [casePort, String.toList_append, Int.toString_eq_repr, Int.repr_eq_if]
  simp [Nat.toList_repr]

/-- A name that is spelled plainly is the one that is made. -/
lemma SpellsCase.hasPlainNumber_iff {port : String} {k : Nat} (h : SpellsCase port k) :
    HasPlainNumber port ↔ port = casePort k := by
  obtain ⟨cs, hcs, hspells⟩ := h
  rw [← String.toList_inj, toList_casePort, hcs, List.append_cancel_left_eq,
    ← Numeral.isPlain_iff_of_spells hspells]
  constructor
  · rintro ⟨cs', hcs', hplain⟩
    rwa [List.append_cancel_left (hcs.symm.trans hcs')]
  · exact fun hplain => ⟨cs, hcs, hplain⟩

/-- A case port has a plain number. -/
lemma hasPlainNumber_casePort (i : Nat) : HasPlainNumber (casePort i) :=
  ⟨_, toList_casePort i, Numeral.isPlain_toDigits i⟩

/-- A case port spells its number, if that is not too long to be read. -/
lemma spellsCase_casePort {i : Nat} (hi : i < 10 ^ Numeral.digitLimit) :
    SpellsCase (casePort i) i :=
  ⟨_, toList_casePort i, Numeral.spells_toDigits hi⟩

/-! ## The check -/

/-- Digits number a case exactly if they spell a number below the count. -/
lemma numbersCase_eq_true_iff {cs : List Char} {count : Nat} :
    Kind.numbersCase cs count = .ok true ↔ ∃ k < count, Numeral.Spells cs k := by
  unfold Kind.numbersCase
  split_ifs with h
  · obtain ⟨hne, hall⟩ := h
    have hmap : ((Numeral.readInt cs).map fun n => decide (n < (count : Int))) = .ok true ↔
        ∃ n, Numeral.readInt cs = .ok n ∧ n < count := by
      cases Numeral.readInt cs <;> simp [Except.map]
    simp only [hmap, Numeral.readInt_eq_ok_iff hne (List.all_eq_true.mp hall)]
    constructor
    · rintro ⟨_, ⟨k, hk, rfl⟩, hlt⟩
      exact ⟨k, Int.ofNat_lt.mp hlt, hk⟩
    · rintro ⟨k, hlt, hk⟩
      exact ⟨k, ⟨k, hk, rfl⟩, Int.ofNat_lt.mpr hlt⟩
  · constructor
    · rintro ⟨⟩
    · rintro ⟨k, -, hk⟩
      exact absurd ⟨hk.1, List.all_eq_true.mpr hk.isDigitLike⟩ h

/-- Among the fixed ports of a choice there is one output port. -/
lemma lookup_ports_ifElse {port : String} :
    (Kind.ifElse.ports.lookup port == some .output) = true ↔ port = defaultBranchPort := by
  simp only [Kind.ports, List.lookup]
  repeat' split
  all_goals simp_all [defaultBranchPort]

/-- **The output ports of a choice for a check.** -/
lemma hasPort_ifElse_iff {port : String} {count : Nat} :
    Kind.ifElse.hasPort port .output count = .ok true ↔
      port = defaultBranchPort ∨ ∃ k < count, SpellsCase port k := by
  have hstem : ∀ {k}, SpellsCase port k →
      ∃ cs, Text.afterStem? casePortStem.toList port.toList = some cs := by
    rintro k ⟨cs, hcs, -⟩
    exact ⟨cs, Text.afterStem?_eq_some_iff.mpr hcs⟩
  by_cases hcondition : port = "condition"
  · subst hcondition
    have hfalse : Kind.ifElse.hasPort "condition" .output count = .ok false := by rfl
    have hnone : Text.afterStem? casePortStem.toList "condition".toList = none := by rfl
    rw [hfalse]
    simp only [hnone] at hstem
    constructor
    · rintro ⟨⟩
    · rintro (h | ⟨k, -, hk⟩)
      · exact absurd h (by decide)
      · obtain ⟨cs, hcs⟩ := hstem hk
        cases hcs
  · simp only [Kind.hasPort, canonicalPort, if_neg hcondition, and_self, if_true]
    cases hafter : Text.afterStem? casePortStem.toList port.toList with
    | none =>
      simp only [Except.ok.injEq, lookup_ports_ifElse]
      refine ⟨.inl, ?_⟩
      rintro (h | ⟨k, -, hk⟩)
      · exact h
      · obtain ⟨cs, hcs⟩ := hstem hk
        rw [hafter] at hcs
        cases hcs
    | some cs =>
      have hdefault : port ≠ defaultBranchPort := by
        rintro rfl
        cases hafter
      have hspells : ∀ k, SpellsCase port k ↔ Numeral.Spells cs k := by
        simp [SpellsCase, Text.afterStem?_eq_some_iff.mp hafter]
      simp only [numbersCase_eq_true_iff, hspells, hdefault, false_or]

/-! ## The walk -/

namespace Node

variable {n : Node}

/-- **The output ports of a choice for the walk.** -/
lemma mem_bodyPorts_iff_of_ifElse (hk : n.kind = .ifElse) {port : String} :
    port ∈ n.bodyPorts ↔
      port = defaultBranchPort ∨ ∃ i < n.cases.length, port = casePort (i : Nat) := by
  simp [bodyPorts, hk, Kind.isTrigger, or_comm, eq_comm]

/-- Every port that the walk knows is known to a check, unless there are too many cases to be
numbered. -/
lemma hasPort_of_mem_bodyPorts (hk : n.kind = .ifElse)
    (hcount : n.cases.length ≤ 10 ^ Numeral.digitLimit) {port : String} (h : port ∈ n.bodyPorts) :
    n.kind.hasPort port .output n.cases.length = .ok true := by
  rw [hk, hasPort_ifElse_iff]
  rcases (mem_bodyPorts_iff_of_ifElse hk).mp h with rfl | ⟨i, hi, rfl⟩
  · exact .inl rfl
  · exact .inr ⟨i, hi, spellsCase_casePort (hi.trans_le hcount)⟩

/-- **Of the ports that a check knows, the walk knows those with a plain number.** -/
lemma mem_bodyPorts_iff_of_hasPort (hk : n.kind = .ifElse) {port : String}
    (h : n.kind.hasPort port .output n.cases.length = .ok true) :
    port ∈ n.bodyPorts ↔ port = defaultBranchPort ∨ HasPlainNumber port := by
  rw [mem_bodyPorts_iff_of_ifElse hk]
  constructor
  · rintro (rfl | ⟨i, -, rfl⟩)
    · exact .inl rfl
    · exact .inr (hasPlainNumber_casePort i)
  · rintro (rfl | hplain)
    · exact .inl rfl
    · rw [hk, hasPort_ifElse_iff] at h
      rcases h with rfl | ⟨i, hi, hspells⟩
      · exact .inl rfl
      · exact .inr ⟨i, hi, hspells.hasPlainNumber_iff.mp hplain⟩

end Node

/-! ## Edges -/

namespace Graph

variable {g : Graph} {n : Node} {e : Edge}

/-- An edge that is followed when the node is carried out: it leaves the node by a body port. -/
def Follows (g : Graph) (n : Node) (e : Edge) : Prop :=
  ∃ port ∈ n.bodyPorts, e ∈ g.outgoing n.id port

/-- An edge of a node is followed exactly if it leaves the node by a body port. -/
lemma follows_iff (he : e ∈ g.edges) (hsource : e.source = n.id) :
    g.Follows n e ↔ e.sourceHandle ∈ n.bodyPorts := by
  simp [Follows, outgoing, he, hsource]

/-- The target of an edge that is followed is the target of a body port. -/
lemma Follows.exists_targets (h : g.Follows n e) :
    ∃ port ∈ n.bodyPorts, e.target ∈ g.targets n.id port := by
  obtain ⟨port, hport, he⟩ := h
  exact ⟨port, hport, List.mem_map_of_mem he⟩

/-- An edge that is followed leads to a nested node. -/
lemma Follows.mem_nested (h : g.Follows n e) (hn : g.node? n.id = some n) :
    e.target ∈ g.nested n.id := by
  rw [mem_nested_iff]
  refine .single ?_
  rw [Leads, bodyTargets, hn]
  exact List.mem_flatMap.mpr h.exists_targets

end Graph

/-- **When the check and the walk agree about the output ports of a choice.** The walk follows the
default branch and the ports with the names that are made for the cases. The check accepts the
default branch and the names that end in the number of a case, however it is spelled. They agree on
a name exactly if it does not end in the number of a case that is not plain. So an edge of a
strictly loaded graph that leaves a choice is followed exactly if it leaves by the default branch or
if the number in its port is plain; then its target lies beneath the choice, and the statements for
the choice hold those for the target. -/
theorem Node.outputPorts_agree_iff (n : Node) (hk : n.kind = .ifElse) :
    (∀ port, port ∈ n.bodyPorts ↔ port = defaultBranchPort ∨
      ∃ i < n.cases.length, port = casePort (i : Nat)) ∧
    (∀ port, n.kind.hasPort port .output n.cases.length = .ok true ↔
      port = defaultBranchPort ∨ ∃ i < n.cases.length, SpellsCase port i) ∧
    (n.cases.length ≤ 10 ^ Numeral.digitLimit → ∀ port,
      (n.kind.hasPort port .output n.cases.length = .ok true ↔ port ∈ n.bodyPorts) ↔
        ∀ i < n.cases.length, SpellsCase port i → HasPlainNumber port) ∧
    ∀ v g, (Graph.ofJson true v).outcome = .ok g → ∀ e ∈ g.edges, g.node? e.source = some n →
      (g.Follows n e ↔ e.sourceHandle = defaultBranchPort ∨ HasPlainNumber e.sourceHandle) ∧
      (g.Follows n e → e.target ∈ g.nested n.id ∧ ∀ (names : NameTable) visit body,
        ((⟨g, names⟩ : Scope).choice visit n).outcome = .ok body →
          Scope.Covers visit e.target (Stmt.assignedIn body)) := by
  refine ⟨fun port => mem_bodyPorts_iff_of_ifElse hk, fun port => by
    rw [hk, hasPort_ifElse_iff], ?_, ?_⟩
  · intro hcount port
    constructor
    · intro hagree i hi hspells
      have hport : n.kind.hasPort port .output n.cases.length = .ok true := by
        rw [hk, hasPort_ifElse_iff]
        exact .inr ⟨i, hi, hspells⟩
      rcases (mem_bodyPorts_iff_of_hasPort hk hport).mp (hagree.mp hport) with rfl | hplain
      · obtain ⟨cs, hcs, -⟩ := hspells
        cases hcs
      · exact hplain
    · intro hplain
      refine ⟨fun hport => ?_, hasPort_of_mem_bodyPorts hk hcount⟩
      rw [mem_bodyPorts_iff_of_hasPort hk hport]
      rw [hk, hasPort_ifElse_iff] at hport
      rcases hport with hport | ⟨i, hi, hspells⟩
      · exact .inl hport
      · exact .inr (hplain i hi hspells)
  · intro v g hload e he hsource
    obtain ⟨-, hid⟩ := Graph.node?_eq_some_iff.mp hsource
    obtain ⟨m, hm, hport⟩ := (Graph.hasPort_of_ofJson_strict hload he).1
    cases hsource.symm.trans hm
    refine ⟨?_, fun hfollows => ⟨hfollows.mem_nested (hid ▸ hsource), ?_⟩⟩
    · rw [Graph.follows_iff he hid.symm, mem_bodyPorts_iff_of_hasPort hk hport]
    · intro names visit body hbody
      obtain ⟨port, hport, htarget⟩ := hfollows.exists_targets
      exact Scope.covers_choice hk hbody hport htarget

/-! ## A number with a zero too many -/

/-- A choice with two cases. -/
def twoCases : Node where
  id := "c"
  kind := .ifElse
  cases := [⟨"u", .string "1"⟩, ⟨"v", .string "2"⟩]
  cases_nodup := by decide

/-- An edge of a document that leaves `twoCases` by the given port and sets a value. -/
def branchDocument (port target : String) : Json :=
  .object [("source", .string "c"), ("sourceHandle", .string port), ("target", .string target),
    ("targetHandle", .string "set_value")]

/-- The choice with an edge for each case, where the number of the first case is spelled with two
zeros. -/
def paddedBranch : Json :=
  .object [
    ("nodes", .array [
      .object [("id", .string "c"), ("type", .string "if_else"), ("data", .object [
        ("cases", .array [
          .object [("id", .string "u"), ("value", .string "1")],
          .object [("id", .string "v"), ("value", .string "2")]])])],
      Graph.nodeDocument "x" "ui_state", Graph.nodeDocument "y" "ui_state"]),
    ("edges", .array [branchDocument "case_out_00" "x", branchDocument "case_out_1" "y"])]

/-- What is loaded of `paddedBranch`. -/
def paddedBranchGraph : Graph where
  nodes := [twoCases, { id := "x", kind := .state }, { id := "y", kind := .state }]
  edges := [⟨"c:case_out_00→x:set_value", "c", "case_out_00", "x", "set_value"⟩,
    ⟨"c:case_out_1→y:set_value", "c", "case_out_1", "y", "set_value"⟩]
  nodes_nodup := by decide

/-- In `paddedBranch` the edge for the second case is followed, and the one with two zeros is
not. -/
theorem Node.outputPorts_paddedBranch :
    twoCases.kind = .ifElse ∧ (Graph.ofJson true paddedBranch).outcome = .ok paddedBranchGraph ∧
    (∀ e ∈ paddedBranchGraph.edges, paddedBranchGraph.node? e.source = some twoCases ∧
      (paddedBranchGraph.Follows twoCases e ↔ e.sourceHandle = "case_out_1")) ∧
    "y" ∈ paddedBranchGraph.nested "c" := by
  have hload : (Graph.ofJson true paddedBranch).outcome = .ok paddedBranchGraph := by rfl
  have hone : HasPlainNumber "case_out_1" := ⟨['1'], rfl, by simp [Numeral.IsPlain]⟩
  have hzeros : ¬ HasPlainNumber "case_out_00" := by
    rintro ⟨cs, hcs, -, -, hzero⟩
    have hsplit : casePortStem.toList ++ ['0', '0'] = casePortStem.toList ++ cs := hcs
    obtain rfl := List.append_cancel_left hsplit
    exact absurd (hzero rfl) (by decide)
  have hedge := (outputPorts_agree_iff twoCases rfl).2.2.2 paddedBranch paddedBranchGraph hload
  have hfollows : ∀ e ∈ paddedBranchGraph.edges, paddedBranchGraph.node? e.source = some twoCases ∧
      (paddedBranchGraph.Follows twoCases e ↔ e.sourceHandle = "case_out_1") := by
    intro e he
    have hsource : paddedBranchGraph.node? e.source = some twoCases := by
      rcases List.mem_pair.mp he with rfl | rfl <;> rfl
    refine ⟨hsource, ?_⟩
    rw [(hedge e he hsource).1]
    rcases List.mem_pair.mp he with rfl | rfl
    · simp [hzeros, defaultBranchPort]
    · simp [hone]
  refine ⟨rfl, hload, hfollows, ?_⟩
  obtain ⟨e, he, hport, htarget⟩ : ∃ e ∈ paddedBranchGraph.edges, e.sourceHandle = "case_out_1" ∧
      e.target = "y" := by
    decide
  obtain ⟨hsource, hfollowed⟩ := hfollows e he
  rw [← htarget]
  exact ((hedge e he hsource).2 (hfollowed.mpr hport)).1

/-- **An edge that has passed a strict check need not be followed.** The check takes `case_out_00`
for a port of a choice with two cases, and the walk does not. `paddedBranch` is loaded strictly with
the edge by this port, and its target does not lie beneath the choice. -/
theorem Node.outputPort_not_followed :
    Kind.ifElse.hasPort "case_out_00" .output 2 = .ok true ∧ "case_out_00" ∉ twoCases.bodyPorts ∧
    (Graph.ofJson true paddedBranch).outcome = .ok paddedBranchGraph ∧
    ⟨"c:case_out_00→x:set_value", "c", "case_out_00", "x", "set_value"⟩ ∈ paddedBranchGraph.edges ∧
    paddedBranchGraph.nested "c" = ["y"] :=
  ⟨rfl, by decide, rfl, by decide, rfl⟩

end LogicGraph
