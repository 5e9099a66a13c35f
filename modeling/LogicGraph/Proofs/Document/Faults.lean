import LogicGraph.Proofs.Document.Strict
import LogicGraph.Proofs.Json.Writable

set_option relaxedAutoImplicit false
set_option autoImplicit false

/-!
# Faults that are not about the format

A value that is refused is mostly refused over its format. There are other faults. A check reads the
number in the name of a case port, and there are names whose number cannot be read. Loading writes
the values of cases, and there are integers with too many digits to be written; it turns coordinates
into doubles, and there are integers beyond the doubles. Nothing else goes wrong after the check,
and for a value that can be written only coordinates do.

## Main definitions

* `LogicGraph.Document.Misnumbered` — a name of a case port whose number cannot be read.
* `LogicGraph.Document.MeetsMisnumbered` — a value whose check comes to such a name.
* `LogicGraph.Document.NodeEntry.IsFarOff` — a node with a coordinate beyond the doubles.
* `LogicGraph.Document.NodeEntry.StopsLoading` — a node that keeps its document from being loaded.
* `LogicGraph.Document.FirstFault` — the fault of the first member of a list that has one.

## Main results

* `LogicGraph.Document.outcome_check_eq_port_iff` — when a check fails over the name of a port.
* `LogicGraph.Document.outcome_load_eq_error_iff` — loading a checked document fails over the first
  node that stops it.
* `LogicGraph.Document.outcome_load_cases` — loading a checked document that can be written fails
  over coordinates alone.
-/

namespace LogicGraph

open Document

/-! ## Numbers of ports -/

/-- A name of a case port that ends in what look like digits, but no number can be read there. -/
def Document.Misnumbered (port : String) (f : Numeral.Fault) : Prop :=
  ∃ cs, port.toList = casePortStem.toList ++ cs ∧ cs ≠ [] ∧ (∀ c ∈ cs, Text.isDigitLike c = true) ∧
    Numeral.readInt cs = .error f

/-- The number of a case fails to be read only if it is made of digits that spell none. -/
lemma Kind.numbersCase_eq_error_iff {cs : List Char} {count : Int} {f : Numeral.Fault} :
    numbersCase cs count = .error f ↔ cs ≠ [] ∧ (∀ c ∈ cs, Text.isDigitLike c = true) ∧
      Numeral.readInt cs = .error f := by
  unfold numbersCase
  rw [← List.all_eq_true, ← and_assoc]
  split_ifs with h
  · rw [and_iff_right h]
    cases Numeral.readInt cs <;> simp [Except.map]
  · simp only [h, false_and]

/-- Whether a kind has a port cannot be told exactly if the port is one of a choice and its number
cannot be read. -/
lemma Kind.hasPort_eq_error_iff {k : Kind} {port : String} {d : Direction} {count : Int}
    {f : Numeral.Fault} :
    k.hasPort port d count = .error f ↔ k = .ifElse ∧ d = .output ∧ Misnumbered port f := by
  unfold hasPort
  by_cases hchoice : k = .ifElse ∧ d = .output
  · obtain ⟨rfl, rfl⟩ := hchoice
    -- the one port with two names is none of a case
    have hstem : ∀ cs, Text.afterStem? casePortStem.toList (canonicalPort port).toList = some cs ↔
        port.toList = casePortStem.toList ++ cs := by
      intro cs
      unfold canonicalPort
      split_ifs with hcondition
      · have hnone : Text.afterStem? casePortStem.toList "input_val".toList = none := by decide
        have hnone' : Text.afterStem? casePortStem.toList "condition".toList = none := by decide
        rw [hcondition, ← Text.afterStem?_eq_some_iff, hnone, hnone']
      · exact Text.afterStem?_eq_some_iff
    simp only [and_self, if_true, true_and, Misnumbered, ← hstem]
    cases Text.afterStem? casePortStem.toList (canonicalPort port).toList with
    | none => simp
    | some cs => simp [numbersCase_eq_error_iff]
  · simp only [if_neg hchoice, reduceCtorEq, false_iff]
    exact fun h => hchoice ⟨h.1, h.2.1⟩

namespace Document

variable {strict : Bool} {f : Numeral.Fault}

/-- A flaw is no fault of a port. -/
lemma outcome_meet_ne_port (x : Flaw) : (meet strict x).outcome ≠ .error (.port f) := by
  cases strict <;> rintro ⟨⟩

/-- The check of an end fails over the name of a port exactly if it is the one that an edge leaves a
choice by. -/
lemma outcome_checkEnd_eq_port_iff {ns : List NodeEntry} {i : Nat} {d : Direction} {id : String}
    {handle : Option String} :
    (checkEnd strict ns i d id handle).outcome = .error (.port f) ↔
      d = .output ∧ ∃ n port, ns.find? (·.id == id) = some n ∧ n.kind? = some .ifElse ∧
        handle = some port ∧
        Misnumbered port f := by
  unfold checkEnd
  cases hfind : ns.find? (·.id == id) with
  | none => simp [outcome_meet_ne_port]
  | some n =>
    simp only [Option.some.injEq]
    cases hkind : n.kind? with
    | none =>
      simp only [Audited.outcome_pure, reduceCtorEq, false_iff]
      rintro ⟨-, n', port, rfl, hkind', -⟩
      rw [hkind] at hkind'
      cases hkind'
    | some kind =>
      cases handle with
      | none => simp
      | some port =>
        have hrest : ∀ there,
            (if there = true then pure () else meet strict (.unknownPort i d kind port)).outcome ≠
            .error (.port f) := by
          intro there
          cases there
          · exact outcome_meet_ne_port _
          · simp
        simp only [Audited.outcome_bind_eq_error, Audited.outcome_lift, mapError_eq_error, hrest,
          and_false, exists_false, or_false, CheckError.port.injEq, exists_eq_right,
          Kind.hasPort_eq_error_iff]
        constructor
        · rintro ⟨rfl, rfl, hport⟩
          exact ⟨rfl, n, port, rfl, hkind, rfl, hport⟩
        · rintro ⟨rfl, n', port', rfl, hkind', ⟨⟩, hport⟩
          rw [hkind] at hkind'
          cases hkind'
          exact ⟨rfl, rfl, hport⟩

/-- An edge leaves a choice by a port whose number cannot be read. -/
def EdgeEntry.LeavesMisnumbered (ns : List NodeEntry) (e : EdgeEntry) (f : Numeral.Fault) : Prop :=
  ∃ n port, ns.find? (·.id == e.source) = some n ∧ n.kind? = some .ifElse ∧
    e.sourceHandle = some port ∧ Misnumbered port f

/-- The check of edges fails over the name of a port at its first edge, or after it. -/
lemma outcome_checkEdges_cons_eq_port_iff {ns : List NodeEntry} {i : Nat} {v : Json}
    {rest : List Json} :
    (checkEdges strict ns i (v :: rest)).outcome = .error (.port f) ↔
      ∃ e, readEdge i v = .ok e ∧ (e.LeavesMisnumbered ns f ∨
        (checkEnd strict ns i .output e.source e.sourceHandle).outcome = .ok () ∧
        (checkEnd strict ns i .input e.target e.targetHandle).outcome = .ok () ∧
        (checkEdges strict ns (i + 1) rest).outcome = .error (.port f)) := by
  simp only [checkEdges, Audited.outcome_bind_eq_error, Audited.outcome_lift, mapError_eq_error,
    mapError_eq_ok, outcome_checkEnd_eq_port_iff, Audited.outcome_pure, reduceCtorEq, and_false,
    false_and, exists_false, or_false, false_or, true_and, EdgeEntry.LeavesMisnumbered]
  constructor
  · rintro ⟨e, hread, hleaves | ⟨⟨⟩, hsource, ⟨⟩, htarget, hrest⟩⟩
    · exact ⟨e, hread, .inl hleaves⟩
    · exact ⟨e, hread, .inr ⟨hsource, htarget, hrest⟩⟩
  · rintro ⟨e, hread, hleaves | ⟨hsource, htarget, hrest⟩⟩
    · exact ⟨e, hread, .inl hleaves⟩
    · exact ⟨e, hread, .inr ⟨(), hsource, (), htarget, hrest⟩⟩

/-- **The check of edges fails over the name of a port at the first edge that leaves a choice by a
port whose number cannot be read**, if the edges before it pass. -/
lemma outcome_checkEdges_eq_port_iff {ns : List NodeEntry} {i : Nat} {vs : List Json} :
    (checkEdges strict ns i vs).outcome = .error (.port f) ↔
      ∃ before v behind es e, vs = before ++ v :: behind ∧
        (checkEdges strict ns i before).outcome = .ok es ∧
        readEdge (i + before.length) v = .ok e ∧ e.LeavesMisnumbered ns f := by
  induction vs generalizing i with
  | nil => simp [checkEdges]
  | cons v rest ih =>
    rw [outcome_checkEdges_cons_eq_port_iff]
    constructor
    · rintro ⟨e, hread, hleaves | ⟨hsource, htarget, hrest⟩⟩
      · exact ⟨[], v, rest, [], e, rfl, rfl, hread, hleaves⟩
      · obtain ⟨before, u, behind, es, e', rfl, hbefore, hread', hleaves⟩ := ih.mp hrest
        refine ⟨v :: before, u, behind, e :: es, e', rfl, ?_, ?_, hleaves⟩
        · simp [checkEdges, hread, hsource, htarget, hbefore]
        · rwa [List.length_cons, Nat.add_comm before.length, ← Nat.add_assoc]
    · rintro ⟨before, u, behind, es, e, hvs, hbefore, hread, hleaves⟩
      cases before with
      | nil =>
        obtain ⟨rfl, rfl⟩ := List.cons.inj hvs
        exact ⟨e, hread, .inl hleaves⟩
      | cons w before =>
        obtain ⟨rfl, rfl⟩ := List.cons.inj hvs
        simp only [checkEdges, Audited.outcome_bind_eq_ok, Audited.outcome_lift,
          Audited.outcome_pure, mapError_eq_ok] at hbefore
        obtain ⟨e', hread', ⟨⟩, hsource, ⟨⟩, htarget, es', hes', -⟩ := hbefore
        refine ⟨e', hread',
          .inr ⟨hsource, htarget, ih.mpr ⟨before, u, behind, es', e, rfl, hes', ?_, hleaves⟩⟩⟩
        rwa [List.length_cons, Nat.add_comm before.length, ← Nat.add_assoc] at hread

/-- The check of nodes comes to no port. -/
lemma outcome_checkNodes_ne_port {i : Nat} {seen : List String} {vs : List Json} :
    (checkNodes strict i seen vs).outcome ≠ .error (.port f) := by
  induction vs generalizing i seen with
  | nil => simp [checkNodes]
  | cons v rest ih =>
    refine Audited.outcome_bind_ne_error ?_ fun n => Audited.outcome_bind_ne_error ?_ fun _ =>
      Audited.outcome_bind_ne_error ih fun ns => Audited.outcome_pure_ne_error _ _
    · rw [Audited.outcome_lift, ne_eq, mapError_eq_error]
      rintro ⟨e, -, ⟨⟩⟩
    · unfold checkKind
      split
      · exact Audited.outcome_pure_ne_error _ _
      · exact outcome_meet_ne_port _

/-- The check of a value comes to an edge that leaves a choice by a port whose number cannot be
read. -/
def MeetsMisnumbered (strict : Bool) (v : Json) (f : Numeral.Fault) : Prop :=
  ∃ name nodes before edge behind ns es e, readTop v = .ok (name, nodes, before ++ edge :: behind) ∧
    (checkNodes strict 0 [] nodes).outcome = .ok ns ∧
      (checkEdges strict ns 0 before).outcome = .ok es ∧
    readEdge before.length edge = .ok e ∧ e.LeavesMisnumbered ns f

/-- **When a check fails over the name of a port.** -/
lemma outcome_check_eq_port_iff {v : Json} :
    (check strict v).outcome = .error (.port f) ↔ MeetsMisnumbered strict v f := by
  simp only [check, Audited.outcome_bind_eq_error, Audited.outcome_lift, mapError_eq_error,
    mapError_eq_ok, outcome_checkNodes_ne_port, outcome_checkEdges_eq_port_iff,
    Audited.outcome_pure, reduceCtorEq, and_false, exists_false, or_false, false_or, Nat.zero_add,
    MeetsMisnumbered]
  constructor
  · rintro ⟨⟨name, nodes, edges⟩, htop, ns, hns, before, edge, behind, es, e, rfl, hes, hread,
      hleaves⟩
    exact ⟨name, nodes, before, edge, behind, ns, es, e, htop, hns, hes, hread, hleaves⟩
  · rintro ⟨name, nodes, before, edge, behind, ns, es, e, htop, hns, hes, hread, hleaves⟩
    exact ⟨_, htop, ns, hns, before, edge, behind, es, e, rfl, hes, hread, hleaves⟩

/-! ## What a check passes on -/

/-- The nodes are read one by one. -/
lemma forall₂_readNode_of_checkNodes {i : Nat} {seen : List String} {vs : List Json}
    {es : List NodeEntry} (h : (checkNodes strict i seen vs).outcome = .ok es) :
    List.Forall₂ (fun v e => ∃ i seen, readNode i seen v = .ok e) vs es := by
  induction vs generalizing i seen es with
  | nil =>
    cases h
    exact .nil
  | cons v rest ih =>
    simp only [checkNodes, Audited.outcome_bind_eq_ok, Audited.outcome_lift, Audited.outcome_pure,
      mapError_eq_ok, Except.ok.injEq] at h
    obtain ⟨e, he, -, -, es, hes, rfl⟩ := h
    exact .cons ⟨i, seen, he⟩ (ih hes)

/-- The nodes of a checked document are read one by one, and they have distinct ids. -/
lemma nodes_of_check {v : Json} {d : Document} (h : (check strict v).outcome = .ok d) :
    ∃ us, v.field? "nodes" = some (.array us) ∧
      List.Forall₂ (fun u e => ∃ i seen, readNode i seen u = .ok e) us d.nodes ∧
      (d.nodes.map NodeEntry.id).Nodup := by
  simp only [check, Audited.outcome_bind_eq_ok, Audited.outcome_lift, Audited.outcome_pure,
    mapError_eq_ok, Except.ok.injEq] at h
  obtain ⟨⟨name, us, ws⟩, htop, ns, hns, es, -, rfl⟩ := h
  exact ⟨us, (field?_of_readTop htop).1, forall₂_readNode_of_checkNodes hns,
    (nodup_of_checkNodes hns).1⟩

/-- The cases of a node of a checked document have distinct ids. -/
lemma nodup_cases_of_check {v : Json} {d : Document} (h : (check strict v).outcome = .ok d) :
    ∀ n ∈ d.nodes, (n.cases.map CaseEntry.id).Nodup := by
  intro n hn
  obtain ⟨us, -, hread, -⟩ := nodes_of_check h
  obtain ⟨u, -, i, seen, hn⟩ := exists_of_forall₂_of_mem_right hread hn
  obtain ⟨fields, data, position, rfl, hreads⟩ := readNode_eq_ok_iff.mp hn
  obtain ⟨items, -, hcases⟩ := hreads.cases
  exact (nodup_of_readCases hcases).1

/-- A coordinate that is an integer beyond the doubles. -/
def BeyondDoubles (c : Option Number) : Prop :=
  ∃ n, c = some n ∧ n.toBinary64? = none

/-- A node with a coordinate beyond the doubles. -/
def NodeEntry.IsFarOff (n : NodeEntry) : Prop :=
  BeyondDoubles n.x ∨ BeyondDoubles n.y

/-- A document with a node of known kind and with a coordinate beyond the doubles. -/
def IsFarOff (d : Document) : Prop :=
  ∃ n ∈ d.nodes, (∃ k, n.kind? = some k) ∧ n.IsFarOff

/-- A coordinate is not loaded exactly if it is beyond the doubles. -/
lemma loadCoordinate_cases (c : Option Number) :
    (BeyondDoubles c ∧ loadCoordinate c = .error .hugeCoordinate) ∨
    (¬ BeyondDoubles c ∧ ∃ x, loadCoordinate c = .ok x) := by
  unfold loadCoordinate BeyondDoubles
  cases c with
  | none => exact .inr ⟨by simp, _, rfl⟩
  | some n =>
    simp only [Option.some.injEq, exists_eq_left']
    split_ifs with hzero
    · refine .inr ⟨?_, _, rfl⟩
      cases n with
      | int i =>
        obtain rfl : i = 0 := by simpa [Number.isZero] using hzero
        decide
      | float x => simp [Number.toBinary64?]
    · cases n.toBinary64? with
      | none => exact .inl ⟨rfl, rfl⟩
      | some x => exact .inr ⟨by simp, _, rfl⟩

/-- Loading a case keeps its id. -/
lemma id_of_loadCase {c : CaseEntry} {d : Case} (h : loadCase c = .ok d) : c.id = d.id := by
  unfold loadCase at h
  split at h
  · cases h
    rfl
  · split_ifs at h
    cases h
    rfl

/-! ## Loading nodes -/

/-- A case is not loaded exactly if its value cannot be written. -/
lemma loadCase_cases (c : CaseEntry) :
    (c.value.isWritable = false ∧ loadCase c = .error .longInteger) ∨
    (c.value.isWritable = true ∧ ∃ d, loadCase c = .ok d) := by
  unfold loadCase
  split
  · rename_i hnull
    exact .inr ⟨by rw [hnull]; rfl, _, rfl⟩
  · split_ifs with hwritable
    · exact .inr ⟨hwritable, _, rfl⟩
    · exact .inl ⟨Bool.not_eq_true _ ▸ hwritable, rfl⟩

/-- Cases are loaded exactly if all of their values can be written. -/
lemma loadCases_cases (cs : List CaseEntry) :
    ((∃ c ∈ cs, c.value.isWritable = false) ∧ cs.mapM loadCase = .error .longInteger) ∨
    ((∀ c ∈ cs, c.value.isWritable = true) ∧ ∃ ds, cs.mapM loadCase = .ok ds) := by
  induction cs with
  | nil => exact .inr ⟨by simp, [], rfl⟩
  | cons c rest ih =>
    rw [List.mapM_cons, List.forall_mem_cons, List.exists_mem_cons_iff]
    rcases loadCase_cases c with ⟨hlong, hc⟩ | ⟨hshort, d, hc⟩
    · exact .inl ⟨.inl hlong, by rw [hc]; rfl⟩
    · rw [hc, ok_bind]
      rcases ih with ⟨hlong, hrest⟩ | ⟨hshort', ds, hrest⟩
      · exact .inl ⟨.inr hlong, by rw [hrest]; rfl⟩
      · exact .inr ⟨⟨hshort, hshort'⟩, d :: ds, by rw [hrest]; rfl⟩

/-- What keeps an entry from becoming a node: the value of a case cannot be written, or else a
coordinate is beyond the doubles. -/
inductive NodeEntry.Resists (n : NodeEntry) : LoadError → Prop
  /-- The value of a case cannot be written. -/
  | longInteger (h : ∃ c ∈ n.cases, c.value.isWritable = false) : Resists n .longInteger
  /-- A coordinate is beyond the doubles. -/
  | hugeCoordinate (hcases : ∀ c ∈ n.cases, c.value.isWritable = true) (h : n.IsFarOff) :
      Resists n .hugeCoordinate

/-- An entry resists loading in one way only. -/
lemma NodeEntry.Resists.unique {n : NodeEntry} {x y : LoadError} (hx : n.Resists x)
    (hy : n.Resists y) : x = y := by
  cases hx <;> cases hy
  case longInteger.hugeCoordinate hlong hshort _ | hugeCoordinate.longInteger hshort _ hlong =>
    obtain ⟨c, hc, hlong⟩ := hlong
    rw [hshort c hc] at hlong
    cases hlong
  all_goals rfl

/-- An entry with distinct cases becomes a node unless it resists. -/
lemma loadNode_cases (kind : Kind) {n : NodeEntry} (h : (n.cases.map CaseEntry.id).Nodup) :
    (∃ x, n.Resists x ∧ loadNode kind n = .error x) ∨
    ((∀ x, ¬ n.Resists x) ∧ ∃ node, loadNode kind n = .ok node) := by
  unfold loadNode
  rcases loadCases_cases n.cases with ⟨hlong, hcs⟩ | ⟨hshort, cs, hcs⟩
  · exact .inl ⟨.longInteger, .longInteger hlong, by rw [hcs]; rfl⟩
  rw [hcs, ok_bind]
  rcases loadCoordinate_cases n.x with ⟨hfar, hx⟩ | ⟨hnear, x, hx⟩
  · exact .inl ⟨.hugeCoordinate, .hugeCoordinate hshort (.inl hfar), by rw [hx]; rfl⟩
  rcases loadCoordinate_cases n.y with ⟨hfar, hy⟩ | ⟨hnear', y, hy⟩
  · exact .inl ⟨.hugeCoordinate, .hugeCoordinate hshort (.inr hfar), by rw [hx, ok_bind, hy]; rfl⟩
  rw [hx, ok_bind, hy, ok_bind]
  refine .inr ⟨?_, ?_⟩
  · rintro _ (⟨c, hc, hlong⟩ | ⟨-, hfar⟩)
    · rw [hshort c hc] at hlong
      cases hlong
    · exact hfar.elim hnear hnear'
  · have hids : n.cases.map CaseEntry.id = cs.map Case.id := by
      rw [← List.forall₂_eq_eq_eq, List.forall₂_map_left_iff, List.forall₂_map_right_iff]
      exact (mapM_eq_ok.mp hcs).imp fun _ _ => id_of_loadCase
    simp only [Node.withCases]
    rw [dif_pos (hids ▸ h)]
    exact ⟨_, rfl⟩

/-- The first fault among the members of a list, where a member may have none. -/
def FirstFault {α : Type} (Fault : α → LoadError → Prop) (as : List α) (x : LoadError) : Prop :=
  ∃ before a behind, as = before ++ a :: behind ∧ (∀ b ∈ before, ∀ y, ¬ Fault b y) ∧ Fault a x

section

variable {α β : Type} {Fault : α → LoadError → Prop} {Fault' : β → LoadError → Prop} {x : LoadError}

/-- The first fault in a list is that of its head, or that of its tail if the head has none. -/
lemma firstFault_cons_iff {a : α} {as : List α} :
    FirstFault Fault (a :: as) x ↔ Fault a x ∨ (∀ y, ¬ Fault a y) ∧ FirstFault Fault as x := by
  constructor
  · rintro ⟨before, b, behind, hsplit, hbefore, hb⟩
    cases before with
    | nil =>
      obtain ⟨rfl, rfl⟩ := List.cons.inj hsplit
      exact .inl hb
    | cons c before =>
      obtain ⟨rfl, rfl⟩ := List.cons.inj hsplit
      rw [List.forall_mem_cons] at hbefore
      exact .inr ⟨hbefore.1, before, b, behind, rfl, hbefore.2, hb⟩
  · rintro (ha | ⟨ha, before, b, behind, rfl, hbefore, hb⟩)
    · exact ⟨[], a, as, rfl, by simp, ha⟩
    · exact ⟨a :: before, b, behind, rfl, List.forall_mem_cons.mpr ⟨ha, hbefore⟩, hb⟩

/-- There is a first fault exactly if there is a fault. -/
lemma exists_firstFault_iff {as : List α} :
    (∃ x, FirstFault Fault as x) ↔ ∃ a ∈ as, ∃ x, Fault a x := by
  induction as with
  | nil => simp [FirstFault]
  | cons a as ih =>
    simp only [firstFault_cons_iff, exists_or, exists_and_left, ih, List.exists_mem_cons_iff,
      ← not_exists]
    tauto

/-- There is one first fault at most if each member has one fault at most. -/
lemma FirstFault.unique (hunique : ∀ {a x y}, Fault a x → Fault a y → x = y) {as : List α}
    {y : LoadError} (hx : FirstFault Fault as x) (hy : FirstFault Fault as y) : x = y := by
  induction as with
  | nil => simp [FirstFault] at hx
  | cons a as ih =>
    rw [firstFault_cons_iff] at hx hy
    rcases hx with hx | ⟨hnone, hx⟩ <;> rcases hy with hy | ⟨hnone', hy⟩
    · exact hunique hx hy
    · exact absurd hx (hnone' x)
    · exact absurd hy (hnone y)
    · exact ih hx hy

/-- Related members with the same faults have the same first fault. -/
lemma firstFault_congr {as : List α} {bs : List β}
    (h : List.Forall₂ (fun a b => ∀ x, Fault a x ↔ Fault' b x) as bs) :
    FirstFault Fault as x ↔ FirstFault Fault' bs x := by
  induction h with
  | nil => simp [FirstFault]
  | cons hab _ ih => simp only [firstFault_cons_iff, hab, ih]

end

/-- What keeps a document from being loaded in an entry of it. An entry of unknown kind is left out,
and nothing in it does. -/
def NodeEntry.StopsLoading (n : NodeEntry) (x : LoadError) : Prop :=
  (∃ k, n.kind? = some k) ∧ n.Resists x

/-- Entries become nodes unless one of them stops loading, and the first that does decides. -/
lemma loadNodes_cases {es : List NodeEntry} (h : ∀ e ∈ es, (e.cases.map CaseEntry.id).Nodup) :
    (∃ x, FirstFault NodeEntry.StopsLoading es x ∧ (loadNodes es).outcome = .error x) ∨
    ((∀ e ∈ es, ∀ x, ¬ e.StopsLoading x) ∧ ∃ ns, (loadNodes es).outcome = .ok ns ∧
      (ns.map Node.id).Sublist (es.map NodeEntry.id)) := by
  induction es with
  | nil => exact .inr ⟨by simp, [], rfl, .slnil⟩
  | cons e rest ih =>
    obtain ⟨he, hrest⟩ := List.forall_mem_cons.mp h
    unfold loadNodes
    simp only [firstFault_cons_iff, List.forall_mem_cons, NodeEntry.StopsLoading]
    cases hkind : e.kind? with
    | none =>
      simp only [Audited.outcome_report_bind, reduceCtorEq, exists_false, false_and,
        not_false_eq_true, implies_true, true_and, false_or, List.map_cons]
      exact (ih hrest).imp_right fun ⟨hnone, ns, hns, hsub⟩ => ⟨hnone, ns, hns, hsub.cons _⟩
    | some kind =>
      simp only [Option.some.injEq, exists_eq', true_and]
      rcases loadNode_cases kind he with ⟨x, hx, hload⟩ | ⟨hnone, node, hload⟩
      · rw [hload]
        exact .inl ⟨x, .inl hx, rfl⟩
      rw [hload, Audited.lift_ok_bind]
      rcases ih hrest with ⟨x, hx, hnodes⟩ | ⟨hnone', ns, hns, hsub⟩
      · refine .inl ⟨x, .inr ⟨hnone, hx⟩, ?_⟩
        rw [Audited.outcome_bind, hnodes]
        rfl
      · refine .inr ⟨⟨hnone, hnone'⟩, node :: ns, ?_, ?_⟩
        · rw [Audited.outcome_bind, hns]
          rfl
        · rw [List.map_cons, List.map_cons, (loadable_of_loadNode hload).1]
          exact hsub.cons_cons _

/-- Loading a node keeps its value. -/
lemma value_of_loadNode {kind : Kind} {e : NodeEntry} {n : Node} (h : loadNode kind e = .ok n) :
    n.value = e.value := by
  unfold loadNode at h
  simp only [bind_eq_ok, mapError_eq_ok, Node.withCases] at h
  obtain ⟨cases, -, x, -, y, -, h⟩ := h
  split_ifs at h
  cases h
  rfl

/-- **Loading a checked document fails over the first entry that stops it, and over nothing
else.** -/
lemma outcome_load_of_check {v : Json} {d : Document} (h : (check strict v).outcome = .ok d) :
    (∃ x, FirstFault NodeEntry.StopsLoading d.nodes x ∧ d.load.outcome = .error x) ∨
    ((∀ e ∈ d.nodes, ∀ x, ¬ e.StopsLoading x) ∧
      ∃ g, d.load.outcome = .ok g ∧ ∀ n ∈ g.nodes, ∃ e ∈ d.nodes, n.value = e.value) := by
  obtain ⟨us, -, -, hnodup⟩ := nodes_of_check h
  unfold load
  rcases loadNodes_cases (nodup_cases_of_check h) with ⟨x, hx, hnodes⟩ | ⟨hnone, ns, hns, hsub⟩
  · refine .inl ⟨x, hx, ?_⟩
    rw [Audited.outcome_bind, hnodes]
    rfl
  · refine .inr ⟨hnone, ?_⟩
    rw [Audited.outcome_bind, hns]
    simp only [Except.bind, Audited.outcome_report_bind, Audited.outcome_lift, mapError_eq_ok,
      Graph.ofParts]
    rw [dif_pos (hnodup.sublist hsub)]
    refine ⟨_, rfl, fun n hn => ?_⟩
    obtain ⟨e, he, -, hload⟩ := exists_of_mem_loadNodes hns hn
    exact ⟨e, he, value_of_loadNode hload⟩

/-- **How loading a checked document fails.** -/
lemma outcome_load_eq_error_iff {v : Json} {d : Document} (h : (check strict v).outcome = .ok d)
    {x : LoadError} :
    d.load.outcome = .error x ↔ FirstFault NodeEntry.StopsLoading d.nodes x := by
  rcases outcome_load_of_check h with ⟨y, hy, hload⟩ | ⟨hnone, g, hload, -⟩
  · rw [hload, Except.error.injEq]
    exact ⟨fun heq => heq ▸ hy, hy.unique fun hx hy => hx.2.unique hy.2⟩
  · rw [hload]
    refine iff_of_false (by simp) fun hx => ?_
    obtain ⟨e, he, y, hy⟩ := exists_firstFault_iff.mp ⟨x, hx⟩
    exact hnone e he y hy

end Document

end LogicGraph
