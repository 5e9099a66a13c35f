import LogicGraph.Proofs.Document.Faults
import LogicGraph.Proofs.Document.Format

set_option relaxedAutoImplicit false
set_option autoImplicit false

/-!
# How a check ends

A check should pass every value of the format, and refuse every other. It does, with one exception.
Where an edge names the port by which it leaves a choice, the check reads a number from the name,
and there are names that look as if they had one and have none that can be read. If a check comes to
such a name, then it ends neither way. This module says exactly for which values this happens, in
terms of the format alone.

## Main definitions

* `LogicGraph.Document.IsUnreadable` — a name of a port whose number cannot be read.
* `LogicGraph.Document.LeavesChoice` — an edge of a document that names a port to leave a choice by.
* `LogicGraph.Document.ComesTo` — a value whose check comes to a port that is unreadable.

## Main results

* `LogicGraph.Document.exists_checkEdges_iff` — edges pass a check exactly if they are of the format
  and leave no choice by an unreadable port.
* `LogicGraph.Document.exists_check_iff_wellFormed` — which values pass a check, and which are
  refused.
* `LogicGraph.Document.check_ends_properly_iff` — when a check ends otherwise.
* `LogicGraph.Document.not_ends_properly_raisedDigit` — a value for which it does.
-/

namespace LogicGraph.Document

/-! ## Ports -/

/-- A name of a port whose number cannot be read: behind the stem of the names of case ports there
are only characters that look like digits, and they are too many, or one of them is no digit. -/
def IsUnreadable (port : String) : Prop :=
  ∃ cs, port.toList = casePortStem.toList ++ cs ∧ cs ≠ [] ∧ (∀ c ∈ cs, Text.isDigitLike c = true) ∧
    (Numeral.digitLimit < cs.length ∨ ∃ c ∈ cs, Text.decimalDigit? c = none)

/-- A name is unreadable exactly if reading its number fails. -/
lemma isUnreadable_iff {port : String} : IsUnreadable port ↔ ∃ f, Misnumbered port f := by
  have hfails : ∀ {cs : List Char}, cs ≠ [] → (∀ c ∈ cs, Text.isDigitLike c = true) →
      ((∃ f, Numeral.readInt cs = .error f) ↔ Numeral.digitLimit < cs.length ∨
        ∃ c ∈ cs, Text.decimalDigit? c = none) := by
    intro cs hne hcs
    have hspells : (∃ n, Numeral.readInt cs = .ok n) ↔ ∃ k, Numeral.Spells cs k := by
      simp only [Numeral.readInt_eq_ok_iff hne hcs]
      exact ⟨fun ⟨_, k, hk, _⟩ => ⟨k, hk⟩, fun ⟨k, hk⟩ => ⟨k, k, hk, rfl⟩⟩
    calc (∃ f, Numeral.readInt cs = .error f)
        ↔ ¬ ∃ n, Numeral.readInt cs = .ok n := by cases Numeral.readInt cs <;> simp
      _ ↔ ¬ (cs.length ≤ Numeral.digitLimit ∧ ∀ c ∈ cs, Text.decimalDigit? c ≠ none) := by
          rw [hspells, Numeral.exists_spells_iff hne]
      _ ↔ _ := by
          rw [not_and_or, Nat.not_le]
          push Not
          rfl
  constructor
  · rintro ⟨cs, hport, hne, hcs, hbad⟩
    obtain ⟨f, hf⟩ := (hfails hne hcs).mpr hbad
    exact ⟨f, cs, hport, hne, hcs, hf⟩
  · rintro ⟨f, cs, hport, hne, hcs, hf⟩
    exact ⟨cs, hport, hne, hcs, (hfails hne hcs).mp ⟨f, hf⟩⟩

/-- An edge of a document leaves a choice among the nodes, and names the port. -/
structure LeavesChoice (us : List Json) (w : Json) (port : String) : Prop where
  /-- The node that the edge leaves is a choice. -/
  source : ∃ u ∈ us, HasText u "type" Kind.ifElse.wire ∧ ∃ id, HasText u "id" id ∧
    HasText w "source" id
  /-- The edge names the port. -/
  sourceHandle : HasText w "sourceHandle" port

/-- An edge of a document leaves a choice by an unreadable port. -/
def LeavesUnreadably (us : List Json) (w : Json) : Prop :=
  ∃ port, LeavesChoice us w port ∧ IsUnreadable port

/-! ## Entries -/

/-- The entries of checked nodes have the ids and the types of the nodes. -/
lemma forall₂_hasText_of_checkNodes {strict : Bool} {i : Nat} {seen : List String} {us : List Json}
    {ns : List NodeEntry} (h : (checkNodes strict i seen us).outcome = .ok ns) :
    List.Forall₂ (fun u n => HasText u "id" n.id ∧ HasText u "type" n.typeName) us ns := by
  refine (forall₂_readNode_of_checkNodes h).imp ?_
  rintro u n ⟨i, seen, hn⟩
  obtain ⟨fields, data, position, rfl, hreads⟩ := readNode_eq_ok_iff.mp hn
  exact ⟨hreads.id, hreads.typeName⟩

/-- An entry is of a kind exactly if its type is the name of the kind. -/
lemma kind?_eq_some_iff {n : NodeEntry} {k : Kind} : n.kind? = some k ↔ n.typeName = k.wire := by
  constructor
  · intro h
    exact (Kind.wire_of_ofWire? h).symm
  · intro h
    rw [NodeEntry.kind?, h, Kind.ofWire?_wire]

section

variable {us : List Json} {ns : List NodeEntry}

/-- Whether an edge leaves a choice by an unreadable port is seen from the entries of nodes and
edge. -/
lemma leavesMisnumbered_iff
    (hns : List.Forall₂ (fun u n => HasText u "id" n.id ∧ HasText u "type" n.typeName) us ns)
    (hnodup : (ns.map NodeEntry.id).Nodup) {i : Nat} {w : Json} {e : EdgeEntry}
    (he : readEdge i w = .ok e) {f : Numeral.Fault} :
    e.LeavesMisnumbered ns f ↔ ∃ port, LeavesChoice us w port ∧ Misnumbered port f := by
  obtain ⟨fields, rfl, hreads⟩ := readEdge_eq_ok_iff.mp he
  have hhandle : ∀ port, e.sourceHandle = some port ↔
      HasText (.object fields) "sourceHandle" port := by
    intro port
    have hgiven := optionalText_eq_ok_iff.mp hreads.sourceHandle
    show _ ↔ Json.lookup fields "sourceHandle" = some (.string port)
    unfold Json.given? at hgiven
    split at hgiven
    · rename_i hnull
      rw [hnull, Option.map_eq_none_iff.mp hgiven.symm]
      simp
    · rw [hgiven]
      simp
  constructor
  · rintro ⟨n, port, hn, hkind, hport, hmisnumbered⟩
    obtain ⟨u, hu, hid, htype⟩ := exists_of_forall₂_of_mem_right hns (List.mem_of_find?_eq_some hn)
    have hsource : n.id = e.source := by simpa using List.find?_some hn
    refine ⟨port, ⟨⟨u, hu, ?_, e.source, hsource ▸ hid, hreads.source⟩, (hhandle port).mp hport⟩,
      hmisnumbered⟩
    rw [← kind?_eq_some_iff.mp hkind]
    exact htype
  · rintro ⟨port, ⟨⟨u, hu, htype, id, hid, hsource⟩, hport⟩, hmisnumbered⟩
    obtain ⟨n, hn, hid', htype'⟩ := exists_of_forall₂_of_mem_left hns hu
    have heq : n.id = e.source := by
      have hsame := hid'.symm.trans (hid.trans (hsource.symm.trans hreads.source))
      exact Json.string.inj (Option.some.inj hsame)
    have hkind : n.typeName = Kind.ifElse.wire :=
      Json.string.inj (Option.some.inj (htype'.symm.trans htype))
    refine ⟨n, port, ?_, kind?_eq_some_iff.mpr hkind, (hhandle port).mpr hport, hmisnumbered⟩
    rw [← heq]
    exact find?_eq_some_of_nodup hnodup hn

/-! ## Edges -/

/-- Without strictness, nothing but the name of a port can go wrong with an end. -/
lemma outcome_checkEnd_false_cases (ns : List NodeEntry) (i : Nat) (d : Direction) (id : String)
    (handle : Option String) :
    (checkEnd false ns i d id handle).outcome = .ok () ∨
      ∃ f, (checkEnd false ns i d id handle).outcome = .error (.port f) := by
  unfold checkEnd
  cases ns.find? (·.id == id) with
  | none => exact .inl rfl
  | some n =>
    simp only
    cases n.kind? with
    | none => exact .inl rfl
    | some kind =>
      cases handle with
      | none => exact .inl rfl
      | some port =>
        simp only
        cases kind.hasPort port d n.cases.length with
        | error f => exact .inr ⟨f, rfl⟩
        | ok there => cases there <;> exact .inl rfl

/-- The check of edges passes without strictness exactly if the first edge is read and leaves no
choice by a port whose number cannot be read, and the check of the others passes. -/
lemma exists_checkEdges_cons_iff {i : Nat} {w : Json} {rest : List Json} :
    (∃ es, (checkEdges false ns i (w :: rest)).outcome = .ok es) ↔
      (∃ e, readEdge i w = .ok e ∧ ∀ f, ¬ e.LeavesMisnumbered ns f) ∧
      ∃ es, (checkEdges false ns (i + 1) rest).outcome = .ok es := by
  have hsource : ∀ e : EdgeEntry,
      (checkEnd false ns i .output e.source e.sourceHandle).outcome = .ok () ↔
        ∀ f, ¬ e.LeavesMisnumbered ns f := by
    intro e
    have hport : ∀ f,
        (checkEnd false ns i .output e.source e.sourceHandle).outcome = .error (.port f) ↔
          e.LeavesMisnumbered ns f := by
      intro f
      rw [outcome_checkEnd_eq_port_iff, and_iff_right rfl]
      rfl
    simp only [← hport]
    rcases outcome_checkEnd_false_cases ns i .output e.source e.sourceHandle with hok | ⟨f, hf⟩
    · simp [hok]
    · simp [hf]
  have htarget : ∀ e : EdgeEntry,
      (checkEnd false ns i .input e.target e.targetHandle).outcome = .ok () := by
    intro e
    refine (outcome_checkEnd_false_cases ns i .input e.target e.targetHandle).resolve_right ?_
    rintro ⟨f, hf⟩
    cases (outcome_checkEnd_eq_port_iff.mp hf).1
  simp only [checkEdges, Audited.outcome_bind_eq_ok, Audited.outcome_lift, Audited.outcome_pure,
    mapError_eq_ok, hsource, htarget, Except.ok.injEq, true_and]
  constructor
  · rintro ⟨_, e, he, -, hleaves, -, es, hes, -⟩
    exact ⟨⟨e, he, hleaves⟩, es, hes⟩
  · rintro ⟨⟨e, he, hleaves⟩, es, hes⟩
    exact ⟨_, e, he, (), hleaves, (), es, hes, rfl⟩

/-- **Edges pass a check exactly if they are of the format and leave no choice by an unreadable
port.** -/
lemma exists_checkEdges_iff
    (hns : List.Forall₂ (fun u n => HasText u "id" n.id ∧ HasText u "type" n.typeName) us ns)
    (hnodup : (ns.map NodeEntry.id).Nodup) {i : Nat} {ws : List Json} :
    (∃ es, (checkEdges false ns i ws).outcome = .ok es) ↔ ∀ w ∈ ws, EdgeFormed w ∧
      ¬ LeavesUnreadably us w := by
  induction ws generalizing i with
  | nil => simp [checkEdges]
  | cons w rest ih =>
    rw [exists_checkEdges_cons_iff, List.forall_mem_cons, ih, ← exists_readEdge_iff (i := i)]
    refine and_congr_left fun _ => ?_
    have hleaves : ∀ {e}, readEdge i w = .ok e →
        ((∀ f, ¬ e.LeavesMisnumbered ns f) ↔ ¬ LeavesUnreadably us w) := by
      intro e he
      simp only [leavesMisnumbered_iff hns hnodup he, LeavesUnreadably, isUnreadable_iff]
      rw [← not_exists, not_iff_not]
      constructor
      · rintro ⟨f, port, hport, hf⟩
        exact ⟨port, hport, f, hf⟩
      · rintro ⟨port, hport, f, hf⟩
        exact ⟨f, port, hport, hf⟩
    constructor
    · rintro ⟨e, he, hfine⟩
      exact ⟨⟨e, he⟩, (hleaves he).mp hfine⟩
    · rintro ⟨⟨e, he⟩, hfine⟩
      exact ⟨e, he, (hleaves he).mpr hfine⟩

/-- Edges of the format are not refused. -/
lemma outcome_checkEdges_false_ne_schema {i : Nat} {ws : List Json} (hws : ∀ w ∈ ws, EdgeFormed w)
    (x : SchemaError) :
    (checkEdges false ns i ws).outcome ≠ .error (.schema x) := by
  induction ws generalizing i with
  | nil => exact Audited.outcome_pure_ne_error _ _
  | cons w rest ih =>
    obtain ⟨hw, hrest⟩ := List.forall_mem_cons.mp hws
    obtain ⟨e, he⟩ := (exists_readEdge_iff (i := i)).mpr hw
    have hend : ∀ d id handle, (checkEnd false ns i d id handle).outcome ≠ .error (.schema x) := by
      intro d id handle
      rcases outcome_checkEnd_false_cases ns i d id handle with hok | ⟨f, hf⟩
      · simp [hok]
      · simp [hf]
    rw [checkEdges, he]
    refine Audited.outcome_bind_ne_error ?_ fun e => ?_
    · simp [Except.mapError]
    · exact Audited.outcome_bind_ne_error (hend _ _ _) fun _ =>
        Audited.outcome_bind_ne_error (hend _ _ _) fun _ =>
        Audited.outcome_bind_ne_error (ih hrest) fun _ => Audited.outcome_pure_ne_error _ _

end

/-! ## Documents -/

/-- A document has an edge that leaves a choice by an unreadable port. -/
def HasUnreadablePort (v : Json) : Prop :=
  ∃ us ∈ v.list? "nodes", ∃ ws ∈ v.list? "edges", ∃ w ∈ ws, LeavesUnreadably us w

/-- A value passes a check exactly if its name and lists are read and its nodes and edges pass. -/
lemma exists_check_iff {strict : Bool} {v : Json} :
    (∃ d, (check strict v).outcome = .ok d) ↔ ∃ us ws, (∃ name, readTop v = .ok (name, us, ws)) ∧
      ∃ ns, (checkNodes strict 0 [] us).outcome = .ok ns ∧
        ∃ es, (checkEdges strict ns 0 ws).outcome = .ok es := by
  simp only [check, Audited.outcome_bind_eq_ok, Audited.outcome_lift, Audited.outcome_pure,
    mapError_eq_ok, Except.ok.injEq]
  constructor
  · rintro ⟨d, ⟨name, us, ws⟩, htop, ns, hns, es, hes, -⟩
    exact ⟨us, ws, ⟨name, htop⟩, ns, hns, es, hes⟩
  · rintro ⟨us, ws, ⟨name, htop⟩, ns, hns, es, hes⟩
    exact ⟨_, (name, us, ws), htop, ns, hns, es, hes, rfl⟩

/-- A value of the format is not refused. -/
lemma outcome_check_false_ne_schema {v : Json} (h : WellFormed v) (x : SchemaError) :
    (check false v).outcome ≠ .error (.schema x) := by
  obtain ⟨us, hus, hnodes⟩ := h.nodes
  obtain ⟨ws, hws, hedges⟩ := h.edges
  obtain ⟨name, htop⟩ := exists_readTop_iff.mpr ⟨h.object, h.name, hus, hws⟩
  obtain ⟨ns, hns⟩ := (exists_checkNodes_iff (i := 0)).mpr (formedAfter_nil_seen.mpr hnodes)
  simp only [check, htop, Except.mapError, Audited.lift_ok_bind]
  rw [Audited.outcome_bind, hns]
  exact Audited.outcome_bind_ne_error (outcome_checkEdges_false_ne_schema hedges x) fun _ =>
    Audited.outcome_pure_ne_error _ _

/-- **A check passes the values of the format and refuses the others**, unless it comes to an edge
that leaves a choice by an unreadable port. Precisely, a value passes exactly if it is of the format
and has no such edge, and a value that is refused is not of the format. -/
theorem exists_check_iff_wellFormed (v : Json) :
    ((∃ d, (check false v).outcome = .ok d) ↔ WellFormed v ∧ ¬ HasUnreadablePort v) ∧
    ((∃ x, (check false v).outcome = .error (.schema x)) → ¬ WellFormed v) := by
  refine ⟨?_, fun ⟨x, hx⟩ h => outcome_check_false_ne_schema h x hx⟩
  rw [exists_check_iff]
  constructor
  · rintro ⟨us, ws, htop, ns, hns, hes⟩
    obtain ⟨hobject, hname, hus, hws⟩ := exists_readTop_iff.mp htop
    have hnodes := formedAfter_nil_seen.mp (exists_checkNodes_iff.mp ⟨ns, hns⟩)
    have hedges :=
      (exists_checkEdges_iff (forall₂_hasText_of_checkNodes hns) (nodup_of_checkNodes hns).1).mp hes
    refine ⟨⟨hobject, hname, ⟨us, hus, hnodes⟩, ws, hws, fun w hw => (hedges w hw).1⟩, ?_⟩
    rintro ⟨us', hus', ws', hws', w, hw, hleaves⟩
    cases hus.symm.trans hus'
    cases hws.symm.trans hws'
    exact (hedges w hw).2 hleaves
  · rintro ⟨⟨hobject, hname, ⟨us, hus, hnodes⟩, ws, hws, hedges⟩, hreadable⟩
    obtain ⟨ns, hns⟩ := (exists_checkNodes_iff (i := 0)).mpr (formedAfter_nil_seen.mpr hnodes)
    refine ⟨us, ws, exists_readTop_iff.mpr ⟨hobject, hname, hus, hws⟩, ns, hns, ?_⟩
    rw [exists_checkEdges_iff (forall₂_hasText_of_checkNodes hns) (nodup_of_checkNodes hns).1]
    exact fun w hw => ⟨hedges w hw, fun hleaves => hreadable ⟨us, hus, ws, hws, w, hw, hleaves⟩⟩

/-- A document in which what may be left out is null or empty. -/
def sparseDocument : Json :=
  .object [
    ("name", .null),
    ("nodes", .array [
      .object [
        ("id", .string "a"), ("type", .string "teleporter"),
        ("data", .object [("label", .null), ("isAction", .null), ("cases", .string "")]),
        ("position", .object [("x", .null)])]]),
    ("edges",
      .array [.object [("source", .string "a"), ("target", .string "ghost"), ("id", .null)]])]

/-- A value that is no document only because a truth value stands for a coordinate. -/
def flaggedPosition : Json :=
  .object [
    ("nodes", .array [
      .object [("id", .string "a"), ("type", .string "math"),
        ("position", .object [("x", .int 0), ("y", .bool true)])]]),
    ("edges", .array [])]

/-- `sparseDocument` passes and is of the format, and `flaggedPosition` is refused and is not. -/
theorem wellFormed_sparseDocument :
    (∃ d, (check false sparseDocument).outcome = .ok d) ∧ WellFormed sparseDocument ∧
    (check false flaggedPosition).outcome = .error (.schema (.notNumber (.position 0) "y")) ∧
    ¬ WellFormed flaggedPosition := by
  have hpasses : ∃ d, (check false sparseDocument).outcome = .ok d := ⟨_, rfl⟩
  exact ⟨hpasses, ((exists_check_iff_wellFormed sparseDocument).1.mp hpasses).1, rfl,
    (exists_check_iff_wellFormed flaggedPosition).2 ⟨_, rfl⟩⟩

/-! ## Ports that cannot be read -/

/-- The check of a value comes to an edge that leaves a choice by an unreadable port. The name and
the nodes are of the format, and so are the edges up to this one, and none before it leaves a choice
by an unreadable port. -/
inductive ComesTo (v : Json) : String → Prop
  | edge {us before behind : List Json} {w : Json} {port : String}
      (hobject : v.isObject = true) (hname : Admits v Json.isText "name")
      (hnodes : v.list? "nodes" = some us) (hedges : v.list? "edges" = some (before ++ w :: behind))
      (hus : DistinctlyFormed NodeFormed us)
      (hbefore : ∀ x ∈ before, EdgeFormed x ∧ ¬ LeavesUnreadably us x) (hw : EdgeFormed w)
      (hleaves : LeavesChoice us w port) (hport : IsUnreadable port) : ComesTo v port

/-- **When a check without strictness fails over the name of a port.** -/
lemma outcome_check_false_eq_port_iff {v : Json} {f : Numeral.Fault} :
    (check false v).outcome = .error (.port f) ↔ ∃ port, ComesTo v port ∧ Misnumbered port f := by
  rw [outcome_check_eq_port_iff]
  constructor
  · rintro ⟨name, us, before, w, behind, ns, es, e, htop, hns, hes, he, hleaves⟩
    obtain ⟨hobject, hname, hus, hws⟩ := exists_readTop_iff.mp ⟨name, htop⟩
    have hids := forall₂_hasText_of_checkNodes hns
    have hnodup := (nodup_of_checkNodes hns).1
    obtain ⟨port, hport, hf⟩ := (leavesMisnumbered_iff hids hnodup he).mp hleaves
    exact ⟨port,
      .edge hobject hname hus hws (formedAfter_nil_seen.mp (exists_checkNodes_iff.mp ⟨ns, hns⟩))
      ((exists_checkEdges_iff hids hnodup).mp ⟨es, hes⟩) (exists_readEdge_iff.mp ⟨e, he⟩) hport
      (isUnreadable_iff.mpr ⟨f, hf⟩), hf⟩
  · rintro ⟨port, ⟨hobject, hname, hnodes, hedges, hus, hbefore, hw, hleaves, -⟩, hf⟩
    obtain ⟨name, htop⟩ := exists_readTop_iff.mpr ⟨hobject, hname, hnodes, hedges⟩
    obtain ⟨ns, hns⟩ := (exists_checkNodes_iff (i := 0)).mpr (formedAfter_nil_seen.mpr hus)
    have hids := forall₂_hasText_of_checkNodes hns
    have hnodup := (nodup_of_checkNodes hns).1
    obtain ⟨es, hes⟩ := (exists_checkEdges_iff hids hnodup (i := 0)).mpr hbefore
    obtain ⟨e, he⟩ := exists_readEdge_iff.mpr hw
    exact ⟨name, _, _, _, _, ns, es, e, htop, hns, hes, he,
      (leavesMisnumbered_iff hids hnodup he).mpr ⟨port, hleaves, hf⟩⟩

/-- A strict check fails over the name of a port exactly if the other one does so without a warning
before. -/
lemma outcome_check_eq_port_iff_warnings {strict : Bool} {v : Json} {f : Numeral.Fault} :
    (check strict v).outcome = .error (.port f) ↔
      (check false v).outcome = .error (.port f) ∧
      (strict = true → (check false v).warnings = []) := by
  cases strict with
  | false => simp
  | true =>
    have hending : ∀ x, (.error (.port f) : Except CheckError Document) ≠
        .error (.schema (.flaw x)) := by simp
    simpa using (stopsAtFlaws_check v).outcome_eq_iff hending

/-- **When a check ends neither by passing a value nor by refusing it.** This happens exactly if it
comes to an edge that leaves a choice by an unreadable port, and, for a strict check, if the other
one has not warned before. The check then fails with the fault of the number in the name of this
port. -/
theorem check_ends_properly_iff (strict : Bool) (v : Json) :
    (((∃ d, (check strict v).outcome = .ok d) ∨
      ∃ x, (check strict v).outcome = .error (.schema x)) ↔
      ¬ ((∃ port, ComesTo v port) ∧ (strict = true → (check false v).warnings = []))) ∧
    ∀ f, (check strict v).outcome = .error (.port f) ↔
      (∃ port, ComesTo v port ∧ Misnumbered port f) ∧
      (strict = true → (check false v).warnings = []) := by
  have hport : ∀ f, (check strict v).outcome = .error (.port f) ↔
      (∃ port, ComesTo v port ∧ Misnumbered port f) ∧
        (strict = true → (check false v).warnings = []) := by
    intro f
    rw [outcome_check_eq_port_iff_warnings, outcome_check_false_eq_port_iff]
  refine ⟨?_, hport⟩
  have hcomes : (∃ port, ComesTo v port) ↔ ∃ f port, ComesTo v port ∧ Misnumbered port f := by
    constructor
    · rintro ⟨port, hcomes⟩
      obtain ⟨f, hf⟩ : ∃ f, Misnumbered port f := by
        cases hcomes with
        | edge _ _ _ _ _ _ _ _ hunreadable => exact isUnreadable_iff.mp hunreadable
      exact ⟨f, port, hcomes, hf⟩
    · rintro ⟨-, port, hcomes, -⟩
      exact ⟨port, hcomes⟩
  have hends : ((∃ d, (check strict v).outcome = .ok d) ∨
      ∃ x, (check strict v).outcome = .error (.schema x)) ↔
      ¬ ∃ f, (check strict v).outcome = .error (.port f) := by
    cases (check strict v).outcome with
    | ok d => simp
    | error e => cases e <;> simp
  rw [hends, hcomes, ← exists_and_right]
  simp only [hport]

/-- A document with an edge that leaves a choice by a port with a raised digit for its number. -/
def raisedDigitDocument : Json :=
  .object [
    ("nodes", .array [
      .object [("id", .string "b"), ("type", .string "if_else")],
      .object [("id", .string "s"), ("type", .string "ui_state")]]),
    ("edges", .array [
      .object [("source", .string "b"), ("target", .string "s"),
        ("sourceHandle", .string "case_out_²")]])]

/-- **A value of the format whose check ends neither by passing it nor by refusing it**, strict or
not. -/
theorem not_ends_properly_raisedDigit :
    WellFormed raisedDigitDocument ∧
    ∀ strict, (check strict raisedDigitDocument).outcome = .error (.port (.malformed "²")) := by
  refine ⟨by decide, fun strict => ?_⟩
  cases strict <;> rfl

end LogicGraph.Document
