import Mathlib.Tactic.Common
import LogicGraph.Document.Check
import LogicGraph.Proofs.Audited

set_option relaxedAutoImplicit false
set_option autoImplicit false

/-!
# What is read of a document

A document is read field by field, and each reader takes values of one form. This module says for
every reader what it has found when it succeeds, and that it succeeds whenever this is there: once
for a field, once for a case, a node and an edge, and once for the document. Whatever is known of
entries is derived from here.

## Main definitions

* `LogicGraph.Document.HasText` — a value has a text in a field.
* `LogicGraph.Document.ReadsCase`, `LogicGraph.Document.ReadsNode`, `LogicGraph.Document.ReadsEdge`
  — what a part of a document says, and what is read of it.

## Main results

* `LogicGraph.Document.readCases_cons_eq_ok_iff`, `LogicGraph.Document.readNode_eq_ok_iff`,
  `LogicGraph.Document.readEdge_eq_ok_iff`, `LogicGraph.Document.readTop_eq_ok_iff` — when a part is
  read, and as what.
-/

namespace LogicGraph.Document

/-- A value has a text in a field. -/
def HasText (v : Json) (key s : String) : Prop :=
  v.field? key = some (.string s)

/-! ## Fields -/

section

variable {part : Part} {fields inner : Fields} {key : String} {v : Json}

/-- Only an object has fields. -/
lemma memberFields_eq_ok : memberFields part v = .ok fields ↔ v = .object fields := by
  cases v <;> simp [memberFields]

/-- A field that is required is one that is there. -/
lemma required_eq_ok : required part fields key = .ok v ↔ Json.lookup fields key = some v := by
  unfold required
  cases Json.lookup fields key <;> simp

/-- Only a string is a text. -/
lemma asText_eq_ok {s : String} : asText part key v = .ok s ↔ v = .string s := by
  cases v <;> simp [asText]

/-- Only an array is a list. -/
lemma topList_eq_ok {items : List Json} : topList key v = .ok items ↔ v = .array items := by
  cases v <;> simp [topList]

/-- Nothing is given by a field that is missing or null. -/
lemma given?_eq_none : Json.given? fields key = none ↔ Json.lookup fields key = none ∨
    Json.lookup fields key = some .null := by
  unfold Json.given?
  split <;> simp_all

/-- What is read as an optional text is a text that is given, or nothing. -/
lemma optionalText_eq_ok_iff {s : Option String} :
    optionalText part fields key = .ok s ↔ Json.given? fields key = s.map .string := by
  unfold optionalText
  cases Json.given? fields key with
  | none => cases s <;> simp
  | some w => cases w <;> cases s <;> simp

/-- What is read as an optional flag is a flag that is given, or nothing. -/
lemma optionalFlag_eq_ok_iff {b : Option Bool} :
    optionalFlag part fields key = .ok b ↔ Json.given? fields key = b.map .bool := by
  unfold optionalFlag
  cases Json.given? fields key with
  | none => cases b <;> simp
  | some w => cases w <;> cases b <;> simp

/-- What is read as an optional number is a number that is given, or nothing. -/
lemma optionalNumber_eq_ok_iff {n : Option Number} :
    optionalNumber part fields key = .ok n ↔ Json.given? fields key = n.map .number := by
  unfold optionalNumber
  cases Json.given? fields key with
  | none => cases n <;> simp
  | some w => cases w <;> cases n <;> simp

/-- An object that is absent is read as one without fields. -/
lemma optionalObject_eq_ok_iff :
    optionalObject part fields key = .ok inner ↔
      Json.lookup fields key = none ∧ inner = [] ∨
      Json.lookup fields key = some (.object inner) := by
  unfold optionalObject
  cases Json.lookup fields key with
  | none => simp [eq_comm]
  | some w => cases w <;> simp

/-- The list of cases is read as it is, and anything empty in its place as the empty list. -/
lemma caseList_eq_ok_iff {i : Nat} {data : Fields} {items : List Json} :
    caseList i data = .ok items ↔ Json.lookup data "cases" = some (.array items) ∨
      items = [] ∧ ∀ w, Json.lookup data "cases" = some w → w.isTruthy = false := by
  unfold caseList
  cases Json.lookup data "cases" with
  | none =>
    rw [Except.ok.injEq, eq_comm]
    simp
  | some w =>
    cases w with
    | array items' =>
      simp only [Except.ok.injEq, Option.some.injEq, Json.array.injEq, forall_eq']
      refine ⟨.inl, ?_⟩
      rintro (rfl | ⟨rfl, hempty⟩)
      · rfl
      · simpa [Json.isTruthy] using hempty
    | _ =>
      simp only [Option.some.injEq, reduceCtorEq, forall_eq', false_or]
      split_ifs with htruthy
      · simp only [htruthy, reduceCtorEq, and_false]
      · rw [Bool.not_eq_true] at htruthy
        rw [Except.ok.injEq, htruthy, and_iff_left rfl, eq_comm]

end

/-! ## Cases -/

/-- What a case of a document says, and what is read of it. -/
structure ReadsCase (v : Json) (c : CaseEntry) : Prop where
  /-- The id. -/
  id : HasText v "id" c.id
  /-- The value; null if there is none. -/
  value : c.value = (v.field? "value").getD .null

/-- Cases are read one by one, each with an id that has not been seen. -/
lemma readCases_cons_eq_ok_iff {i j : Nat} {seen : List String} {v : Json} {rest : List Json}
    {cs : List CaseEntry} :
    readCases i j seen (v :: rest) = .ok cs ↔
      ∃ c cs', ReadsCase v c ∧ c.id ∉ seen ∧ readCases i (j + 1) (c.id :: seen) rest = .ok cs' ∧
        cs = c :: cs' := by
  simp only [readCases, bind_eq_ok, memberFields_eq_ok, required_eq_ok, asText_eq_ok]
  constructor
  · rintro ⟨fields, rfl, id, ⟨_, hid, rfl⟩, h⟩
    split_ifs at h with hmem
    · rw [bind_eq_ok] at h
      obtain ⟨_, hthrow, -⟩ := h
      cases hthrow
    · simp only [bind_eq_ok, pure, Except.pure, Except.ok.injEq] at h
      obtain ⟨cs', hcs', rfl⟩ := h
      exact ⟨⟨id, _⟩, cs', ⟨hid, rfl⟩, hmem, hcs', rfl⟩
  · rintro ⟨⟨id, value⟩, cs', ⟨hid, rfl⟩, hmem, hcs', rfl⟩
    cases v with
    | object fields =>
      refine ⟨fields, rfl, id, ⟨_, hid, rfl⟩, ?_⟩
      rw [if_neg hmem]
      simp only [bind_eq_ok, pure, Except.pure, Except.ok.injEq]
      exact ⟨cs', hcs', rfl⟩
    | _ => cases hid

/-- The values of the cases that are read are the values in the document. -/
lemma forall_value_iff_of_readCases {i j : Nat} {seen : List String} {vs : List Json}
    {cs : List CaseEntry} (h : readCases i j seen vs = .ok cs) (P : Json → Prop) :
    (∀ c ∈ cs, P c.value) ↔ ∀ v ∈ vs, P ((v.field? "value").getD .null) := by
  induction vs generalizing j seen cs with
  | nil =>
    cases h
    simp
  | cons v rest ih =>
    obtain ⟨c, cs, hc, -, hcs, rfl⟩ := readCases_cons_eq_ok_iff.mp h
    rw [List.forall_mem_cons, List.forall_mem_cons, ih hcs, hc.value]

/-- The cases that are read have distinct ids, none of which has been seen before. -/
lemma nodup_of_readCases {i j : Nat} {seen : List String} {vs : List Json} {cs : List CaseEntry}
    (h : readCases i j seen vs = .ok cs) : (cs.map CaseEntry.id).Nodup ∧ ∀ c ∈ cs, c.id ∉ seen := by
  induction vs generalizing j seen cs with
  | nil =>
    cases h
    simp
  | cons v rest ih =>
    obtain ⟨c, cs, -, hmem, hcs, rfl⟩ := readCases_cons_eq_ok_iff.mp h
    obtain ⟨hnodup, hseen⟩ := ih hcs
    rw [List.map_cons, List.nodup_cons, List.forall_mem_cons]
    refine ⟨⟨?_, hnodup⟩, hmem, ?_⟩
    · intro hid
      obtain ⟨c', hc', heq⟩ := List.mem_map.mp hid
      exact hseen c' hc' (heq ▸ List.mem_cons_self)
    · exact fun c' hc' hmem => hseen c' hc' (List.mem_cons_of_mem c.id hmem)

/-! ## Nodes -/

/-- What the fields of a node, of its data and of its position say, and what is read of them. The
ids of the nodes before are in `seen`, and `i` is the number of the node. -/
structure ReadsNode (i : Nat) (seen : List String) (fields data position : Fields) (e : NodeEntry) :
    Prop where
  /-- The id. -/
  id : Json.lookup fields "id" = some (.string e.id)
  /-- The name of the kind. -/
  typeName : Json.lookup fields "type" = some (.string e.typeName)
  /-- The id has not been seen before. -/
  fresh : e.id ∉ seen
  /-- The fields of the data. -/
  dataFields : optionalObject (.data i) fields "data" = .ok data
  /-- The label. -/
  label : optionalText (.data i) data "label" = .ok e.label
  /-- The name that the user chose. -/
  customName : optionalText (.data i) data "customName" = .ok e.customName
  /-- The name of the variable. -/
  variableName : optionalText (.data i) data "variableName" = .ok e.variableName
  /-- The operation. -/
  operation : optionalText (.data i) data "operation" = .ok e.operation
  /-- The remark. -/
  purpose : optionalText (.data i) data "purpose" = .ok e.purpose
  /-- Whether the node is shown as locked. -/
  isLocked : optionalFlag (.data i) data "isLocked" = .ok e.isLocked
  /-- Whether the node is shown as bypassed. -/
  isBypassed : optionalFlag (.data i) data "isBypassed" = .ok e.isBypassed
  /-- Whether a simulation adds to the node. -/
  isAction : optionalFlag (.data i) data "isAction" = .ok e.isAction
  /-- Whether a simulation observes the node. -/
  isObservation : optionalFlag (.data i) data "isObservation" = .ok e.isObservation
  /-- The first value; null if there is none. -/
  value : e.value = (Json.lookup data "value").getD .null
  /-- The cases. -/
  cases : ∃ items, caseList i data = .ok items ∧ readCases i 0 [] items = .ok e.cases
  /-- The fields of the position. -/
  positionFields : optionalObject (.position i) fields "position" = .ok position
  /-- The horizontal coordinate. -/
  x : optionalNumber (.position i) position "x" = .ok e.x
  /-- The vertical coordinate. -/
  y : optionalNumber (.position i) position "y" = .ok e.y

/-- A node is read from an object whose fields, data and position are as they should be. -/
lemma readNode_eq_ok_iff {i : Nat} {seen : List String} {v : Json} {e : NodeEntry} :
    readNode i seen v = .ok e ↔ ∃ fields data position, v = .object fields ∧
      ReadsNode i seen fields data position e := by
  unfold readNode
  simp only [bind_eq_ok (x := memberFields _ _), bind_eq_ok (x := required _ _ _),
    bind_eq_ok (x := asText _ _ _), memberFields_eq_ok, required_eq_ok, asText_eq_ok]
  constructor
  · rintro ⟨fields, rfl, _, hid, _, htype, id, rfl, typeName, rfl, h⟩
    split_ifs at h with hmem
    · rw [bind_eq_ok] at h
      obtain ⟨_, hthrow, -⟩ := h
      cases hthrow
    · simp only [bind_eq_ok, pure, Except.pure, Except.ok.injEq] at h
      obtain ⟨data, hdata, label, hlabel, customName, hcustomName, variableName, hvariableName,
          operation, hoperation, purpose,
        hpurpose, isLocked, hisLocked, isBypassed, hisBypassed, isAction, hisAction, isObservation,
        hisObservation, cases, hcases, position, hposition, x, hx, y, hy, rfl⟩ := h
      exact ⟨fields, data, position, rfl, hid, htype, hmem, hdata, hlabel, hcustomName,
        hvariableName, hoperation, hpurpose, hisLocked, hisBypassed, hisAction, hisObservation, rfl,
        hcases, hposition, hx, hy⟩
  · rintro ⟨fields, data, position, rfl, h⟩
    obtain ⟨items, hitems, hcases⟩ := h.cases
    refine ⟨fields, rfl, _, h.id, _, h.typeName, _, rfl, _, rfl, ?_⟩
    rw [if_neg h.fresh, h.dataFields, ok_bind, h.label, ok_bind, h.customName, ok_bind,
      h.variableName, ok_bind, h.operation, ok_bind, h.purpose, ok_bind, h.isLocked, ok_bind,
      h.isBypassed, ok_bind, h.isAction, ok_bind, h.isObservation, ok_bind, hitems, ok_bind, hcases,
      ok_bind, h.positionFields, ok_bind, h.x, ok_bind, h.y, ok_bind, ← h.value]
    rfl

/-- The id of an entry is the text under that key. -/
lemma hasText_of_readNode {i : Nat} {seen : List String} {v : Json} {e : NodeEntry}
    (h : readNode i seen v = .ok e) :
    HasText v "id" e.id := by
  obtain ⟨fields, data, position, rfl, hreads⟩ := readNode_eq_ok_iff.mp h
  exact hreads.id

/-! ## Edges -/

/-- What the fields of an edge say, and what is read of them. -/
structure ReadsEdge (i : Nat) (fields : Fields) (e : EdgeEntry) : Prop where
  /-- The id of the node that the edge leaves. -/
  source : Json.lookup fields "source" = some (.string e.source)
  /-- The id of the node that the edge enters. -/
  target : Json.lookup fields "target" = some (.string e.target)
  /-- The id. -/
  id : optionalText (.edge i) fields "id" = .ok e.id
  /-- The port that the edge leaves. -/
  sourceHandle : optionalText (.edge i) fields "sourceHandle" = .ok e.sourceHandle
  /-- The port that the edge enters. -/
  targetHandle : optionalText (.edge i) fields "targetHandle" = .ok e.targetHandle

/-- An edge is read from an object whose fields are as they should be. -/
lemma readEdge_eq_ok_iff {i : Nat} {v : Json} {e : EdgeEntry} :
    readEdge i v = .ok e ↔ ∃ fields, v = .object fields ∧ ReadsEdge i fields e := by
  simp only [readEdge, bind_eq_ok, memberFields_eq_ok, required_eq_ok, asText_eq_ok, pure,
    Except.pure, Except.ok.injEq]
  constructor
  · rintro ⟨fields, rfl, _, hsource, _, htarget, source, rfl, target, rfl, id, hid, sourceHandle,
      hsourceHandle, targetHandle, htargetHandle, rfl⟩
    exact ⟨fields, rfl, hsource, htarget, hid, hsourceHandle, htargetHandle⟩
  · rintro ⟨fields, rfl, h⟩
    exact ⟨fields, rfl, _, h.source, _, h.target, _, rfl, _, rfl, _, h.id, _, h.sourceHandle, _,
      h.targetHandle, rfl⟩

/-! ## Documents -/

/-- The top of a document is an object with a list of nodes and a list of edges, and its name is a
text if it is given. -/
lemma readTop_eq_ok_iff {v : Json} {name : Option String} {us ws : List Json} :
    readTop v = .ok (name, us, ws) ↔ ∃ fields, v = .object fields ∧
      optionalText .graph fields "name" = .ok name ∧
      Json.lookup fields "nodes" = some (.array us) ∧
      Json.lookup fields "edges" = some (.array ws) := by
  cases v with
  | object fields =>
    simp only [readTop, bind_eq_ok, required_eq_ok, topList_eq_ok, pure, Except.pure,
      Except.ok.injEq, Prod.mk.injEq]
    constructor
    · rintro ⟨_, hnodes, _, hedges, name', hname, us', rfl, ws', rfl, rfl, rfl, rfl⟩
      exact ⟨fields, rfl, hname, hnodes, hedges⟩
    · rintro ⟨_, ⟨⟩, hname, hnodes, hedges⟩
      exact ⟨_, hnodes, _, hedges, _, hname, _, rfl, _, rfl, rfl, rfl, rfl⟩
  | _ => simp [readTop]

end LogicGraph.Document
