import LogicGraph.Proofs.Document.Conversion
import LogicGraph.Proofs.Document.RoundTrip

set_option relaxedAutoImplicit false
set_option autoImplicit false

/-!
# What loading keeps and what it leaves out

Loading goes through the nodes of a document, leaves out those of unknown kind, and then goes
through the edges and leaves out those that end at no node that is left or have no port to end at.
This module says on the document itself which nodes and edges are kept and what becomes of each of
them. What is left out does not matter: a document from which the nodes of unknown kind and the
edges at such nodes have been deleted loads as the same graph.

## Main definitions

* `LogicGraph.Document.nodeKind?`, `LogicGraph.Document.endKind?`, `LogicGraph.Document.endPort?` —
  the kind of a node of a document, and the kind of the node and the port at one end of an edge.
* `LogicGraph.Document.NodeOf`, `LogicGraph.Document.EdgeOf` — what becomes of a node and of an
  edge.
* `LogicGraph.Graph.Represents` — a graph has the nodes and edges that a document says.
* `LogicGraph.Graph.IsClosed` — the edges of a graph end at its nodes.
* `LogicGraph.Document.prune` — a document without what is left out for the kinds of its nodes.

## Main results

* `LogicGraph.Document.nodeOf_of_loadNode`, `LogicGraph.Document.loadEdge_cases` — loading one node
  and one edge.
* `LogicGraph.Document.checkNodes_filter`, `LogicGraph.Document.checkEdges_filter` — the check of
  what is kept.
* `LogicGraph.Graph.represents_and_prune` — what is loaded, and that pruning does not change it.
-/

namespace LogicGraph

namespace Json

/-- The text in a field, if there is one. -/
def text? (v : Json) (key : String) : Option String :=
  match v.field? key with
  | some (.string s) => some s
  | _ => none

/-- The truth value in a field, if there is one. -/
def flag? (v : Json) (key : String) : Option Bool :=
  match v.field? key with
  | some (.bool b) => some b
  | _ => none

/-- The number in a field, if there is one. -/
def number? (v : Json) (key : String) : Option Number :=
  match v.field? key with
  | some (.number n) => some n
  | _ => none

end Json

namespace Document

/-! ## What a document says -/

/-- The kind of a node of a document, if it is known. -/
def nodeKind? (u : Json) : Option Kind :=
  (u.text? "type").bind Kind.ofWire?

/-- Whether the kind of a node of a document is known. -/
def isKnown (u : Json) : Bool :=
  (nodeKind? u).isSome

/-- The field that has the node at one end of an edge. -/
def endKey : Direction → String
  | .output => "source"
  | .input => "target"

/-- The field that has the port at one end of an edge. -/
def handleKey : Direction → String
  | .output => "sourceHandle"
  | .input => "targetHandle"

/-- The kind of the node at one end of an edge, if there is such a node and its kind is known. -/
def endKind? (us : List Json) (w : Json) (d : Direction) : Option Kind := do
  let id ← w.text? (endKey d)
  let u ← us.find? (·.text? "id" == some id)
  nodeKind? u

/-- The port at one end of an edge, if there is one: at a node of known kind the port that is given
and not empty, or the default one of the kind. -/
def endPort? (us : List Json) (w : Json) (d : Direction) : Option String := do
  let k ← endKind? us w d
  nonempty? (w.text? (handleKey d)) <|> k.defaultPort? d

/-- Whether an edge has nodes of known kind at both ends. -/
def isJoined (us : List Json) (w : Json) : Bool :=
  (endKind? us w .output).isSome && (endKind? us w .input).isSome

/-- Whether an edge has ports at both ends. -/
def isAttached (us : List Json) (w : Json) : Bool :=
  (endPort? us w .output).isSome && (endPort? us w .input).isSome

/-- The text that the value of a case becomes. -/
def caseText : Json → String
  | .null => ""
  | v => v.plainText

/-- What becomes of a case. -/
structure CaseOf (w : Json) (c : Case) : Prop where
  /-- The id. -/
  id : HasText w "id" c.id
  /-- The value becomes text. -/
  value : c.value = .string (caseText ((w.field? "value").getD .null))

/-- The object in a field, or one without fields. -/
def objectAt (v : Json) (key : String) : Json :=
  (v.field? key).getD (.object [])

/-- What becomes of a node of known kind. -/
structure NodeOf (u : Json) (n : Node) : Prop where
  /-- The id. -/
  id : HasText u "id" n.id
  /-- The kind. -/
  kind : nodeKind? u = some n.kind
  /-- The label. -/
  label : n.label = ((objectAt u "data").text? "label").getD ""
  /-- The name that the user chose, if it is not empty. -/
  customName : n.customName = nonempty? ((objectAt u "data").text? "customName")
  /-- The name of the variable, if it is not empty. -/
  variableName : n.variableName = nonempty? ((objectAt u "data").text? "variableName")
  /-- The first value. -/
  value : n.value = ((objectAt u "data").field? "value").getD .null
  /-- The operation. -/
  operation : n.operation = (objectAt u "data").text? "operation"
  /-- The remark. -/
  purpose : n.purpose = (objectAt u "data").text? "purpose"
  /-- Whether the node is shown as locked. -/
  isLocked : n.isLocked = ((objectAt u "data").flag? "isLocked").getD false
  /-- Whether the node is shown as bypassed. -/
  isBypassed : n.isBypassed = ((objectAt u "data").flag? "isBypassed").getD false
  /-- Whether a simulation adds to the node. -/
  isAction : n.isAction = (objectAt u "data").flag? "isAction"
  /-- Whether a simulation observes the node. -/
  isObservation : n.isObservation = (objectAt u "data").flag? "isObservation"
  /-- The cases, in order. -/
  cases : List.Forall₂ CaseOf (((objectAt u "data").list? "cases").getD []) n.cases
  /-- The horizontal coordinate. -/
  x : loadCoordinate ((objectAt u "position").number? "x") = .ok n.position.x
  /-- The vertical coordinate. -/
  y : loadCoordinate ((objectAt u "position").number? "y") = .ok n.position.y

/-- What becomes of an edge with ports at both ends. -/
structure EdgeOf (us : List Json) (w : Json) (e : Edge) : Prop where
  /-- The node that the edge leaves. -/
  source : HasText w "source" e.source
  /-- The node that the edge enters. -/
  target : HasText w "target" e.target
  /-- The port that the edge leaves. -/
  sourceHandle : endPort? us w .output = some e.sourceHandle
  /-- The port that the edge enters. -/
  targetHandle : endPort? us w .input = some e.targetHandle
  /-- The id, or one made from the ends. -/
  id : e.id = (nonempty? (w.text? "id")).getD
    (derivedEdgeId e.source e.sourceHandle e.target e.targetHandle)

/-- Which members of the list in a field are not deleted: of the nodes those of known kind, of the
edges those between such nodes. -/
def isKept (us : List Json) (key : String) (w : Json) : Bool :=
  if key = "nodes" then isKnown w else if key = "edges" then isJoined us w else true

/-- What is left of the value of a field. -/
def pruneValue (us : List Json) (key : String) : Json → Json
  | .array items => .array (items.filter (isKept us key))
  | w => w

/-- A document without its nodes of unknown kind and without the edges that do not join two of the
other nodes. -/
def prune (v : Json) : Json :=
  match v with
  | .object fields =>
    .object (fields.map fun (key, w) => (key, pruneValue ((v.list? "nodes").getD []) key w))
  | v => v

end Document

open Document

/-- A graph has the nodes and the edges that a document says, in the same order. -/
structure Graph.Represents (g : Graph) (v : Json) : Prop where
  /-- The name. -/
  name : g.name = (nonempty? (v.text? "name")).getD defaultGraphName
  /-- There is one node for each of known kind, and one edge for each that has ports at both
  ends. -/
  parts : ∃ us ws, v.list? "nodes" = some us ∧ v.list? "edges" = some ws ∧
    List.Forall₂ NodeOf (us.filter isKnown) g.nodes ∧
      List.Forall₂ (EdgeOf us) (ws.filter (isAttached us)) g.edges

/-- The edges of a graph are named and end at its nodes, and ids are distinct. -/
structure Graph.IsClosed (g : Graph) : Prop where
  /-- Every edge leaves a node and enters a node. -/
  ends : ∀ e ∈ g.edges, (∃ n ∈ g.nodes, n.id = e.source) ∧ ∃ n ∈ g.nodes, n.id = e.target
  /-- Every edge has ports and an id. -/
  named : ∀ e ∈ g.edges, e.sourceHandle ≠ "" ∧ e.targetHandle ≠ "" ∧ e.id ≠ ""
  /-- Nodes have distinct ids. -/
  nodes : (g.nodes.map Node.id).Nodup
  /-- The cases of a node have distinct ids. -/
  cases : ∀ n ∈ g.nodes, (n.cases.map Case.id).Nodup

namespace Document

/-! ## Fields that have been read -/

section

variable {part : Part} {fields inner : Fields} {key : String}

/-- A text under a key is what is found there as a text. -/
lemma hasText_iff {v : Json} {s : String} : HasText v key s ↔ v.text? key = some s := by
  unfold HasText Json.text?
  cases v.field? key with
  | none => simp
  | some w => cases w <;> simp

/-- An optional text that is read is what is found as a text. -/
lemma text?_of_optionalText {s : Option String} (h : optionalText part fields key = .ok s) :
    (Json.object fields).text? key = s := by
  rw [optionalText_eq_ok_iff, Json.given?] at h
  show (match Json.lookup fields key with | some (.string s) => some s | _ => none) = s
  cases hlookup : Json.lookup fields key with
  | none => cases s <;> simp_all
  | some w => cases w <;> cases s <;> simp_all

/-- An optional flag that is read is what is found as a flag. -/
lemma flag?_of_optionalFlag {b : Option Bool} (h : optionalFlag part fields key = .ok b) :
    (Json.object fields).flag? key = b := by
  rw [optionalFlag_eq_ok_iff, Json.given?] at h
  show (match Json.lookup fields key with | some (.bool b) => some b | _ => none) = b
  cases hlookup : Json.lookup fields key with
  | none => cases b <;> simp_all
  | some w => cases w <;> cases b <;> simp_all

/-- An optional number that is read is what is found as a number. -/
lemma number?_of_optionalNumber {n : Option Number} (h : optionalNumber part fields key = .ok n) :
    (Json.object fields).number? key = n := by
  rw [optionalNumber_eq_ok_iff, Json.given?] at h
  show (match Json.lookup fields key with | some (.number n) => some n | _ => none) = n
  cases hlookup : Json.lookup fields key with
  | none => cases n <;> simp_all
  | some w => cases w <;> cases n <;> simp_all

/-- An optional object that is read is what is found as an object. -/
lemma objectAt_of_optionalObject (h : optionalObject part fields key = .ok inner) :
    objectAt (.object fields) key = .object inner := by
  show (Json.lookup fields key).getD (.object []) = _
  rcases optionalObject_eq_ok_iff.mp h with ⟨habsent, rfl⟩ | hlookup
  · rw [habsent]
    rfl
  · rw [hlookup]
    rfl

/-- The list of cases that is read is what is found as a list. -/
lemma list?_of_caseList {i : Nat} {items : List Json} (h : caseList i inner = .ok items) :
    ((Json.object inner).list? "cases").getD [] = items := by
  rw [Json.list?, Json.field?]
  rcases caseList_eq_ok_iff.mp h with hlookup | ⟨rfl, hempty⟩
  · rw [hlookup]
    rfl
  · cases hlookup : Json.lookup inner "cases" with
    | none => rfl
    | some w =>
      cases w with
      | array cs => simpa [Json.isTruthy] using hempty _ hlookup
      | _ => rfl

end

/-! ## Loading one node -/

/-- A case that is read and loaded is the case of its value. -/
lemma caseOf_of_loadCase {w : Json} {e : CaseEntry} {c : Case} (hread : ReadsCase w e)
    (h : loadCase e = .ok c) :
    CaseOf w c := by
  obtain ⟨hid, hvalue⟩ := hread
  unfold loadCase at h
  split at h
  · rename_i hnull
    cases h
    refine ⟨hid, ?_⟩
    rw [← hvalue, hnull]
    rfl
  · rename_i v hnull
    split_ifs at h
    cases h
    refine ⟨hid, ?_⟩
    rw [← hvalue]
    unfold caseText
    split
    · exact absurd (by assumption) hnull
    · rfl

/-- The cases that are loaded from what has been read are those of the document, in order. -/
lemma forall₂_caseOf {i j : Nat} {seen : List String} {ws : List Json} {es : List CaseEntry}
    {cs : List Case} (hread : readCases i j seen ws = .ok es) (h : es.mapM loadCase = .ok cs) :
    List.Forall₂ CaseOf ws cs := by
  rw [mapM_eq_ok] at h
  induction ws generalizing j seen es cs with
  | nil =>
    cases hread
    cases h
    exact .nil
  | cons w rest ih =>
    obtain ⟨e, es, he, -, hes, rfl⟩ := readCases_cons_eq_ok_iff.mp hread
    cases h with
    | cons hc hcs => exact .cons (caseOf_of_loadCase he hc) (ih hes hcs)

/-- The kind of a node is that of the entry that is read from it. -/
lemma nodeKind?_of_readNode {i : Nat} {seen : List String} {u : Json} {e : NodeEntry}
    (h : readNode i seen u = .ok e) :
    nodeKind? u = e.kind? := by
  obtain ⟨fields, data, position, rfl, hreads⟩ := readNode_eq_ok_iff.mp h
  have htype : HasText (.object fields) "type" e.typeName := hreads.typeName
  rw [nodeKind?, hasText_iff.mp htype]
  rfl

/-- **What is loaded from the entry of a node is what the document says of it.** -/
lemma nodeOf_of_loadNode {i : Nat} {seen : List String} {u : Json} {e : NodeEntry} {k : Kind}
    {n : Node} (hread : readNode i seen u = .ok e) (hkind : e.kind? = some k)
    (h : loadNode k e = .ok n) : NodeOf u n := by
  have hnodeKind := (nodeKind?_of_readNode hread).trans hkind
  obtain ⟨fields, data, position, rfl, hreads⟩ := readNode_eq_ok_iff.mp hread
  obtain ⟨items, hitems, hcases⟩ := hreads.cases
  have hdata := objectAt_of_optionalObject hreads.dataFields
  have hposition := objectAt_of_optionalObject hreads.positionFields
  unfold loadNode at h
  simp only [bind_eq_ok, mapError_eq_ok, Node.withCases] at h
  obtain ⟨cs, hcs, x, hx, y, hy, h⟩ := h
  split_ifs at h
  cases h
  refine ⟨hreads.id, hnodeKind, ?_, ?_, ?_, ?_, ?_, ?_, ?_, ?_, ?_, ?_, ?_, ?_, ?_⟩
  · rw [hdata, text?_of_optionalText hreads.label]
  · rw [hdata, text?_of_optionalText hreads.customName]
  · rw [hdata, text?_of_optionalText hreads.variableName]
  · rw [hdata]
    exact hreads.value
  · rw [hdata, text?_of_optionalText hreads.operation]
  · rw [hdata, text?_of_optionalText hreads.purpose]
  · rw [hdata, flag?_of_optionalFlag hreads.isLocked]
  · rw [hdata, flag?_of_optionalFlag hreads.isBypassed]
  · rw [hdata, flag?_of_optionalFlag hreads.isAction]
  · rw [hdata, flag?_of_optionalFlag hreads.isObservation]
  · rw [hdata, list?_of_caseList hitems]
    exact forall₂_caseOf hcases hcs
  · rwa [hposition, number?_of_optionalNumber hreads.x]
  · rwa [hposition, number?_of_optionalNumber hreads.y]

/-! ## Loading one edge -/

section

variable {us : List Json} {ns : List NodeEntry} {nodes : List Node}

/-- The node at one end of an edge, found in the document and among the entries. -/
lemma find?_text?_id (hns : List.Forall₂ (fun u n => ∃ i seen, readNode i seen u = .ok n) us ns)
    (id : String) :
    (us.find? (·.text? "id" == some id)).bind nodeKind? =
      (ns.find? (·.id == id)).bind NodeEntry.kind? := by
  induction hns with
  | nil => rfl
  | @cons u n us ns hhead _ ih =>
    obtain ⟨i, seen, hread⟩ := hhead
    have hid := hasText_iff.mp (hasText_of_readNode hread)
    by_cases heq : n.id = id
    · rw [List.find?_cons_of_pos (by simp [hid, heq]), List.find?_cons_of_pos (by simp [heq])]
      exact nodeKind?_of_readNode hread
    · rw [List.find?_cons_of_neg (by simp [hid, heq]), List.find?_cons_of_neg (by simp [heq])]
      exact ih

/-- The node at one end of an edge, found among the entries and among what is loaded from them. -/
lemma find?_of_loadNodes (hnodup : (ns.map NodeEntry.id).Nodup)
    (h : (loadNodes ns).outcome = .ok nodes) (id : String) :
    (ns.find? (·.id == id)).bind NodeEntry.kind? = (nodes.find? (·.id == id)).map Node.kind := by
  induction ns generalizing nodes with
  | nil =>
    cases h
    rfl
  | cons n rest ih =>
    rw [List.map_cons, List.nodup_cons] at hnodup
    unfold loadNodes at h
    split at h
    · rename_i hkind
      rw [Audited.outcome_bind_eq_ok] at h
      obtain ⟨-, -, h⟩ := h
      by_cases heq : n.id = id
      · -- no other node has the id of a node that is left out
        have hnone : nodes.find? (·.id == id) = none := by
          rw [List.find?_eq_none]
          intro m hm
          obtain ⟨e, he, -, hload⟩ := exists_of_mem_loadNodes h hm
          rw [(loadable_of_loadNode hload).1, ← heq]
          intro hid
          rw [beq_iff_eq] at hid
          exact hnodup.1 (hid ▸ List.mem_map_of_mem he)
        rw [List.find?_cons_of_pos (by simp [heq]), hnone, Option.bind_some, hkind]
        rfl
      · rw [List.find?_cons_of_neg (by simp [heq])]
        exact ih hnodup.2 h
    · rename_i kind hkind
      simp only [Audited.outcome_bind_eq_ok, Audited.outcome_lift, Audited.outcome_pure,
        Except.ok.injEq] at h
      obtain ⟨m, hm, ms, hms, rfl⟩ := h
      obtain ⟨hid, hmkind, -⟩ := loadable_of_loadNode hm
      by_cases heq : n.id = id
      · rw [List.find?_cons_of_pos (by simp [heq]), List.find?_cons_of_pos (by simp [hid, heq]),
          Option.bind_some, hkind, Option.map_some, hmkind]
      · rw [List.find?_cons_of_neg (by simp [heq]), List.find?_cons_of_neg (by simp [hid, heq])]
        exact ih hnodup.2 hms

/-- The kind of the node at one end of an edge of the document is the kind of the node that is
loaded for it. -/
lemma endKind?_eq (hns : List.Forall₂ (fun u n => ∃ i seen, readNode i seen u = .ok n) us ns)
    (hnodup : (ns.map NodeEntry.id).Nodup) (hload : (loadNodes ns).outcome = .ok nodes) {w : Json}
    {d : Direction} {id : String} (hid : w.text? (endKey d) = some id) :
    endKind? us w d = (nodes.find? (·.id == id)).map Node.kind := by
  rw [← find?_of_loadNodes hnodup hload, ← find?_text?_id hns, endKind?, hid]
  rfl

/-- What the fields of an edge say, and what has been read of them. -/
lemma text?_of_readEdge {i : Nat} {w : Json} {e : EdgeEntry} (h : readEdge i w = .ok e) :
    w.text? "source" = some e.source ∧ w.text? "target" = some e.target ∧ w.text? "id" = e.id ∧
      w.text? "sourceHandle" = e.sourceHandle ∧ w.text? "targetHandle" = e.targetHandle := by
  obtain ⟨fields, rfl, hreads⟩ := readEdge_eq_ok_iff.mp h
  exact ⟨hasText_iff.mp hreads.source, hasText_iff.mp hreads.target,
    text?_of_optionalText hreads.id, text?_of_optionalText hreads.sourceHandle,
    text?_of_optionalText hreads.targetHandle⟩

/-- The port at one end of an entry among loaded nodes, if there is one. -/
def portAt? (nodes : List Node) (d : Direction) (id : String) (handle : Option String) :
    Option String :=
  (nodes.find? (·.id == id)).bind fun n => nonempty? handle <|> n.kind.defaultPort? d

/-- An edge is loaded if there are ports for both ends. -/
lemma toOption_loadEdge (nodes : List Node) (e : EdgeEntry) :
    (loadEdge nodes e).toOption =
      (portAt? nodes .output e.source e.sourceHandle).bind fun sourceHandle =>
        (portAt? nodes .input e.target e.targetHandle).map fun targetHandle =>
          { id := (nonempty? e.id).getD (derivedEdgeId e.source sourceHandle e.target targetHandle)
            source := e.source, sourceHandle, target := e.target, targetHandle } := by
  unfold loadEdge portAt?
  cases nodes.find? (·.id == e.source) with
  | none => rfl
  | some m =>
    cases nodes.find? (·.id == e.target) with
    | none =>
      simp only [Option.bind_some, Option.bind_none, Option.map_none, Option.bind_fun_none]
      rfl
    | some n =>
      simp only [Option.bind_some]
      cases (nonempty? e.sourceHandle <|> m.kind.defaultPort? .output) <;>
        cases (nonempty? e.targetHandle <|> n.kind.defaultPort? .input) <;> rfl

/-- The port at one end of an edge of the document is the one among the loaded nodes. -/
lemma endPort?_eq (hns : List.Forall₂ (fun u n => ∃ i seen, readNode i seen u = .ok n) us ns)
    (hnodup : (ns.map NodeEntry.id).Nodup) (hload : (loadNodes ns).outcome = .ok nodes) {w : Json}
    {d : Direction} {id : String} (hid : w.text? (endKey d) = some id) :
    endPort? us w d = portAt? nodes d id (w.text? (handleKey d)) := by
  rw [endPort?, endKind?_eq hns hnodup hload hid, portAt?]
  cases nodes.find? (·.id == id) <;> rfl

/-- **An edge is loaded exactly if it has ports at both ends**, and what is loaded is what the
document says of it. -/
lemma loadEdge_cases (hns : List.Forall₂ (fun u n => ∃ i seen, readNode i seen u = .ok n) us ns)
    (hnodup : (ns.map NodeEntry.id).Nodup) (hload : (loadNodes ns).outcome = .ok nodes) {i : Nat}
    {w : Json} {e : EdgeEntry} (h : readEdge i w = .ok e) :
    (isAttached us w = true ∧ ∃ edge, (loadEdge nodes e).toOption = some edge ∧ EdgeOf us w edge) ∨
      (isAttached us w = false ∧ (loadEdge nodes e).toOption = none) := by
  obtain ⟨hsource, htarget, hid, hsourceHandle, htargetHandle⟩ := text?_of_readEdge h
  have houtput : endPort? us w .output = portAt? nodes .output e.source e.sourceHandle :=
    hsourceHandle ▸ endPort?_eq hns hnodup hload hsource
  have hinput : endPort? us w .input = portAt? nodes .input e.target e.targetHandle :=
    htargetHandle ▸ endPort?_eq hns hnodup hload htarget
  rw [toOption_loadEdge, ← houtput, ← hinput, isAttached]
  cases hs : endPort? us w .output with
  | none => exact .inr ⟨rfl, rfl⟩
  | some sourceHandle =>
    cases ht : endPort? us w .input with
    | none => exact .inr ⟨rfl, rfl⟩
    | some targetHandle =>
      refine .inl ⟨rfl, _, rfl, hasText_iff.mpr hsource, hasText_iff.mpr htarget, hs, ht, ?_⟩
      rw [hid]

/-- An edge that does not join two loaded nodes is not loaded. -/
lemma toOption_loadEdge_of_not_isJoined
    (hns : List.Forall₂ (fun u n => ∃ i seen, readNode i seen u = .ok n) us ns)
    (hnodup : (ns.map NodeEntry.id).Nodup) (hload : (loadNodes ns).outcome = .ok nodes) {i : Nat}
    {w : Json} {e : EdgeEntry} (h : readEdge i w = .ok e) (hjoined : isJoined us w = false) :
    (loadEdge nodes e).toOption = none := by
  rcases loadEdge_cases hns hnodup hload h with ⟨hattached, -⟩ | ⟨-, hnone⟩
  · have hkind : ∀ d, (endPort? us w d).isSome = true → (endKind? us w d).isSome = true := by
      intro d hport
      rw [endPort?] at hport
      cases hk : endKind? us w d with
      | none => simp [hk] at hport
      | some k => rfl
    rw [isAttached, Bool.and_eq_true] at hattached
    rw [isJoined, hkind _ hattached.1, hkind _ hattached.2] at hjoined
    cases hjoined
  · exact hnone

end

/-! ## Checking what is kept -/

/-- Cases are read alike at any place. -/
lemma readCases_renumbered {i j i' j' : Nat} {seen : List String} {ws : List Json}
    {cs : List CaseEntry} (h : readCases i j seen ws = .ok cs) :
    readCases i' j' seen ws = .ok cs := by
  induction ws generalizing j j' seen cs with
  | nil => exact h
  | cons w rest ih =>
    obtain ⟨c, cs', hc, hfresh, hcs, rfl⟩ := readCases_cons_eq_ok_iff.mp h
    exact readCases_cons_eq_ok_iff.mpr ⟨c, cs', hc, hfresh, ih hcs, rfl⟩

/-- A node is read in the same way at another place, if fewer ids have been seen before. -/
lemma readNode_renumbered {i j : Nat} {seen seen' : List String} {u : Json} {e : NodeEntry}
    (hseen : seen' ⊆ seen) (h : readNode i seen u = .ok e) : readNode j seen' u = .ok e := by
  obtain ⟨fields, data, position, rfl, hreads⟩ := readNode_eq_ok_iff.mp h
  refine readNode_eq_ok_iff.mpr ⟨fields, data, position, rfl, ?_⟩
  obtain ⟨items, hitems, hcases⟩ := hreads.cases
  have htext : ∀ {key s}, optionalText (.data i) data key = .ok s →
      optionalText (.data j) data key = .ok s :=
    fun h => optionalText_eq_ok_iff.mpr (optionalText_eq_ok_iff.mp h)
  have hflag : ∀ {key b}, optionalFlag (.data i) data key = .ok b →
      optionalFlag (.data j) data key = .ok b :=
    fun h => optionalFlag_eq_ok_iff.mpr (optionalFlag_eq_ok_iff.mp h)
  have hnumber : ∀ {key n}, optionalNumber (.position i) position key = .ok n →
      optionalNumber (.position j) position key = .ok n :=
    fun h => optionalNumber_eq_ok_iff.mpr (optionalNumber_eq_ok_iff.mp h)
  exact {
    id := hreads.id
    typeName := hreads.typeName
    fresh := fun hmem => hreads.fresh (hseen hmem)
    dataFields := optionalObject_eq_ok_iff.mpr (optionalObject_eq_ok_iff.mp hreads.dataFields)
    label := htext hreads.label
    customName := htext hreads.customName
    variableName := htext hreads.variableName
    operation := htext hreads.operation
    purpose := htext hreads.purpose
    isLocked := hflag hreads.isLocked
    isBypassed := hflag hreads.isBypassed
    isAction := hflag hreads.isAction
    isObservation := hflag hreads.isObservation
    value := hreads.value
    cases :=
      ⟨items, caseList_eq_ok_iff.mpr (caseList_eq_ok_iff.mp hitems), readCases_renumbered hcases⟩
    positionFields :=
      optionalObject_eq_ok_iff.mpr (optionalObject_eq_ok_iff.mp hreads.positionFields)
    x := hnumber hreads.x
    y := hnumber hreads.y }

/-- Whether the kind of an entry is known. -/
def NodeEntry.isKnown (n : NodeEntry) : Bool :=
  n.kind?.isSome

/-- Nodes are checked one by one, each with an id that has not been seen. -/
lemma checkNodes_cons_eq_ok_iff {i : Nat} {seen : List String} {u : Json} {us : List Json}
    {ns : List NodeEntry} :
    (checkNodes false i seen (u :: us)).outcome = .ok ns ↔ ∃ n ns', readNode i seen u = .ok n ∧
      (checkNodes false (i + 1) (n.id :: seen) us).outcome = .ok ns' ∧ ns = n :: ns' := by
  simp only [checkNodes, Audited.outcome_bind_eq_ok, Audited.outcome_lift, Audited.outcome_pure,
    mapError_eq_ok, outcome_checkKind_false, Except.ok.injEq]
  constructor
  · rintro ⟨n, hn, -, -, ns', hns, rfl⟩
    exact ⟨n, ns', hn, hns, rfl⟩
  · rintro ⟨n, ns', hn, hns, rfl⟩
    exact ⟨n, hn, (), trivial, ns', hns, rfl⟩

/-- **The nodes of known kind pass the check without the others**, with the same entries. -/
lemma checkNodes_filter {i j : Nat} {seen seen' : List String} {us : List Json}
    {ns : List NodeEntry} (hseen : seen' ⊆ seen)
    (h : (checkNodes false i seen us).outcome = .ok ns) :
    (checkNodes false j seen' (us.filter isKnown)).outcome = .ok (ns.filter NodeEntry.isKnown) := by
  induction us generalizing i j seen seen' ns with
  | nil =>
    cases h
    rfl
  | cons u us ih =>
    obtain ⟨n, ns, hn, hns, rfl⟩ := checkNodes_cons_eq_ok_iff.mp h
    have hknown : isKnown u = n.isKnown := by
      rw [isKnown, nodeKind?_of_readNode hn, NodeEntry.isKnown]
    cases hn' : n.isKnown with
    | false =>
      rw [List.filter_cons_of_neg (by simp [hknown, hn']), List.filter_cons_of_neg (by simp [hn'])]
      exact ih (List.subset_cons_of_subset _ hseen) hns
    | true =>
      rw [List.filter_cons_of_pos (by simp [hknown, hn']), List.filter_cons_of_pos (by simp [hn'])]
      exact checkNodes_cons_eq_ok_iff.mpr
        ⟨n, _, readNode_renumbered hseen hn, ih (List.cons_subset_cons _ hseen) hns, rfl⟩

/-- Edges are read alike at any place. -/
lemma readEdge_renumbered {i j : Nat} {w : Json} {e : EdgeEntry} (h : readEdge i w = .ok e) :
    readEdge j w = .ok e := by
  obtain ⟨fields, rfl, hreads⟩ := readEdge_eq_ok_iff.mp h
  have htext : ∀ {key s}, optionalText (.edge i) fields key = .ok s →
      optionalText (.edge j) fields key = .ok s :=
    fun h => optionalText_eq_ok_iff.mpr (optionalText_eq_ok_iff.mp h)
  exact readEdge_eq_ok_iff.mpr
    ⟨fields, rfl, hreads.source, hreads.target, htext hreads.id, htext hreads.sourceHandle,
      htext hreads.targetHandle⟩

/-- Without strictness, how the check of one end goes depends on the node found there and not on the
number of the edge. -/
lemma outcome_checkEnd_congr {ns ns' : List NodeEntry} {i j : Nat} {d : Direction} {id : String}
    {handle : Option String} (h : ns.find? (·.id == id) = ns'.find? (·.id == id)) :
    (checkEnd false ns i d id handle).outcome = (checkEnd false ns' j d id handle).outcome := by
  unfold checkEnd
  rw [h]
  cases ns'.find? (·.id == id) with
  | none => rfl
  | some n =>
    simp only
    cases n.kind? with
    | none => rfl
    | some k =>
      cases handle with
      | none => rfl
      | some port =>
        simp only [Audited.outcome_bind, Audited.outcome_lift]
        cases k.hasPort port d n.cases.length with
        | error f => rfl
        | ok there => cases there <;> rfl

/-- A node of known kind is found among those of known kind as it is among all. -/
lemma find?_filter_isKnown {ns : List NodeEntry} (hnodup : (ns.map NodeEntry.id).Nodup)
    {id : String} (h : ((ns.find? (·.id == id)).bind NodeEntry.kind?).isSome = true) :
    (ns.filter NodeEntry.isKnown).find? (·.id == id) = ns.find? (·.id == id) := by
  cases hn : ns.find? (·.id == id) with
  | none => simp [hn] at h
  | some n =>
    rw [hn, Option.bind_some] at h
    have hid : n.id = id := by simpa using List.find?_some hn
    have hmem : n ∈ ns.filter NodeEntry.isKnown :=
      List.mem_filter.mpr ⟨List.mem_of_find?_eq_some hn, h⟩
    rw [← hid]
    exact find?_eq_some_of_nodup (hnodup.sublist (List.filter_sublist.map _)) hmem

/-- **The edges between nodes of known kind pass the check without the others.** What is read of the
others is what is left out. -/
lemma checkEdges_filter {us : List Json} {ns : List NodeEntry}
    (hns : List.Forall₂ (fun u n => ∃ i seen, readNode i seen u = .ok n) us ns)
    (hnodup : (ns.map NodeEntry.id).Nodup) {nodes : List Node}
    (hload : (loadNodes ns).outcome = .ok nodes) {i j : Nat} {ws : List Json} {es : List EdgeEntry}
    (h : (checkEdges false ns i ws).outcome = .ok es) :
    ∃ es',
      (checkEdges false (ns.filter NodeEntry.isKnown) j (ws.filter (isJoined us))).outcome =
        .ok es' ∧
      loadEdges nodes es' = loadEdges nodes es := by
  induction ws generalizing i j es with
  | nil =>
    cases h
    exact ⟨[], rfl, rfl⟩
  | cons w ws ih =>
    simp only [checkEdges, Audited.outcome_bind_eq_ok, Audited.outcome_lift, Audited.outcome_pure,
      mapError_eq_ok, Except.ok.injEq] at h
    obtain ⟨e, he, ⟨⟩, hsource, ⟨⟩, htarget, es, hes, rfl⟩ := h
    cases hjoined : isJoined us w with
    | false =>
      obtain ⟨es', hes', hsame⟩ := ih (j := j) hes
      rw [List.filter_cons_of_neg (by simp [hjoined])]
      refine ⟨es', hes', ?_⟩
      rw [hsame, loadEdges, loadEdges, List.filterMap_cons,
        toOption_loadEdge_of_not_isJoined hns hnodup hload he hjoined]
    | true =>
      obtain ⟨es', hes', hsame⟩ := ih (j := j + 1) hes
      obtain ⟨hs, ht, -⟩ := text?_of_readEdge he
      have hfound : ∀ {d id}, w.text? (endKey d) = some id → (endKind? us w d).isSome = true →
          (ns.filter NodeEntry.isKnown).find? (·.id == id) = ns.find? (·.id == id) := by
        intro d id hid hkind
        rw [endKind?_eq hns hnodup hload hid, ← find?_of_loadNodes hnodup hload] at hkind
        exact find?_filter_isKnown hnodup hkind
      rw [isJoined, Bool.and_eq_true] at hjoined
      rw [List.filter_cons_of_pos (by simp [isJoined, hjoined])]
      refine ⟨e :: es', ?_, ?_⟩
      · simp only [checkEdges, Audited.outcome_bind_eq_ok, Audited.outcome_lift,
          Audited.outcome_pure, mapError_eq_ok, Except.ok.injEq]
        refine ⟨e, readEdge_renumbered he, (), ?_, (), ?_, es', hes', rfl⟩
        · rw [outcome_checkEnd_congr (hfound (d := .output) hs hjoined.1)]
          exact hsource
        · rw [outcome_checkEnd_congr (hfound (d := .input) ht hjoined.2)]
          exact htarget
      · rw [loadEdges, List.filterMap_cons, ← loadEdges, hsame]
        rfl

/-! ## Documents -/

/-- Nodes are loaded from the entries of known kind alone. -/
lemma loadNodes_filter {ns : List NodeEntry} {nodes : List Node}
    (h : (loadNodes ns).outcome = .ok nodes) :
    (loadNodes (ns.filter NodeEntry.isKnown)).outcome = .ok nodes := by
  induction ns generalizing nodes with
  | nil => exact h
  | cons n rest ih =>
    unfold loadNodes at h
    split at h
    · rename_i hkind
      rw [Audited.outcome_bind_eq_ok] at h
      obtain ⟨-, -, h⟩ := h
      rw [List.filter_cons_of_neg (by simp [NodeEntry.isKnown, hkind])]
      exact ih h
    · rename_i kind hkind
      simp only [Audited.outcome_bind_eq_ok, Audited.outcome_lift, Audited.outcome_pure,
        Except.ok.injEq] at h
      obtain ⟨m, hm, ms, hms, rfl⟩ := h
      rw [List.filter_cons_of_pos (by simp [NodeEntry.isKnown, hkind]), loadNodes, hkind]
      simp only [Audited.outcome_bind_eq_ok, Audited.outcome_lift, Audited.outcome_pure,
        Except.ok.injEq]
      exact ⟨m, hm, ms, ih hms, rfl⟩

/-- Pruning a document prunes each of its fields. -/
lemma lookup_prune (us : List Json) (fields : Fields) (key : String) :
    Json.lookup (fields.map fun (k, w) => (k, pruneValue us k w)) key =
      (Json.lookup fields key).map (pruneValue us key) := by
  induction fields with
  | nil => rfl
  | cons field rest ih =>
    obtain ⟨k, w⟩ := field
    rw [List.map_cons, lookup_cons, lookup_cons]
    split_ifs with h
    · rw [h]
      rfl
    · exact ih

/-- The name and the two lists of a document are read as before, without what has been deleted. -/
lemma readTop_prune {v : Json} {name : Option String} {us ws : List Json}
    (h : readTop v = .ok (name, us, ws)) :
    readTop (prune v) = .ok (name, us.filter isKnown, ws.filter (isJoined us)) := by
  obtain ⟨fields, rfl, hname, hnodes, hedges⟩ := readTop_eq_ok_iff.mp h
  have hlist : (Json.object fields).list? "nodes" = some us := Json.list?_eq_some_iff.mpr hnodes
  refine readTop_eq_ok_iff.mpr ⟨_, rfl, ?_, ?_, ?_⟩
  · rw [hlist, optionalText_eq_ok_iff]
    rw [optionalText_eq_ok_iff] at hname
    unfold Json.given? at hname ⊢
    rw [Option.getD_some, lookup_prune]
    cases hlookup : Json.lookup fields "name" with
    | none => simpa [hlookup] using hname
    | some w => cases w <;> simp_all [pruneValue]
  · rw [hlist, lookup_prune, hnodes]
    rfl
  · rw [hlist, lookup_prune, hedges]
    rfl

end Document

namespace Graph

/-- **How a graph is loaded.** Entries are read of all nodes and edges of the document, nodes are
loaded from the entries of known kind, and edges from those that can be loaded. -/
lemma outcome_ofJson_eq_ok_iff {v : Json} {g : Graph} :
    (Graph.ofJson false v).outcome = .ok g ↔ ∃ name us ws ns es, readTop v = .ok (name, us, ws) ∧
      (checkNodes false 0 [] us).outcome = .ok ns ∧ (checkEdges false ns 0 ws).outcome = .ok es ∧
      (loadNodes ns).outcome = .ok g.nodes ∧ g.edges = loadEdges g.nodes es ∧
      g.name = (nonempty? name).getD defaultGraphName := by
  simp only [Graph.ofJson, Document.check, load, Audited.outcome_bind_eq_ok,
    Audited.outcome_mapError_eq_ok, Audited.outcome_lift, Audited.outcome_pure,
    Audited.outcome_report_bind, mapError_eq_ok, Except.ok.injEq]
  constructor
  · rintro ⟨d, ⟨⟨name, us, ws⟩, htop, ns, hns, es, hes, rfl⟩, nodes, hnodes, hparts⟩
    obtain ⟨rfl, hedges, hname⟩ := ofParts_eq_ok hparts
    exact ⟨name, us, ws, ns, es, htop, hns, hes, hnodes, hedges, hname⟩
  · rintro ⟨name, us, ws, ns, es, htop, hns, hes, hnodes, hedges, hname⟩
    refine ⟨_, ⟨(name, us, ws), htop, ns, hns, es, hes, rfl⟩, g.nodes, hnodes, ?_⟩
    rw [← hedges, ← hname]
    exact dif_pos g.nodes_nodup

/-- **What is left out does not matter**: a pruned document loads as the same graph. -/
lemma outcome_ofJson_prune {v : Json} {g : Graph} (h : (Graph.ofJson false v).outcome = .ok g) :
    (Graph.ofJson false (prune v)).outcome = .ok g := by
  obtain ⟨name, us, ws, ns, es, htop, hns, hes, hnodes, hedges, hname⟩ :=
    outcome_ofJson_eq_ok_iff.mp h
  have hread := forall₂_readNode_of_checkNodes hns
  obtain ⟨es', hes', hsame⟩ :=
    checkEdges_filter (j := 0) hread (nodup_of_checkNodes hns).1 hnodes hes
  exact outcome_ofJson_eq_ok_iff.mpr
    ⟨name, _, _, _, es', readTop_prune htop, checkNodes_filter (List.Subset.refl _) hns, hes',
    loadNodes_filter hnodes, hedges.trans hsame.symm, hname⟩

/-- A loaded graph has one node for each node of known kind. -/
lemma forall₂_nodeOf {us : List Json} {ns : List NodeEntry} {nodes : List Node}
    (hns : (checkNodes false 0 [] us).outcome = .ok ns)
    (hnodes : (loadNodes ns).outcome = .ok nodes) :
    List.Forall₂ NodeOf (us.filter isKnown) nodes := by
  have hread :=
    forall₂_readNode_of_checkNodes (checkNodes_filter (j := 0) (List.Subset.refl []) hns)
  have hkinds : ∀ n ∈ ns.filter NodeEntry.isKnown, ∃ k, n.kind? = some k :=
    fun n hn => Option.isSome_iff_exists.mp (List.mem_filter.mp hn).2
  have hload := forall₂_of_loadNodes hkinds (loadNodes_filter hnodes)
  clear hns hnodes hkinds
  generalize us.filter isKnown = us' at hread
  generalize ns.filter NodeEntry.isKnown = ns' at hread hload
  induction hread generalizing nodes with
  | nil =>
    cases hload
    exact .nil
  | cons hhead _ ih =>
    cases hload with
    | cons hn hrest =>
      obtain ⟨i, seen, hu⟩ := hhead
      exact .cons (nodeOf_of_loadNode hu hn.1 hn.2) (ih hrest)

/-- A loaded graph has one edge for each edge that has ports at both ends. -/
lemma forall₂_edgeOf {us ws : List Json} {ns : List NodeEntry} {nodes : List Node}
    {es : List EdgeEntry} {i : Nat}
    (hns : List.Forall₂ (fun u n => ∃ i seen, readNode i seen u = .ok n) us ns)
    (hnodup : (ns.map NodeEntry.id).Nodup) (hnodes : (loadNodes ns).outcome = .ok nodes)
    (hes : (checkEdges false ns i ws).outcome = .ok es) :
    List.Forall₂ (EdgeOf us) (ws.filter (isAttached us)) (loadEdges nodes es) := by
  induction ws generalizing i es with
  | nil =>
    cases hes
    exact .nil
  | cons w ws ih =>
    simp only [checkEdges, Audited.outcome_bind_eq_ok, Audited.outcome_lift, Audited.outcome_pure,
      mapError_eq_ok, Except.ok.injEq] at hes
    obtain ⟨e, he, -, -, -, -, es, hes, rfl⟩ := hes
    rw [loadEdges, List.filterMap_cons, ← loadEdges]
    rcases loadEdge_cases hns hnodup hnodes he with
      ⟨hattached, edge, hedge, hof⟩ | ⟨hdetached, hnone⟩
    · rw [List.filter_cons_of_pos hattached, hedge]
      exact .cons hof (ih hes)
    · rw [List.filter_cons_of_neg (by simp [hdetached]), hnone]
      exact ih hes

/-- A loaded graph has the nodes and edges that the document says. -/
lemma represents_of_ofJson {v : Json} {g : Graph} (h : (Graph.ofJson false v).outcome = .ok g) :
    g.Represents v := by
  obtain ⟨name, us, ws, ns, es, htop, hns, hes, hnodes, hedges, hname⟩ :=
    outcome_ofJson_eq_ok_iff.mp h
  obtain ⟨fields, rfl, hnameField, husField, hwsField⟩ := readTop_eq_ok_iff.mp htop
  refine ⟨?_, us, ws, Json.list?_eq_some_iff.mpr husField, Json.list?_eq_some_iff.mpr hwsField,
    forall₂_nodeOf hns hnodes, ?_⟩
  · rw [text?_of_optionalText hnameField, hname]
  · rw [hedges]
    exact forall₂_edgeOf (forall₂_readNode_of_checkNodes hns) (nodup_of_checkNodes hns).1 hnodes hes

/-- The edges of a loaded graph are named and end at its nodes. -/
lemma isClosed_of_loadable {g : Graph} (h : g.Loadable) : g.IsClosed where
  ends := by
    intro e he
    obtain ⟨m, hm, -⟩ := (h.edges e he).source
    obtain ⟨n, hn, -⟩ := (h.edges e he).target
    exact ⟨⟨m, node?_eq_some_iff.mp hm⟩, n, node?_eq_some_iff.mp hn⟩
  named := fun e he => ⟨(h.edges e he).sourceHandle, (h.edges e he).targetHandle, (h.edges e he).id⟩
  nodes := g.nodes_nodup
  cases := fun n _ => n.cases_nodup

/-- **What loading keeps and what it leaves out.** A loaded graph has one node for each node of the
document of known kind and one edge for each edge that has ports at both ends, in the same order and
as the document says; its edges are named and end at its nodes, and ids are distinct. The document
without its nodes of unknown kind and without the edges that do not join two of the others loads as
the same graph. -/
theorem represents_and_prune {v : Json} {g : Graph} (h : (Graph.ofJson false v).outcome = .ok g) :
    g.Represents v ∧ g.IsClosed ∧ (Graph.ofJson false (prune v)).outcome = .ok g :=
  ⟨represents_of_ofJson h, isClosed_of_loadable (loadable_of_ofJson h), outcome_ofJson_prune h⟩

/-- A document of which much is left out: a node of unknown kind with an edge from it, an edge to
nowhere, and an edge that has no port to leave by. Two edges name no ports, or an empty one. -/
def overgrownDocument : Json :=
  .object [
    ("name", .string ""),
    ("nodes", .array [
      nodeDocument "m" "math", nodeDocument "t" "teleporter", nodeDocument "r" "reward"]),
    ("edges", .array [
      plainEdgeDocument "t" "m", plainEdgeDocument "m" "ghost", plainEdgeDocument "r" "m",
      .object [("source", .string "m"), ("target", .string "r"), ("sourceHandle", .string ""),
        ("id", .null)]])]

/-- What is left of `overgrownDocument` when it is pruned: the edge without a port stays. -/
def overgrownDocumentPruned : Json :=
  .object [
    ("name", .string ""),
    ("nodes", .array [nodeDocument "m" "math", nodeDocument "r" "reward"]),
    ("edges", .array [
      plainEdgeDocument "r" "m",
      .object [("source", .string "m"), ("target", .string "r"), ("sourceHandle", .string ""),
        ("id", .null)]])]

/-- Both documents load as the graph with the one edge that is left. -/
theorem represents_overgrownDocument :
    (Graph.ofJson false overgrownDocument).outcome = .ok rewardedSumGraph ∧
    rewardedSumGraph.Represents overgrownDocument ∧
    rewardedSumGraph.IsClosed ∧ prune overgrownDocument = overgrownDocumentPruned ∧
    (Graph.ofJson false overgrownDocumentPruned).outcome = .ok rewardedSumGraph := by
  have hload : (Graph.ofJson false overgrownDocument).outcome = .ok rewardedSumGraph := by rfl
  have hprune : prune overgrownDocument = overgrownDocumentPruned := by rfl
  obtain ⟨hrepresents, hclosed, hpruned⟩ := represents_and_prune hload
  exact ⟨hload, hrepresents, hclosed, hprune, hprune ▸ hpruned⟩

end Graph

end LogicGraph
