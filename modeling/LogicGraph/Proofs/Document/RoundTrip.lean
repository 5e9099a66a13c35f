import LogicGraph.Document.Write
import LogicGraph.Proofs.Document.Loadable

set_option relaxedAutoImplicit false
set_option autoImplicit false

/-!
# Writing and loading again

The document of a loadable graph loads as the same graph. Checking it meets no node of unknown type
and no edge that ends nowhere; only ports may still be unknown.

## Main definitions

* `LogicGraph.Node.entry`, `LogicGraph.Edge.entry` — what is read from the document of a node or an
  edge.
* `LogicGraph.Notice.IsAboutPort` — notices about unknown ports.
* `LogicGraph.Audited.SucceedsButPorts` — computations that succeed and report nothing else.

## Main results

* `LogicGraph.readNode_toJson`, `LogicGraph.readEdge_toJson` — reading what has been written.
* `LogicGraph.Graph.Loadable.check_toJson` — checking the document of a loadable graph.
* `LogicGraph.Graph.Loadable.outcome_ofJson_toJson` — loading the document of a loadable graph gives
  it back.
-/

namespace LogicGraph

open Document

/-- What is read from the document of a case. -/
def Case.entry (c : Case) : CaseEntry := ⟨c.id, c.value⟩

/-- What is read from the document of a node. -/
def Node.entry (n : Node) : NodeEntry where
  id := n.id
  typeName := n.kind.wire
  label := some n.label
  customName := n.customName
  variableName := n.variableName
  operation := n.operation
  purpose := n.purpose
  isLocked := some n.isLocked
  isBypassed := some n.isBypassed
  isAction := n.isAction
  isObservation := n.isObservation
  value := n.value
  cases := n.cases.map Case.entry
  x := some n.position.x
  y := some n.position.y

/-- What is read from the document of an edge. -/
def Edge.entry (e : Edge) : EdgeEntry where
  id := some e.id
  source := e.source
  sourceHandle := some e.sourceHandle
  target := e.target
  targetHandle := some e.targetHandle

/-! ## Fields -/

/-- A value is found in the first field with its key. -/
lemma lookup_cons (key k : String) (v : Json) (rest : Fields) :
    Json.lookup ((k, v) :: rest) key = if key = k then some v else Json.lookup rest key := by
  by_cases h : key = k
  · simp [Json.lookup, h]
  · have hbeq : (key == k) = false := by simpa using h
    rw [Json.lookup, List.lookup_cons, hbeq, if_neg h]
    rfl

/-- A single field is found under its key alone. -/
lemma lookup_singleton (key k : String) (v : Json) :
    [(k, v)].lookup key = if key = k then some v else none :=
  lookup_cons key k v []

/-- A field of text is found under its key alone. -/
lemma lookup_textField (key k : String) (s : Option String) :
    (textField k s).lookup key = if key = k then s.map Json.string else none := by
  cases s with
  | none => simp [textField]
  | some s => exact lookup_singleton key k (.string s)

/-- A field of a truth value is found under its key alone. -/
lemma lookup_flagField (key k : String) (b : Option Bool) :
    (flagField k b).lookup key = if key = k then b.map Json.bool else none := by
  cases b with
  | none => simp [flagField]
  | some b => exact lookup_singleton key k (.bool b)

/-- A field of a value is found under its key alone, and null is read as absent. -/
lemma lookup_valueField (key k : String) (v : Json) :
    (valueField k v).lookup key = if key = k ∧ v ≠ .null then some v else none := by
  by_cases hv : v = .null
  · simp [valueField, hv]
  · simp only [valueField, hv, if_false, lookup_singleton, ne_eq, not_false_eq_true, and_true]

/-- A field of text that has been written is read. -/
lemma optionalText_eq_ok {part : Part} {fields : Fields} {key : String} {s : Option String}
    (h : Json.lookup fields key = s.map .string) : optionalText part fields key = .ok s := by
  unfold optionalText Json.given?
  rw [h]
  cases s <;> rfl

/-- A field of a truth value that has been written is read. -/
lemma optionalFlag_eq_ok {part : Part} {fields : Fields} {key : String} {b : Option Bool}
    (h : Json.lookup fields key = b.map .bool) : optionalFlag part fields key = .ok b := by
  unfold optionalFlag Json.given?
  rw [h]
  cases b <;> rfl

/-- The cases of a node are found under their key alone, and no cases are absent. -/
lemma lookup_casesField (key : String) (cs : List Case) :
    (if cs = [] then [] else [("cases", Json.array (cs.map Case.toJson))]).lookup key =
      if key = "cases" ∧ cs ≠ [] then some (.array (cs.map Case.toJson)) else none := by
  by_cases hcs : cs = []
  · simp [hcs]
  · simp only [hcs, if_false, lookup_singleton, ne_eq, not_false_eq_true, and_true]

/-- What the data of a node has under a key: the first of its fields that has it. -/
lemma lookup_dataFields (n : Node) (key : String) :
    Json.lookup n.dataFields key =
      ((((((((((if key = "label" then some (.string n.label) else none).or
        (if key = "isLocked" then some (.bool n.isLocked) else none)).or
        (if key = "isBypassed" then some (.bool n.isBypassed) else none)).or
        (if key = "customName" then n.customName.map .string else none)).or
        (if key = "variableName" then n.variableName.map .string else none)).or
        (if key = "value" ∧ n.value ≠ .null then some n.value else none)).or
        (if key = "operation" then n.operation.map .string else none)).or
        (if key = "purpose" then n.purpose.map .string else none)).or
        (if key = "isAction" then n.isAction.map .bool else none)).or
        (if key = "isObservation" then n.isObservation.map .bool else none)).or
        (if key = "cases" ∧ n.cases ≠ [] then some (.array (n.cases.map Case.toJson))
          else none) := by
  have hfixed : [("label", Json.string n.label), ("isLocked", .bool n.isLocked),
      ("isBypassed", .bool n.isBypassed)] =
      [("label", Json.string n.label)] ++ [("isLocked", .bool n.isLocked)] ++
        [("isBypassed", .bool n.isBypassed)] := rfl
  rw [Json.lookup, Node.dataFields, hfixed]
  simp only [List.lookup_append, lookup_singleton, lookup_textField, lookup_flagField,
    lookup_valueField, lookup_casesField]

/-! ## Nodes -/

/-- If the keys of a list are distinct and have not been seen, then behind the first member they
have not been seen with that member either. -/
lemma not_mem_cons_of_nodup {α : Type} {key : α → String} {a : α} {rest : List α}
    {seen : List String} (hnodup : ((a :: rest).map key).Nodup)
    (hseen : ∀ b ∈ a :: rest, key b ∉ seen) :
    ∀ b ∈ rest, key b ∉ key a :: seen := by
  intro b hb
  rw [List.map_cons, List.nodup_cons] at hnodup
  rw [List.mem_cons, not_or]
  exact ⟨fun h => hnodup.1 (h ▸ List.mem_map_of_mem hb), hseen b (List.mem_cons_of_mem _ hb)⟩

/-- The cases of a node are read as they have been written. -/
lemma readCases_toJson {cs : List Case} {i j : Nat} {seen : List String}
    (hnodup : (cs.map Case.id).Nodup) (hseen : ∀ c ∈ cs, c.id ∉ seen) :
    readCases i j seen (cs.map Case.toJson) = .ok (cs.map Case.entry) := by
  induction cs generalizing j seen with
  | nil => rfl
  | cons c rest ih =>
    have hid : c.id ∉ seen := hseen c List.mem_cons_self
    have hrest : readCases i (j + 1) (c.id :: seen) (rest.map Case.toJson) =
        .ok (rest.map Case.entry) :=
      ih (List.nodup_cons.mp hnodup).2 (not_mem_cons_of_nodup hnodup hseen)
    simp [readCases, Case.toJson, Case.entry, memberFields, required, asText, lookup_cons, hid,
      hrest, pure, Except.pure]

/-- The list of cases in the data of a node. -/
lemma caseList_dataFields (n : Node) (i : Nat) :
    caseList i n.dataFields = .ok (n.cases.map Case.toJson) := by
  unfold caseList
  rw [lookup_dataFields]
  by_cases h : n.cases = [] <;> simp [h]

/-- **A node is read as it has been written.** -/
lemma readNode_toJson {n : Node} {i : Nat} {seen : List String} (h : n.id ∉ seen) :
    readNode i seen n.toJson = .ok n.entry := by
  have hlabel : optionalText (.data i) n.dataFields "label" = .ok (some n.label) :=
    optionalText_eq_ok (by rw [lookup_dataFields]; simp)
  have hcustomName : optionalText (.data i) n.dataFields "customName" = .ok n.customName :=
    optionalText_eq_ok (by rw [lookup_dataFields]; simp)
  have hvariableName : optionalText (.data i) n.dataFields "variableName" = .ok n.variableName :=
    optionalText_eq_ok (by rw [lookup_dataFields]; simp)
  have hoperation : optionalText (.data i) n.dataFields "operation" = .ok n.operation :=
    optionalText_eq_ok (by rw [lookup_dataFields]; simp)
  have hpurpose : optionalText (.data i) n.dataFields "purpose" = .ok n.purpose :=
    optionalText_eq_ok (by rw [lookup_dataFields]; simp)
  have hisLocked : optionalFlag (.data i) n.dataFields "isLocked" = .ok (some n.isLocked) :=
    optionalFlag_eq_ok (by rw [lookup_dataFields]; simp)
  have hisBypassed : optionalFlag (.data i) n.dataFields "isBypassed" = .ok (some n.isBypassed) :=
    optionalFlag_eq_ok (by rw [lookup_dataFields]; simp)
  have hisAction : optionalFlag (.data i) n.dataFields "isAction" = .ok n.isAction :=
    optionalFlag_eq_ok (by rw [lookup_dataFields]; simp)
  have hisObservation : optionalFlag (.data i) n.dataFields "isObservation" = .ok n.isObservation :=
    optionalFlag_eq_ok (by rw [lookup_dataFields]; simp)
  have hvalue : (Json.lookup n.dataFields "value").getD .null = n.value := by
    rw [lookup_dataFields]
    by_cases hv : n.value = .null <;> simp [hv]
  have hcases : readCases i 0 [] (n.cases.map Case.toJson) = .ok (n.cases.map Case.entry) :=
    readCases_toJson n.cases_nodup (by simp)
  simp [readNode, Node.toJson, Node.entry, memberFields, required, asText, optionalObject,
    optionalNumber, Json.given?, lookup_cons, h, hlabel, hcustomName, hvariableName, hoperation,
    hpurpose, hisLocked, hisBypassed, hisAction, hisObservation, caseList_dataFields, hcases,
    hvalue, pure, Except.pure]

/-- The kind of the entry of a node is known. -/
lemma Node.kind?_entry (n : Node) : n.entry.kind? = some n.kind :=
  Kind.ofWire?_wire n.kind

/-- **Nodes are checked as they have been written.** All kinds are known, so there is nothing to
report. -/
lemma checkNodes_toJson {strict : Bool} {ns : List Node} {i : Nat} {seen : List String}
    (hnodup : (ns.map Node.id).Nodup) (hseen : ∀ n ∈ ns, n.id ∉ seen) :
    checkNodes strict i seen (ns.map Node.toJson) = pure (ns.map Node.entry) := by
  induction ns generalizing i seen with
  | nil => rfl
  | cons n rest ih =>
    have hkind : checkKind strict i n.entry = pure () := by rw [checkKind, n.kind?_entry]
    have hrest : checkNodes strict (i + 1) (n.id :: seen) (rest.map Node.toJson) =
        pure (rest.map Node.entry) :=
      ih (List.nodup_cons.mp hnodup).2 (not_mem_cons_of_nodup hnodup hseen)
    have hid : n.entry.id = n.id := rfl
    rw [List.map_cons, checkNodes, readNode_toJson (hseen n List.mem_cons_self)]
    simp only [Except.mapError, Audited.lift_ok_bind, hkind, Audited.pure_bind, hid, hrest,
      List.map_cons]

/-! ## Edges -/

/-- **An edge is read as it has been written.** -/
lemma readEdge_toJson (e : Edge) (i : Nat) : readEdge i e.toJson = .ok e.entry := by
  simp [readEdge, Edge.toJson, Edge.entry, memberFields, required, asText, optionalText,
    Json.given?, lookup_cons, pure, Except.pure]

/-- A notice about a port that the node at one end of an edge does not have. -/
def Notice.IsAboutPort (x : Notice) : Prop :=
  ∃ i d k port, x = .flaw (.unknownPort i d k port)

/-- A computation succeeds, and reports nothing but unknown ports. -/
def Audited.SucceedsButPorts {ε α : Type} (x : Audited ε α) (a : α) : Prop :=
  x.outcome = .ok a ∧ ∀ notice ∈ x.notices, notice.IsAboutPort

/-- One after another, computations report nothing but unknown ports if each of them does. -/
lemma Audited.SucceedsButPorts.bind {ε α β : Type} {x : Audited ε α} {f : α → Audited ε β} {a : α}
    {b : β} (hx : x.SucceedsButPorts a) (hf : (f a).SucceedsButPorts b) :
    (x >>= f).SucceedsButPorts b := by
  refine ⟨Audited.outcome_bind_eq_ok.mpr ⟨a, hx.1, hf.1⟩, ?_⟩
  rw [Audited.notices_bind_ok hx.1]
  intro notice hnotice
  rcases List.mem_append.mp hnotice with h | h
  · exact hx.2 notice h
  · exact hf.2 notice h

/-- A result reports nothing. -/
lemma Audited.succeedsButPorts_pure {ε α : Type} (a : α) :
    (pure a : Audited ε α).SucceedsButPorts a :=
  ⟨rfl, by simp⟩

/-- A success without notices reports nothing. -/
lemma Audited.succeedsButPorts_lift {ε α : Type} {x : Except ε α} {a : α} (h : x = .ok a) :
    (Audited.lift x).SucceedsButPorts a :=
  ⟨h, by simp [Audited.lift]⟩

/-- The entry of a node is found by the id of the node. -/
lemma find?_entry {ns : List Node} {id : String} {n : Node} (h : ns.find? (·.id == id) = some n) :
    (ns.map Node.entry).find? (·.id == id) = some n.entry := by
  have hcomp : (fun e : NodeEntry => e.id == id) ∘ Node.entry = fun m : Node => m.id == id := rfl
  rw [List.find?_map, hcomp, h]
  rfl

/-- An end at a node of the graph has no flaw but for its port. -/
lemma Graph.HasEnd.checkEnd_entry {g : Graph} {d : Direction} {id handle : String}
    (h : g.HasEnd d id handle) (i : Nat) :
    (checkEnd false (g.nodes.map Node.entry) i d id (some handle)).SucceedsButPorts () := by
  obtain ⟨n, hn, there, hthere⟩ := h
  have hlength : n.entry.cases.length = n.cases.length := List.length_map ..
  simp only [checkEnd, find?_entry hn, n.kind?_entry, hlength]
  refine .bind (Audited.succeedsButPorts_lift (mapError_eq_ok.mpr hthere)) ?_
  cases there with
  | true => exact Audited.succeedsButPorts_pure ()
  | false => exact ⟨rfl, by simp [meet, Audited.report, Notice.IsAboutPort]⟩

/-- **Edges are checked as they have been written.** Nothing but ports may be reported. -/
lemma Graph.checkEdges_toJson {g : Graph} {es : List Edge} (h : ∀ e ∈ es, g.Attached e) (i : Nat) :
    (checkEdges false (g.nodes.map Node.entry) i (es.map Edge.toJson)).SucceedsButPorts
      (es.map Edge.entry) := by
  induction es generalizing i with
  | nil => exact Audited.succeedsButPorts_pure []
  | cons e rest ih =>
    rw [List.forall_mem_cons] at h
    have hread : (readEdge i e.toJson).mapError CheckError.schema = .ok e.entry :=
      mapError_eq_ok.mpr (readEdge_toJson e i)
    rw [List.map_cons, checkEdges]
    refine .bind (Audited.succeedsButPorts_lift hread) ?_
    refine .bind (h.1.source.checkEnd_entry i) ?_
    refine .bind (h.1.target.checkEnd_entry i) ?_
    exact .bind (ih h.2 (i + 1)) (Audited.succeedsButPorts_pure _)

/-! ## Graphs -/

/-- What is read from the document of a graph. -/
def Graph.entries (g : Graph) : Document where
  name := some g.name
  nodes := g.nodes.map Node.entry
  edges := g.edges.map Edge.entry

/-- **The check of the document of a loadable graph succeeds.** Nothing but ports may be
reported. -/
lemma Graph.Loadable.check_toJson {g : Graph} (h : g.Loadable) :
    (Document.check false g.toJson).SucceedsButPorts g.entries := by
  have htop : (readTop g.toJson).mapError CheckError.schema =
      .ok (some g.name, g.nodes.map Node.toJson, g.edges.map Edge.toJson) := by
    simp [readTop, Graph.toJson, required, topList, optionalText, Json.given?, lookup_cons, pure,
      Except.pure]
  have hnodes : checkNodes false 0 [] (g.nodes.map Node.toJson) = pure (g.nodes.map Node.entry) :=
    checkNodes_toJson g.nodes_nodup (by simp)
  refine .bind (Audited.succeedsButPorts_lift htop) ?_
  simp only [hnodes, Audited.pure_bind]
  exact .bind (g.checkEdges_toJson h.edges 0) (Audited.succeedsButPorts_pure _)

/-- Loading the entry of a loadable node gives the node. -/
lemma Node.Loadable.loadNode_entry {n : Node} (h : n.Loadable) :
    loadNode n.kind n.entry = .ok n := by
  have hcases : (n.cases.map Case.entry).mapM loadCase = .ok n.cases :=
    mapM_eq_ok.mpr (List.forall₂_map_left_iff.mpr (List.forall₂_same.mpr h.cases))
  have hwith : n.withCases n.cases = .ok n := dif_pos n.cases_nodup
  simp only [loadNode, Node.entry, hcases, ok_bind, h.x, h.y, h.customName, h.variableName,
    Option.getD_some, mapError_eq_ok]
  exact hwith

/-- Loading the entries of loadable nodes gives the nodes. -/
lemma loadNodes_entry {ns : List Node} (h : ∀ n ∈ ns, n.Loadable) :
    loadNodes (ns.map Node.entry) = pure ns := by
  induction ns with
  | nil => rfl
  | cons n rest ih =>
    rw [List.forall_mem_cons] at h
    rw [List.map_cons, loadNodes, n.kind?_entry]
    simp only [h.1.loadNode_entry, Audited.lift_ok_bind, ih h.2, Audited.pure_bind]

/-- Loading the entry of an edge gives the edge. -/
lemma Graph.Attached.loadEdge_entry {g : Graph} {e : Edge} (h : g.Attached e) :
    loadEdge g.nodes e.entry = .ok e := by
  obtain ⟨source, hsource, -⟩ := h.source
  obtain ⟨target, htarget, -⟩ := h.target
  have hid : nonempty? (some e.id) = some e.id := nonempty?_eq_some.mpr ⟨rfl, h.id⟩
  have hsourceHandle : nonempty? (some e.sourceHandle) = some e.sourceHandle :=
    nonempty?_eq_some.mpr ⟨rfl, h.sourceHandle⟩
  have htargetHandle : nonempty? (some e.targetHandle) = some e.targetHandle :=
    nonempty?_eq_some.mpr ⟨rfl, h.targetHandle⟩
  rw [Graph.node?] at hsource htarget
  simp only [loadEdge, Edge.entry, hsource, htarget, hid, hsourceHandle, htargetHandle,
    Option.getD_some]
  rfl

/-- Loading the entries of edges gives the edges. -/
lemma Graph.loadEdges_entry {g : Graph} {es : List Edge} (h : ∀ e ∈ es, g.Attached e) :
    loadEdges g.nodes (es.map Edge.entry) = es := by
  induction es with
  | nil => rfl
  | cons e rest ih =>
    rw [List.forall_mem_cons] at h
    rw [List.map_cons, loadEdges, List.filterMap_cons, h.1.loadEdge_entry]
    exact congrArg (e :: ·) (ih h.2)

/-- **The document of a loadable graph loads as the graph.** -/
lemma Graph.Loadable.outcome_ofJson_toJson {g : Graph} (h : g.Loadable) :
    (Graph.ofJson false g.toJson).outcome = .ok g := by
  have hname : nonempty? (some g.name) = some g.name := nonempty?_eq_some.mpr ⟨rfl, h.name⟩
  have hparts : Graph.ofParts g.nodes g.edges g.name = .ok g := dif_pos g.nodes_nodup
  have hload : g.entries.load.outcome = .ok g := by
    simp only [load, Graph.entries, loadNodes_entry h.nodes, Graph.loadEdges_entry h.edges,
      Audited.pure_bind, hname, Option.getD_some, hparts]
    rfl
  rw [Graph.ofJson, Audited.outcome_bind_eq_ok]
  exact ⟨g.entries, Audited.outcome_mapError_eq_ok.mpr h.check_toJson.1, hload⟩

end LogicGraph
