import LogicGraph.Proofs.Document.Flaws
import LogicGraph.Proofs.Document.Loadable

set_option relaxedAutoImplicit false
set_option autoImplicit false

/-!
# Strict loading

Checking meets flaws: nodes of unknown kind, edges without a node at one end, ports that a node does
not have. Strict checking fails at the first of them, and otherwise each is reported as a warning.
So strict loading succeeds exactly if loading succeeds without a warning. This module shows what
such a graph has kept of its document: all nodes, and all edges but those that name no port to leave
by and leave a node of a kind without output ports.

## Main definitions

* `LogicGraph.Audited.IsSilent` — a computation that reports no warning.
* `LogicGraph.FailsOnFlaws` — a computation whose strict form fails where the other one warns.
* `LogicGraph.Graph.lacksPort` — an edge of a document that has no port to leave by.
* `LogicGraph.Graph.Keeps` — a graph that has kept what a document has.

## Main results

* `LogicGraph.Graph.failsOnFlaws_ofJson` — strict loading succeeds exactly if loading succeeds
  without a warning.
* `LogicGraph.Document.loadEdge_of_endFits` — which edges that have passed a strict check are
  loaded.
* `LogicGraph.Graph.hasPort_of_ofJson_strict` — the ports of a strictly loaded edge are ports of its
  nodes.
* `LogicGraph.Graph.keeps_of_ofJson` — what strict loading keeps.
-/

namespace LogicGraph

open Document

/-! ## Warnings and failures -/

/-- A computation that reports no warning. -/
def Audited.IsSilent {ε α : Type} (x : Audited ε α) : Prop :=
  ∀ notice ∈ x.notices, notice.warning? = none

/-- A computation in two forms, of which the strict one succeeds exactly if the other one succeeds
without a warning, and then with the same result. -/
def FailsOnFlaws {ε α : Type} (x : Bool → Audited ε α) : Prop :=
  ∀ a, (x true).outcome = .ok a ↔ (x false).outcome = .ok a ∧ (x false).IsSilent

section

variable {ε ε' α β : Type}

/-- A result is silent. -/
lemma Audited.isSilent_pure (a : α) : (pure a : Audited ε α).IsSilent := by
  simp [IsSilent]

/-- A computation without notices is silent. -/
lemma Audited.isSilent_lift (x : Except ε α) : (lift x).IsSilent := by
  simp [IsSilent, lift]

/-- Two computations in a row are silent exactly if both are. -/
lemma Audited.isSilent_bind {x : Audited ε α} {f : α → Audited ε β} {a : α}
    (ha : x.outcome = .ok a) :
    (x >>= f).IsSilent ↔ x.IsSilent ∧ (f a).IsSilent := by
  simp only [IsSilent, notices_bind_ok ha, List.forall_mem_append]

/-- Silent computations one after another are silent, however they end. -/
lemma Audited.IsSilent.bind {x : Audited ε α} {f : α → Audited ε β} (hx : x.IsSilent)
    (hf : ∀ a, (f a).IsSilent) :
    (x >>= f).IsSilent := by
  cases hout : x.outcome with
  | error e =>
    unfold IsSilent
    rwa [notices_bind_error hout]
  | ok a => exact (isSilent_bind hout).mpr ⟨hx, hf a⟩

/-- A computation that is silent and does not depend on strictness. -/
lemma failsOnFlaws_of_isSilent {x : Audited ε α} (hx : x.IsSilent) : FailsOnFlaws fun _ => x :=
  fun _ => ⟨fun h => ⟨h, hx⟩, fun h => h.1⟩

/-- **One after another, computations fail on flaws if each of them does.** -/
lemma FailsOnFlaws.bind {x : Bool → Audited ε α} {f : Bool → α → Audited ε β} (hx : FailsOnFlaws x)
    (hf : ∀ a, FailsOnFlaws fun strict => f strict a) :
    FailsOnFlaws fun strict => x strict >>= f strict := by
  intro b
  simp only [Audited.outcome_bind_eq_ok]
  constructor
  · rintro ⟨a, ha, hb⟩
    obtain ⟨ha, hsilent⟩ := (hx a).mp ha
    obtain ⟨hb, hrest⟩ := (hf a b).mp hb
    exact ⟨⟨a, ha, hb⟩, (Audited.isSilent_bind ha).mpr ⟨hsilent, hrest⟩⟩
  · rintro ⟨⟨a, ha, hb⟩, hsilent⟩
    obtain ⟨hfirst, hrest⟩ := (Audited.isSilent_bind ha).mp hsilent
    exact ⟨a, (hx a).mpr ⟨ha, hfirst⟩, (hf a b).mpr ⟨hb, hrest⟩⟩

/-- Another account of failures does not make flaws harmless. -/
lemma FailsOnFlaws.mapError {x : Bool → Audited ε α} (hx : FailsOnFlaws x) (f : ε → ε') :
    FailsOnFlaws fun strict => (x strict).mapError f := by
  intro a
  simp only [Audited.outcome_mapError_eq_ok]
  exact hx a

end

namespace Document

/-- A computation is silent exactly if it has no warnings. -/
lemma isSilent_iff_warnings_eq_nil {ε α : Type} {x : Audited ε α} :
    x.IsSilent ↔ x.warnings = [] := by
  rw [Audited.IsSilent, Audited.warnings, List.filterMap_eq_nil_iff]

/-- The strict check fails on flaws. -/
lemma failsOnFlaws_check (v : Json) : FailsOnFlaws fun strict => check strict v := by
  intro d
  rw [isSilent_iff_warnings_eq_nil]
  exact (stopsAtFlaws_check v).outcome_eq_iff (by simp)

/-- The notices about edges that are left out are no warnings. -/
lemma warning?_of_mem_droppedEdges {nodes : List Node} {es : List EdgeEntry} :
    ∀ notice ∈ droppedEdges nodes es, notice.warning? = none := by
  intro notice hnotice
  obtain ⟨e, -, he⟩ := List.mem_filterMap.mp hnotice
  unfold loadEdge at he
  split at he
  · cases he
  · rename_i heq
    cases he
    split at heq
    · split at heq <;> cases heq
      rfl
    · cases heq
      rfl

/-- Loading nodes reports no warning: what is wrong with a node has been said by the check. -/
lemma isSilent_loadNodes (es : List NodeEntry) : (loadNodes es).IsSilent := by
  induction es with
  | nil => exact Audited.isSilent_pure []
  | cons e rest ih =>
    unfold loadNodes
    split
    · refine .bind ?_ fun _ => ih
      simp [Audited.IsSilent, Audited.report, Notice.warning?]
    · exact .bind (Audited.isSilent_lift _) fun n => .bind ih fun ns => Audited.isSilent_pure _

/-- Loading is silent. -/
lemma isSilent_load (d : Document) : d.load.IsSilent :=
  .bind (isSilent_loadNodes d.nodes) fun _ => .bind warning?_of_mem_droppedEdges fun _ =>
    Audited.isSilent_lift _

end Document

/-- **Strict loading succeeds exactly if loading succeeds without a warning.** -/
lemma Graph.failsOnFlaws_ofJson (v : Json) : FailsOnFlaws fun strict => Graph.ofJson strict v :=
  .bind ((failsOnFlaws_check v).mapError LoadError.check) fun d =>
    failsOnFlaws_of_isSilent (isSilent_load d)

/-! ## What has been read -/

namespace Document

/-- The lists of a document that has been read. -/
lemma field?_of_readTop {v : Json} {name : Option String} {us ws : List Json}
    (h : readTop v = .ok (name, us, ws)) :
    v.field? "nodes" = some (.array us) ∧ v.field? "edges" = some (.array ws) := by
  obtain ⟨fields, rfl, -, hnodes, hedges⟩ := readTop_eq_ok_iff.mp h
  exact ⟨hnodes, hedges⟩

/-- What an edge of a document says, and what has been read of it. -/
structure Reads (v : Json) (e : EdgeEntry) : Prop where
  /-- The id of the node that the edge leaves. -/
  source : HasText v "source" e.source
  /-- The id of the node that the edge enters. -/
  target : HasText v "target" e.target
  /-- The port that the edge leaves is absent or null exactly if none has been read. -/
  sourceHandle : (v.field? "sourceHandle" = none ∨ v.field? "sourceHandle" = some .null) ↔
    e.sourceHandle = none

/-- An entry that is read from an edge says what the edge says. -/
lemma reads_of_readEdge {i : Nat} {v : Json} {e : EdgeEntry} (h : readEdge i v = .ok e) :
    Reads v e := by
  obtain ⟨fields, rfl, hreads⟩ := readEdge_eq_ok_iff.mp h
  refine ⟨hreads.source, hreads.target, ?_⟩
  show (Json.lookup fields "sourceHandle" = none ∨ Json.lookup fields "sourceHandle" = some .null) ↔
      e.sourceHandle = none
  rw [← given?_eq_none, optionalText_eq_ok_iff.mp hreads.sourceHandle, Option.map_eq_none_iff]

/-! ## What a strict check knows -/

/-- One end of an edge is at a node of a document, and if it names a port then this is a port of the
node. -/
def EndFits (ns : List NodeEntry) (d : Direction) (id : String) (handle : Option String) : Prop :=
  ∃ n, ns.find? (·.id == id) = some n ∧
    ∀ k port, n.kind? = some k → handle = some port → k.hasPort port d n.cases.length = .ok true

/-- With strictness only a known type will do. -/
lemma exists_kind_of_checkKind {i : Nat} {n : NodeEntry}
    (h : (checkKind true i n).outcome = .ok ()) :
    ∃ k, n.kind? = some k := by
  unfold checkKind at h
  split at h
  · rename_i k hk
    exact ⟨k, hk⟩
  · cases h

/-- A strict check of nodes reads an entry for each of them, and knows the kinds of all. -/
lemma forall₂_of_checkNodes {i : Nat} {seen : List String} {vs : List Json} {es : List NodeEntry}
    (h : (checkNodes true i seen vs).outcome = .ok es) :
    List.Forall₂ (fun v e => HasText v "id" e.id ∧ ∃ k, e.kind? = some k) vs es := by
  induction vs generalizing i seen es with
  | nil =>
    cases h
    exact .nil
  | cons v rest ih =>
    simp only [checkNodes, Audited.outcome_bind_eq_ok, Audited.outcome_lift, Audited.outcome_pure,
      mapError_eq_ok, Except.ok.injEq] at h
    obtain ⟨e, he, ⟨⟩, hkind, es, hes, rfl⟩ := h
    exact .cons ⟨hasText_of_readNode he, exists_kind_of_checkKind hkind⟩ (ih hes)

/-- With strictness an end that passes the check fits its node. -/
lemma endFits_of_checkEnd {ns : List NodeEntry} {i : Nat} {d : Direction} {id : String}
    {handle : Option String} (h : (checkEnd true ns i d id handle).outcome = .ok ()) :
    EndFits ns d id handle := by
  unfold checkEnd at h
  split at h
  · cases h
  · rename_i n hn
    refine ⟨n, hn, ?_⟩
    rintro k port hk rfl
    simp only [hk, Audited.outcome_bind_eq_ok, Audited.outcome_lift, mapError_eq_ok] at h
    obtain ⟨there, hthere, h⟩ := h
    cases there with
    | true => exact hthere
    | false => cases h

/-- A strict check of edges reads an entry for each of them, and both ends fit. -/
lemma forall₂_of_checkEdges {ns : List NodeEntry} {i : Nat} {vs : List Json} {es : List EdgeEntry}
    (h : (checkEdges true ns i vs).outcome = .ok es) :
    List.Forall₂ (fun v e => Reads v e ∧ EndFits ns .output e.source e.sourceHandle ∧
      EndFits ns .input e.target e.targetHandle) vs es := by
  induction vs generalizing i es with
  | nil =>
    cases h
    exact .nil
  | cons v rest ih =>
    simp only [checkEdges, Audited.outcome_bind_eq_ok, Audited.outcome_lift, Audited.outcome_pure,
      mapError_eq_ok, Except.ok.injEq] at h
    obtain ⟨e, he, ⟨⟩, hsource, ⟨⟩, htarget, es, hes, rfl⟩ := h
    exact .cons ⟨reads_of_readEdge he, endFits_of_checkEnd hsource, endFits_of_checkEnd htarget⟩
      (ih hes)

/-! ## What is loaded -/

/-- If all kinds are known, then a node is loaded from each entry. -/
lemma forall₂_of_loadNodes {es : List NodeEntry} {ns : List Node}
    (hkinds : ∀ e ∈ es, ∃ k, e.kind? = some k) (h : (loadNodes es).outcome = .ok ns) :
    List.Forall₂ (fun e n => e.kind? = some n.kind ∧ loadNode n.kind e = .ok n) es ns := by
  induction es generalizing ns with
  | nil =>
    cases h
    exact .nil
  | cons e rest ih =>
    obtain ⟨⟨k, hk⟩, hrest⟩ := List.forall_mem_cons.mp hkinds
    unfold loadNodes at h
    simp only [hk, Audited.outcome_bind_eq_ok, Audited.outcome_lift, Audited.outcome_pure,
      Except.ok.injEq] at h
    obtain ⟨n, hn, ns, hns, rfl⟩ := h
    obtain rfl := (loadable_of_loadNode hn).2.1
    exact .cons ⟨hk, hn⟩ (ih hrest hns)

/-- No port has an empty name. -/
lemma ne_empty_of_hasPort {k : Kind} {d : Direction} {port : String} {count : Int}
    (h : k.hasPort port d count = .ok true) : port ≠ "" := by
  rintro rfl
  have hfalse : k.hasPort "" d count = .ok false := by cases k <;> cases d <;> rfl
  rw [hfalse] at h
  cases h

/-- The one kind and direction without a default port. -/
lemma defaultPort?_eq_none_iff {k : Kind} {d : Direction} :
    k.defaultPort? d = none ↔ k = .reward ∧ d = .output := by
  cases k <;> cases d <;> decide

section

variable {k : Kind} {d : Direction} {handle : Option String} {count : Int}

/-- The port of an end that fits is a port of its node, whether it is given or the default one. -/
lemma hasPort_of_given_or_default
    (hfits : ∀ port, handle = some port → k.hasPort port d count = .ok true) {port : String}
    (h : (nonempty? handle <|> k.defaultPort? d) = some port) :
    k.hasPort port d count = .ok true := by
  rcases given_or_default h with ⟨hgiven, -⟩ | hdefault
  · exact hfits port hgiven
  · exact hasPort_defaultPort? hdefault count

/-- An end that fits is without a port only if it names none and there is no default one. -/
lemma given_or_default_eq_none_iff
    (hfits : ∀ port, handle = some port → k.hasPort port d count = .ok true) :
    (nonempty? handle <|> k.defaultPort? d) = none ↔ handle = none ∧ k = .reward ∧ d = .output := by
  cases handle with
  | none =>
    rw [← defaultPort?_eq_none_iff]
    simp [nonempty?]
  | some port =>
    rw [nonempty?_eq_some.mpr ⟨rfl, ne_empty_of_hasPort (hfits port rfl)⟩]
    simp

end

/-- An end that fits is at a loaded node, and a port that it names is a port of this node. -/
lemma EndFits.exists_node {ns : List NodeEntry} {nodes : List Node}
    (hnodes : List.Forall₂ (fun e n => e.kind? = some n.kind ∧ loadNode n.kind e = .ok n) ns nodes)
    {d : Direction} {id : String} {handle : Option String} (h : EndFits ns d id handle) :
    ∃ n, nodes.find? (·.id == id) = some n ∧
      ∀ port, handle = some port → n.kind.hasPort port d n.cases.length = .ok true := by
  obtain ⟨entry, hentry, hport⟩ := h
  induction hnodes with
  | nil => cases hentry
  | @cons e n ns nodes hhead _ ih =>
    obtain ⟨hkind, hload⟩ := hhead
    obtain ⟨hid, -, hlength, -⟩ := loadable_of_loadNode hload
    by_cases hmatch : n.id = id
    · rw [List.find?_cons_of_pos (by simp [← hid, hmatch])] at hentry
      cases hentry
      refine ⟨n, List.find?_cons_of_pos (by simp [hmatch]), fun port hhandle => ?_⟩
      rw [hlength]
      exact hport n.kind port hkind hhandle
    · rw [List.find?_cons_of_neg (by simp [← hid, hmatch])] at hentry
      rw [List.find?_cons_of_neg (by simp [hmatch])]
      exact ih hentry

/-- An edge entry that has no port to leave by. -/
def EdgeEntry.lacksPort (nodes : List Node) (e : EdgeEntry) : Bool :=
  e.sourceHandle.isNone && (nodes.find? (·.id == e.source)).any (·.kind == .reward)

/-- **An edge entry whose ends fit is loaded unless it has no port to leave by**, and what is loaded
joins the same nodes by ports that they have. -/
lemma loadEdge_of_endFits {ns : List NodeEntry} {nodes : List Node}
    (hnodes : List.Forall₂ (fun e n => e.kind? = some n.kind ∧ loadNode n.kind e = .ok n) ns nodes)
    {e : EdgeEntry} (hsource : EndFits ns .output e.source e.sourceHandle)
    (htarget : EndFits ns .input e.target e.targetHandle) :
    (e.lacksPort nodes = true ∧ (loadEdge nodes e).toOption = none) ∨
    (e.lacksPort nodes = false ∧ ∃ edge, (loadEdge nodes e).toOption = some edge ∧
      edge.source = e.source ∧ edge.target = e.target ∧
      (∃ n, nodes.find? (·.id == e.source) = some n ∧
        n.kind.hasPort edge.sourceHandle .output n.cases.length = .ok true) ∧
      ∃ n, nodes.find? (·.id == e.target) = some n ∧
        n.kind.hasPort edge.targetHandle .input n.cases.length = .ok true) := by
  obtain ⟨m, hm, hmport⟩ := hsource.exists_node hnodes
  obtain ⟨n, hn, hnport⟩ := htarget.exists_node hnodes
  have hlacks : e.lacksPort nodes = true ↔
      (nonempty? e.sourceHandle <|> m.kind.defaultPort? .output) = none := by
    rw [given_or_default_eq_none_iff hmport]
    simp [EdgeEntry.lacksPort, hm]
  -- every kind has an input port, so only the port that the edge leaves can be missing
  obtain ⟨targetHandle, htargetHandle⟩ : ∃ port,
      (nonempty? e.targetHandle <|> n.kind.defaultPort? .input) = some port := by
    rw [← Option.ne_none_iff_exists']
    rw [ne_eq, given_or_default_eq_none_iff hnport]
    simp
  cases hsourceHandle : (nonempty? e.sourceHandle <|> m.kind.defaultPort? .output) with
  | none =>
    refine .inl ⟨hlacks.mpr hsourceHandle, ?_⟩
    simp only [loadEdge, hm, hn, hsourceHandle]
    rfl
  | some sourceHandle =>
    refine .inr ⟨Bool.eq_false_iff.mpr fun h => ?_, ?_⟩
    · rw [hlacks.mp h] at hsourceHandle
      cases hsourceHandle
    · have hload : ∃ id, loadEdge nodes e =
          .ok ⟨id, e.source, sourceHandle, e.target, targetHandle⟩ := by
        simp only [loadEdge, hm, hn, hsourceHandle, htargetHandle]
        exact ⟨_, rfl⟩
      obtain ⟨id, hload⟩ := hload
      rw [hload]
      exact ⟨_, rfl, rfl, rfl, ⟨m, hm, hasPort_of_given_or_default hmport hsourceHandle⟩, n, hn,
        hasPort_of_given_or_default hnport htargetHandle⟩

end Document

/-! ## Graphs -/

namespace Graph

/-- One end of an edge is at a node of the graph, by a port of this node. -/
def HasPort (g : Graph) (d : Direction) (id handle : String) : Prop :=
  ∃ n, g.node? id = some n ∧ n.kind.hasPort handle d n.cases.length = .ok true

/-- An edge of a document that names no port to leave by, and leaves a node of the one kind without
output ports. -/
def lacksPort (g : Graph) (v : Json) : Bool :=
  match v.field? "source", v.field? "sourceHandle" with
  | some (.string id), none | some (.string id), some .null => (g.node? id).any (·.kind == .reward)
  | _, _ => false

/-- A graph has kept what a document has: one node for each of its nodes, and one edge for each of
its edges that has a port to leave by, in the same order and with the same ids of nodes. -/
structure Keeps (g : Graph) (v : Json) : Prop where
  /-- There is one node for each node of the document. -/
  nodes : ∃ us, v.field? "nodes" = some (.array us) ∧
    List.Forall₂ (fun u n => HasText u "id" n.id) us g.nodes
  /-- There is one edge for each edge of the document that has a port to leave by. -/
  edges : ∃ us, v.field? "edges" = some (.array us) ∧
    List.Forall₂ (fun u e => HasText u "source" e.source ∧ HasText u "target" e.target)
      (us.filter fun u => !g.lacksPort u) g.edges

/-- Whether an edge of a document has a port to leave by is seen from what has been read of it. -/
lemma lacksPort_eq {g : Graph} {v : Json} {e : EdgeEntry} (h : Reads v e) :
    g.lacksPort v = e.lacksPort g.nodes := by
  obtain ⟨hsource, -, hhandle⟩ := h
  unfold lacksPort EdgeEntry.lacksPort
  rw [HasText] at hsource
  rw [hsource]
  cases hnone : e.sourceHandle with
  | none =>
    rcases hhandle.mpr hnone with hfield | hfield <;> rw [hfield] <;> rfl
  | some port =>
    have hne := mt hhandle.mp (by simp [hnone])
    rw [not_or] at hne
    split
    · exact absurd (by assumption) hne.1
    · exact absurd (by assumption) hne.2
    · rfl

/-- **How a graph is loaded strictly.** Entries are read of all nodes and edges of the document; the
kinds of nodes are known and the ends of edges fit. Nodes are loaded from all entries, and edges
from all that can be loaded. -/
lemma exists_entries_of_ofJson_strict {v : Json} {g : Graph}
    (h : (Graph.ofJson true v).outcome = .ok g) :
    ∃ us ws ns es, v.field? "nodes" = some (.array us) ∧ v.field? "edges" = some (.array ws) ∧
      List.Forall₂ (fun u e => HasText u "id" e.id ∧ ∃ k, e.kind? = some k) us ns ∧
      List.Forall₂ (fun w e => Reads w e ∧ EndFits ns .output e.source e.sourceHandle ∧
        EndFits ns .input e.target e.targetHandle) ws es ∧
      List.Forall₂ (fun e n => e.kind? = some n.kind ∧ loadNode n.kind e = .ok n) ns g.nodes ∧
      g.edges = es.filterMap fun e => (loadEdge g.nodes e).toOption := by
  simp only [Graph.ofJson, Document.check, load, Audited.outcome_bind_eq_ok,
    Audited.outcome_mapError_eq_ok, Audited.outcome_lift, Audited.outcome_pure, mapError_eq_ok,
    Except.ok.injEq] at h
  obtain ⟨d, ⟨⟨name, us, ws⟩, htop, ns, hns, es, hes, rfl⟩, nodes, hnodes, -, -, hparts⟩ := h
  obtain ⟨rfl, hedges, -⟩ := ofParts_eq_ok hparts
  obtain ⟨husField, hwsField⟩ := field?_of_readTop htop
  have hentries := forall₂_of_checkNodes hns
  have hkinds : ∀ e ∈ ns, ∃ k, e.kind? = some k := by
    intro e he
    obtain ⟨u, -, -, hk⟩ := exists_of_forall₂_of_mem_right hentries he
    exact hk
  exact ⟨us, ws, ns, es, husField, hwsField, hentries, forall₂_of_checkEdges hes,
    forall₂_of_loadNodes hkinds hnodes, hedges⟩

/-- **The ports of a strictly loaded edge are ports of its nodes.** -/
lemma hasPort_of_ofJson_strict {v : Json} {g : Graph} (h : (Graph.ofJson true v).outcome = .ok g)
    {e : Edge} (he : e ∈ g.edges) :
    g.HasPort .output e.source e.sourceHandle ∧ g.HasPort .input e.target e.targetHandle := by
  obtain ⟨us, ws, ns, es, -, -, -, hreads, hnodes, hedges⟩ := exists_entries_of_ofJson_strict h
  rw [hedges] at he
  obtain ⟨entry, hentry, hload⟩ := List.mem_filterMap.mp he
  obtain ⟨w, -, -, hsource, htarget⟩ := exists_of_forall₂_of_mem_right hreads hentry
  rcases loadEdge_of_endFits hnodes hsource htarget with
    ⟨-, hnone⟩ | ⟨-, edge, hsome, hs, ht, hsourcePort, htargetPort⟩
  · rw [hnone] at hload
    cases hload
  · rw [hsome] at hload
    cases hload
    rw [hs, ht]
    exact ⟨hsourcePort, htargetPort⟩

/-- Strict loading keeps the nodes and edges of a document. -/
lemma keeps_of_ofJson_strict {v : Json} {g : Graph} (h : (Graph.ofJson true v).outcome = .ok g) :
    g.Keeps v := by
  obtain ⟨us, ws, ns, es, hus, hws, hentries, hreads, hnodes, hedges⟩ :=
    exists_entries_of_ofJson_strict h
  refine ⟨⟨us, hus, ?_⟩, ⟨ws, hws, ?_⟩⟩
  · have hids : ns.map NodeEntry.id = g.nodes.map Node.id := by
      rw [← List.forall₂_eq_eq_eq, List.forall₂_map_left_iff, List.forall₂_map_right_iff]
      exact hnodes.imp fun e n hload => (loadable_of_loadNode hload.2).1.symm
    have hread : List.Forall₂ (fun u id => HasText u "id" id) us (g.nodes.map Node.id) := by
      rw [← hids, List.forall₂_map_right_iff]
      exact hentries.imp fun u e hentry => hentry.1
    exact List.forall₂_map_right_iff.mp hread
  · rw [hedges]
    clear hedges hws
    induction hreads with
    | nil => exact .nil
    | @cons w e ws es hhead _ ih =>
      obtain ⟨hread, hsource, htarget⟩ := hhead
      rcases loadEdge_of_endFits hnodes hsource htarget with
        ⟨hlacks, hnone⟩ | ⟨hlacks, edge, hsome, hs, ht, -, -⟩
      · rw [List.filter_cons_of_neg (by simp [lacksPort_eq hread, hlacks])]
        simp only [List.filterMap_cons, hnone]
        exact ih
      · rw [List.filter_cons_of_pos (by simp [lacksPort_eq hread, hlacks])]
        simp only [List.filterMap_cons, hsome]
        refine .cons ?_ ih
        rw [hs, ht]
        exact ⟨hread.source, hread.target⟩

/-- **Strict loading keeps all nodes of a document and all edges that have a port to leave by.** It
succeeds exactly if loading succeeds without a warning, with the same graph; so loading does not
leave out a node or such an edge without a warning. -/
theorem keeps_of_ofJson (v : Json) (g : Graph) :
    ((Graph.ofJson true v).outcome = .ok g → g.Keeps v) ∧
    ((Graph.ofJson true v).outcome = .ok g ↔
      (Graph.ofJson false v).outcome = .ok g ∧ (Graph.ofJson false v).IsSilent) ∧
    ((Graph.ofJson false v).outcome = .ok g → ¬ g.Keeps v →
      ∃ notice ∈ (Graph.ofJson false v).notices, ∃ warning, notice.warning? = some warning) := by
  refine ⟨keeps_of_ofJson_strict, Graph.failsOnFlaws_ofJson v g, ?_⟩
  intro hload hlost
  by_contra hnone
  have hsilent : (Graph.ofJson false v).IsSilent := by
    intro notice hnotice
    cases hwarning : notice.warning? with
    | none => rfl
    | some warning => exact absurd ⟨notice, hnotice, warning, hwarning⟩ hnone
  exact hlost (keeps_of_ofJson_strict ((Graph.failsOnFlaws_ofJson v g).mpr ⟨hload, hsilent⟩))

/-- A node of a document. -/
def nodeDocument (id kind : String) : Json :=
  .object [("id", .string id), ("type", .string kind)]

/-- An edge of a document that names no ports. -/
def plainEdgeDocument (source target : String) : Json :=
  .object [("source", .string source), ("target", .string target)]

/-- A sum that is rewarded, with one edge to the reward and one from it, both without ports. -/
def rewardedSum : Json :=
  .object [
    ("nodes", .array [nodeDocument "m" "math", nodeDocument "r" "reward"]),
    ("edges", .array [plainEdgeDocument "m" "r", plainEdgeDocument "r" "m"])]

/-- What is loaded of `rewardedSum`: the edge from the reward has no port to leave by. -/
def rewardedSumGraph : Graph where
  nodes := [{ id := "m", kind := .math }, { id := "r", kind := .reward }]
  edges := [⟨"m:val→r:value", "m", "val", "r", "value"⟩]
  nodes_nodup := by decide

/-- `rewardedSum` is loaded strictly, and what has a port to leave by is kept. -/
theorem keeps_rewardedSum :
    (Graph.ofJson true rewardedSum).outcome = .ok rewardedSumGraph ∧
    rewardedSumGraph.Keeps rewardedSum ∧
    (Graph.ofJson false rewardedSum).outcome = .ok rewardedSumGraph ∧
    (Graph.ofJson false rewardedSum).IsSilent := by
  have hload : (Graph.ofJson true rewardedSum).outcome = .ok rewardedSumGraph := by rfl
  have hkeeps := keeps_of_ofJson rewardedSum rewardedSumGraph
  obtain ⟨hlenient, hsilent⟩ := hkeeps.2.1.mp hload
  exact ⟨hload, hkeeps.1 hload, hlenient, hsilent⟩

/-- **An edge can be lost under strict loading.** `rewardedSum` has two edges, is loaded strictly,
and without a warning if it is not loaded strictly, and the graph has one edge. -/
theorem edge_lost_of_rewardedSum :
    (Graph.ofJson true rewardedSum).outcome = .ok rewardedSumGraph ∧
    (Graph.ofJson false rewardedSum).outcome = .ok rewardedSumGraph ∧
    (Graph.ofJson false rewardedSum).notices = [.portlessEdge "r" "m"] ∧
    rewardedSum.field? "edges" =
      some (.array [plainEdgeDocument "m" "r", plainEdgeDocument "r" "m"]) ∧
    rewardedSumGraph.edges.length = 1 := by
  exact ⟨rfl, rfl, rfl, rfl, rfl⟩

end Graph

end LogicGraph
