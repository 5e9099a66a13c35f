import Mathlib.Data.List.Nodup
import Mathlib.Tactic.Common
import LogicGraph.Document.Load
import LogicGraph.Proofs.Document.Interface

set_option relaxedAutoImplicit false
set_option autoImplicit false

/-!
# Graphs that loading leaves alone

Loading brings a document into a normal form: empty names are dropped, the values of cases become
texts, coordinates become doubles with only one zero, edges get ids and ports. A graph is loadable
if it is in this form already. Whatever is loaded or imported is loadable.

## Main definitions

* `LogicGraph.Node.Loadable`, `LogicGraph.Graph.Attached`, `LogicGraph.Graph.Loadable` — nodes,
  edges and graphs in normal form.

## Main results

* `LogicGraph.Graph.loadable_of_ofJson` — a loaded graph is loadable.
* `LogicGraph.Graph.loadable_of_ofInterface` — an imported graph is loadable.

## Design

Each part of the normal form says that loading that part gives it back. What has to be shown of
loading is then that doing it twice is doing it once.
-/

namespace LogicGraph

open Document

/-- A node that loading leaves alone. -/
structure Node.Loadable (n : Node) : Prop where
  /-- The chosen name is not empty. -/
  customName : nonempty? n.customName = n.customName
  /-- The name of the variable is not empty. -/
  variableName : nonempty? n.variableName = n.variableName
  /-- The values of cases are texts. -/
  cases : ∀ c ∈ n.cases, loadCase ⟨c.id, c.value⟩ = .ok c
  /-- The horizontal coordinate is a double, and not the negative zero. -/
  x : loadCoordinate (some n.position.x) = .ok n.position.x
  /-- The vertical coordinate is a double, and not the negative zero. -/
  y : loadCoordinate (some n.position.y) = .ok n.position.y

/-- One end of an edge is at a node of the graph, and the name of its port can be read. -/
def Graph.HasEnd (g : Graph) (d : Direction) (id handle : String) : Prop :=
  ∃ n, g.node? id = some n ∧ ∃ there, n.kind.hasPort handle d n.cases.length = .ok there

/-- An edge that loading leaves alone. -/
structure Graph.Attached (g : Graph) (e : Edge) : Prop where
  /-- The id is not empty. -/
  id : e.id ≠ ""
  /-- The port that the edge leaves is named. -/
  sourceHandle : e.sourceHandle ≠ ""
  /-- The port that the edge enters is named. -/
  targetHandle : e.targetHandle ≠ ""
  /-- The edge leaves a node of the graph. -/
  source : g.HasEnd .output e.source e.sourceHandle
  /-- The edge enters a node of the graph. -/
  target : g.HasEnd .input e.target e.targetHandle

/-- A graph that loading leaves alone. -/
structure Graph.Loadable (g : Graph) : Prop where
  /-- The name is not empty. -/
  name : g.name ≠ ""
  /-- Loading leaves its nodes alone. -/
  nodes : ∀ n ∈ g.nodes, n.Loadable
  /-- Loading leaves its edges alone. -/
  edges : ∀ e ∈ g.edges, g.Attached e

/-- The empty graph is loadable. -/
lemma Graph.loadable_empty : Graph.Loadable {} where
  name := by decide
  nodes := by simp
  edges := by simp

/-! ## Texts -/

/-- A text that is not empty and not absent stays so. -/
lemma nonempty?_eq_some {s : Option String} {t : String} :
    nonempty? s = some t ↔ s = some t ∧ t ≠ "" := by
  simp [nonempty?, Option.filter_eq_some_iff]

/-- Dropping an empty text twice is dropping it once. -/
lemma nonempty?_nonempty? (s : Option String) : nonempty? (nonempty? s) = nonempty? s := by
  cases h : nonempty? s with
  | none => rfl
  | some t => exact nonempty?_eq_some.mpr ⟨rfl, (nonempty?_eq_some.mp h).2⟩

/-- A text with a replacement for the empty one is not empty if the replacement is not. -/
lemma nonempty?_getD_ne_empty {s : Option String} {t : String} (ht : t ≠ "") :
    (nonempty? s).getD t ≠ "" := by
  cases h : nonempty? s with
  | none => exact ht
  | some u => exact (nonempty?_eq_some.mp h).2

/-! ## Coordinates -/

/-- Loading leaves a double alone unless it is the negative zero. -/
lemma loadCoordinate_float {x : Binary64} (h : x.isZero = true → x = Binary64.zero false) :
    loadCoordinate (some (.float x)) = .ok (.float x) := by
  by_cases hx : x.isZero = true
  · rw [h hx]
    rfl
  · simp [loadCoordinate, Number.isZero, hx, Number.toBinary64?]

/-- Loading a coordinate twice is loading it once. -/
lemma loadCoordinate_of_loadCoordinate {m : Option Number} {n : Number}
    (h : loadCoordinate m = .ok n) :
    loadCoordinate (some n) = .ok n := by
  unfold loadCoordinate at h
  split at h
  · cases h
    exact loadCoordinate_float fun _ => rfl
  · rename_i k
    split_ifs at h with hk
    · cases h
      exact loadCoordinate_float fun _ => rfl
    · split at h
      · rename_i x hx
        cases h
        have hzero : x.isZero = false := by
          cases k with
          | int i => exact Binary64.isZero_of_ofInt? (by simpa [Number.isZero] using hk) hx
          | float y =>
            obtain rfl := Option.some.inj hx
            simpa [Number.isZero] using hk
        exact loadCoordinate_float fun h => absurd h (by rw [hzero]; decide)
      · cases h

/-! ## Nodes -/

/-- Loading a case twice is loading it once. -/
lemma loadCase_of_loadCase {c : CaseEntry} {d : Case} (h : loadCase c = .ok d) :
    loadCase ⟨d.id, d.value⟩ = .ok d := by
  unfold loadCase at h
  split at h
  · cases h
    rfl
  · split_ifs at h
    cases h
    rfl

/-- What is known of a loaded node and the entry that it comes from. -/
lemma loadable_of_loadNode {kind : Kind} {e : NodeEntry} {n : Node} (h : loadNode kind e = .ok n) :
    n.id = e.id ∧ n.kind = kind ∧ n.cases.length = e.cases.length ∧ n.Loadable := by
  unfold loadNode at h
  simp only [bind_eq_ok, mapError_eq_ok, Node.withCases] at h
  obtain ⟨cases, hcases, x, hx, y, hy, h⟩ := h
  split_ifs at h
  cases h
  have hforall := mapM_eq_ok.mp hcases
  refine ⟨rfl, rfl, hforall.length_eq.symm, nonempty?_nonempty? _, nonempty?_nonempty? _, ?_,
    loadCoordinate_of_loadCoordinate hx, loadCoordinate_of_loadCoordinate hy⟩
  intro c hc
  obtain ⟨c', -, hc'⟩ := exists_of_forall₂_of_mem_right hforall hc
  exact loadCase_of_loadCase hc'

/-- The nodes that are loaded come from entries of their kind. -/
lemma exists_of_mem_loadNodes {es : List NodeEntry} {ns : List Node}
    (h : (loadNodes es).outcome = .ok ns) {n : Node} (hn : n ∈ ns) :
    ∃ e ∈ es, e.kind? = some n.kind ∧ loadNode n.kind e = .ok n := by
  induction es generalizing ns with
  | nil =>
    cases h
    cases hn
  | cons e rest ih =>
    unfold loadNodes at h
    split at h
    · rw [Audited.outcome_bind_eq_ok] at h
      obtain ⟨-, -, h⟩ := h
      obtain ⟨e', he', hload⟩ := ih h hn
      exact ⟨e', List.mem_cons_of_mem _ he', hload⟩
    · rename_i kind hkind
      simp only [Audited.outcome_bind_eq_ok, Audited.outcome_lift, Audited.outcome_pure,
        Except.ok.injEq] at h
      obtain ⟨m, hm, ms, hms, rfl⟩ := h
      rcases List.mem_cons.mp hn with rfl | hn
      · obtain rfl := (loadable_of_loadNode hm).2.1
        exact ⟨e, List.mem_cons_self, hkind, hm⟩
      · obtain ⟨e', he', hload⟩ := ih hms hn
        exact ⟨e', List.mem_cons_of_mem _ he', hload⟩

/-- The id of a node that has been read has not been seen before. -/
lemma not_mem_seen_of_readNode {i : Nat} {seen : List String} {v : Json} {e : NodeEntry}
    (h : readNode i seen v = .ok e) : e.id ∉ seen := by
  obtain ⟨fields, data, position, -, hreads⟩ := readNode_eq_ok_iff.mp h
  exact hreads.fresh

/-- The entries of checked nodes have distinct ids, none of which has been seen before. -/
lemma nodup_of_checkNodes {strict : Bool} {i : Nat} {seen : List String} {vs : List Json}
    {es : List NodeEntry} (h : (checkNodes strict i seen vs).outcome = .ok es) :
    (es.map NodeEntry.id).Nodup ∧ ∀ e ∈ es, e.id ∉ seen := by
  induction vs generalizing i seen es with
  | nil =>
    cases h
    simp
  | cons v rest ih =>
    simp only [checkNodes, Audited.outcome_bind_eq_ok, Audited.outcome_lift, Audited.outcome_pure,
      mapError_eq_ok, Except.ok.injEq] at h
    obtain ⟨e, he, -, -, es, hes, rfl⟩ := h
    obtain ⟨hnodup, hseen⟩ := ih hes
    rw [List.map_cons, List.nodup_cons, List.forall_mem_cons]
    refine ⟨⟨?_, hnodup⟩, not_mem_seen_of_readNode he, ?_⟩
    · intro hmem
      obtain ⟨e', he', hid⟩ := List.mem_map.mp hmem
      exact hseen e' he' (hid ▸ List.mem_cons_self)
    · exact fun e' he' hmem => hseen e' he' (List.mem_cons_of_mem _ hmem)

/-- A member of a list with distinct keys is found by its key. -/
lemma find?_eq_some_of_nodup {α : Type} {key : α → String} {l : List α} (hl : (l.map key).Nodup)
    {a : α} (ha : a ∈ l) :
    l.find? (key · == key a) = some a := by
  induction l with
  | nil => cases ha
  | cons b rest ih =>
    rw [List.map_cons, List.nodup_cons] at hl
    rcases List.mem_cons.mp ha with rfl | ha
    · simp
    · have hne : key b ≠ key a := fun h => hl.1 (h ▸ List.mem_map_of_mem ha)
      rw [List.find?_cons_of_neg (by simpa using hne)]
      exact ih hl.2 ha

/-! ## Edges -/

/-- Every name of an input port can be read. -/
lemma exists_hasPort_input (k : Kind) (port : String) (count : Int) :
    ∃ there, k.hasPort port .input count = .ok there := by
  simp [Kind.hasPort]

/-- The default port is a port of the kind. -/
lemma hasPort_defaultPort? {k : Kind} {d : Direction} {port : String}
    (h : k.defaultPort? d = some port) (count : Int) :
    k.hasPort port d count = .ok true := by
  cases k <;> cases d <;> cases h <;> rfl

/-- The default port has a name. -/
lemma ne_empty_of_defaultPort? {k : Kind} {d : Direction} {port : String}
    (h : k.defaultPort? d = some port) :
    port ≠ "" := by
  rintro rfl
  revert h
  cases k <;> cases d <;> decide

/-- The port of a checked end at a node of known kind can be read. -/
lemma exists_hasPort_of_checkEnd {strict : Bool} {es : List NodeEntry} {i : Nat} {d : Direction}
    {id port : String} (h : (checkEnd strict es i d id (some port)).outcome = .ok ())
    {e : NodeEntry} {k : Kind} (he : es.find? (·.id == id) = some e) (hk : e.kind? = some k) :
    ∃ there, k.hasPort port d e.cases.length = .ok there := by
  simp only [checkEnd, he, hk, Audited.outcome_bind_eq_ok, Audited.outcome_lift,
    mapError_eq_ok] at h
  obtain ⟨there, hthere, -⟩ := h
  exact ⟨there, hthere⟩

/-- The ends of a checked edge have been checked. -/
lemma exists_checkEnd_of_mem {strict : Bool} {ns : List NodeEntry} {i : Nat} {vs : List Json}
    {es : List EdgeEntry} (h : (checkEdges strict ns i vs).outcome = .ok es) {e : EdgeEntry}
    (he : e ∈ es) :
    ∃ j, (checkEnd strict ns j .output e.source e.sourceHandle).outcome = .ok () := by
  induction vs generalizing i es with
  | nil =>
    cases h
    cases he
  | cons v rest ih =>
    simp only [checkEdges, Audited.outcome_bind_eq_ok, Audited.outcome_lift, Audited.outcome_pure,
      mapError_eq_ok, Except.ok.injEq] at h
    obtain ⟨e', -, ⟨⟩, hsource, -, -, es', hes, rfl⟩ := h
    rcases List.mem_cons.mp he with rfl | he
    · exact ⟨i, hsource⟩
    · exact ih hes he

/-- What is known of a loaded edge and the entry that it comes from. -/
lemma of_loadEdge {ns : List Node} {e : EdgeEntry} {edge : Edge} (h : loadEdge ns e = .ok edge) :
    edge.id ≠ "" ∧ edge.source = e.source ∧ edge.target = e.target ∧
    (∃ n, ns.find? (·.id == e.source) = some n ∧
      (nonempty? e.sourceHandle <|> n.kind.defaultPort? .output) = some edge.sourceHandle) ∧
    ∃ n, ns.find? (·.id == e.target) = some n ∧
      (nonempty? e.targetHandle <|> n.kind.defaultPort? .input) = some edge.targetHandle := by
  unfold loadEdge at h
  split at h
  · rename_i source target hsource htarget
    split at h
    · rename_i sourceHandle targetHandle hs ht
      cases h
      refine ⟨nonempty?_getD_ne_empty ?_, rfl, rfl, ⟨source, hsource, hs⟩, target, htarget, ht⟩
      simp [derivedEdgeId, toString]
    · cases h
  · cases h

/-- The port of a loaded end is the given one or the default one. -/
lemma given_or_default {given : Option String} {default : Option String} {port : String}
    (h : (nonempty? given <|> default) = some port) :
    (given = some port ∧ port ≠ "") ∨ default = some port := by
  cases hgiven : nonempty? given with
  | none =>
    rw [hgiven] at h
    exact .inr h
  | some p =>
    rw [hgiven] at h
    obtain rfl := Option.some.inj h
    exact .inl (nonempty?_eq_some.mp hgiven)

/-! ## Graphs -/

/-- The port that a loaded edge leaves can be read.

**Proof sketch.** If the entry of the edge names the port, then its check has read the name, for the
entry of the node that the edge leaves: ids are distinct, so this is the entry that the node was
loaded from. Otherwise it is the default port. -/
lemma exists_hasPort_source {strict : Bool} {ns : List NodeEntry}
    (hns : (ns.map NodeEntry.id).Nodup) {nodes : List Node}
    (hnodes : (loadNodes ns).outcome = .ok nodes) {e : EdgeEntry} {i : Nat}
    (hcheck : (checkEnd strict ns i .output e.source e.sourceHandle).outcome = .ok ()) {n : Node}
    {port : String} (hn : nodes.find? (·.id == e.source) = some n)
    (hport : (nonempty? e.sourceHandle <|> n.kind.defaultPort? .output) = some port) :
    ∃ there, n.kind.hasPort port .output n.cases.length = .ok there := by
  rcases given_or_default hport with ⟨hgiven, -⟩ | hdefault
  · obtain ⟨entry, hentry, hkind, hload⟩ :=
      exists_of_mem_loadNodes hnodes (List.mem_of_find?_eq_some hn)
    obtain ⟨hid, -, hlength, -⟩ := loadable_of_loadNode hload
    have hsource : n.id = e.source := by simpa using List.find?_some hn
    have hfind : ns.find? (·.id == e.source) = some entry := by
      rw [← hsource, hid]
      exact find?_eq_some_of_nodup hns hentry
    rw [hgiven] at hcheck
    rw [hlength]
    exact exists_hasPort_of_checkEnd hcheck hfind hkind
  · exact ⟨true, hasPort_defaultPort? hdefault _⟩

/-- The port of a loaded end has a name. -/
lemma ne_empty_of_given_or_default {given : Option String} {k : Kind} {d : Direction}
    {port : String} (h : (nonempty? given <|> k.defaultPort? d) = some port) : port ≠ "" := by
  rcases given_or_default h with ⟨-, hne⟩ | hdefault
  · exact hne
  · exact ne_empty_of_defaultPort? hdefault

/-- The parts that make a graph are its parts. -/
lemma ofParts_eq_ok {nodes : List Node} {edges : List Edge} {name : String} {g : Graph}
    (h : Graph.ofParts nodes edges name = .ok g) :
    g.nodes = nodes ∧ g.edges = edges ∧ g.name = name := by
  unfold Graph.ofParts at h
  split_ifs at h
  cases h
  exact ⟨rfl, rfl, rfl⟩

/-- A value is loaded as its document is, if it has one. -/
lemma Graph.outcome_ofJson_of_check {strict : Bool} {v : Json} {d : Document}
    (h : (check strict v).outcome = .ok d) :
    (Graph.ofJson strict v).outcome = d.load.outcome := by
  simp only [Graph.ofJson, Audited.outcome_bind, Audited.mapError, h]
  rfl

/-- A value that is loaded has a document. -/
lemma Graph.exists_check_of_ofJson {strict : Bool} {v : Json} {g : Graph}
    (h : (Graph.ofJson strict v).outcome = .ok g) :
    ∃ d, (check strict v).outcome = .ok d := by
  simp only [Graph.ofJson, Audited.outcome_bind_eq_ok, Audited.outcome_mapError_eq_ok] at h
  obtain ⟨d, hcheck, -⟩ := h
  exact ⟨d, hcheck⟩

/-- **A loaded graph is loadable.** -/
lemma Graph.loadable_of_ofJson {strict : Bool} {v : Json} {g : Graph}
    (h : (Graph.ofJson strict v).outcome = .ok g) :
    g.Loadable := by
  simp only [Graph.ofJson, Document.check, load, Audited.outcome_bind_eq_ok,
    Audited.outcome_mapError_eq_ok, Audited.outcome_lift, Audited.outcome_pure, mapError_eq_ok,
    Except.ok.injEq] at h
  obtain ⟨d, ⟨⟨name, vs, us⟩, -, ns, hns, es, hes, rfl⟩, nodes, hnodes, -, -, hparts⟩ := h
  obtain ⟨hgnodes, hgedges, hgname⟩ := ofParts_eq_ok hparts
  refine ⟨?_, ?_, ?_⟩
  · rw [hgname]
    exact nonempty?_getD_ne_empty (by decide)
  · intro n hn
    rw [hgnodes] at hn
    obtain ⟨e, -, -, hload⟩ := exists_of_mem_loadNodes hnodes hn
    exact (loadable_of_loadNode hload).2.2.2
  · intro edge hedge
    rw [hgedges] at hedge
    obtain ⟨e, he, hsome⟩ := List.mem_filterMap.mp hedge
    have hload : loadEdge nodes e = .ok edge := by
      cases hx : loadEdge nodes e with
      | error => simp [hx, Except.toOption] at hsome
      | ok edge' => simpa [hx, Except.toOption] using hsome
    obtain ⟨hid, hsource, htarget, ⟨m, hm, hsourcePort⟩, n, hn, htargetPort⟩ := of_loadEdge hload
    obtain ⟨i, hcheck⟩ := exists_checkEnd_of_mem hes he
    refine ⟨hid, ne_empty_of_given_or_default hsourcePort, ne_empty_of_given_or_default htargetPort,
      ⟨m, ?_, ?_⟩, n, ?_, exists_hasPort_input _ _ _⟩
    · rw [Graph.node?, hgnodes, hsource, hm]
    · exact exists_hasPort_source (nodup_of_checkNodes hns).1 hnodes hcheck hm hsourcePort
    · rw [Graph.node?, hgnodes, htarget, hn]

/-! ## Interfaces -/

namespace Interface

/-- The node of an element is loadable. -/
lemma loadable_toNode {e : Element} (he : e.id ≠ "") (index : Nat) : (e.toNode index).Loadable where
  customName := rfl
  variableName := nonempty?_eq_some.mpr ⟨rfl, he⟩
  cases := by simp [Element.toNode]
  x := loadCoordinate_float Binary64.eq_zero_of_isZero_ofNat
  y := loadCoordinate_float Binary64.eq_zero_of_isZero_ofNat

end Interface

/-- **An imported graph is loadable.** -/
lemma Graph.loadable_of_ofInterface {v : Json} {name : String} (hname : name ≠ "") {g : Graph}
    (h : (Graph.ofInterface v name).outcome = .ok g) : g.Loadable := by
  simp only [Graph.ofInterface, Audited.outcome_bind_eq_ok, Audited.outcome_lift,
    mapError_eq_ok] at h
  obtain ⟨elements, helements, -, -, hparts⟩ := h
  obtain ⟨hnodes, hedges, hgname⟩ := ofParts_eq_ok hparts
  have hids : ∀ e ∈ elements, e.id ≠ "" := by
    intro e he
    obtain ⟨items, -, hitems⟩ := Interface.read_eq_ok_iff.mp helements
    obtain ⟨v, -, hv⟩ :=
      exists_of_forall₂_of_mem_right (Interface.readElements_eq_ok_iff.mp hitems).1 he
    exact hv.id_ne
  refine ⟨hgname ▸ hname, ?_, ?_⟩
  · intro n hn
    rw [hnodes] at hn
    obtain ⟨i, hi, rfl⟩ := List.mem_mapIdx.mp hn
    exact Interface.loadable_toNode (hids _ (List.getElem_mem hi)) i
  · rw [hedges]
    simp

end LogicGraph
