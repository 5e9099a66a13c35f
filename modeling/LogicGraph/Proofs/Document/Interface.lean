import Mathlib.Data.List.Nodup
import LogicGraph.Document.Interface
import LogicGraph.Proofs.Document.Format
import LogicGraph.Proofs.Number.Binary64

set_option relaxedAutoImplicit false
set_option autoImplicit false

/-!
# Importing interfaces

The format of an interface description as a predicate on values. A description of the format always
gives a graph, and any other value none: the ids of its elements are checked before there is a
graph, so that building the graph cannot fail any more. The nodes are those of the elements in
order, on distinct places of the grid.

## Main definitions

* `LogicGraph.Interface.ElementFormed`, `LogicGraph.Interface.WellFormed` — the format of elements
  and of descriptions.
* `LogicGraph.Interface.ReadsElement` — what an element says, and what is read of it.
* `LogicGraph.Interface.gridPoint` — the exact coordinates of a place on the grid.

## Main results

* `LogicGraph.Interface.readElement_eq_ok_iff`, `LogicGraph.Interface.readElements_eq_ok_iff` — when
  elements are read, and as what.
* `LogicGraph.Interface.exists_read_iff` — a description is read exactly if it is of the format.
* `LogicGraph.Graph.outcome_ofInterface` — when a description gives a graph, and which.

## Design

A position holds doubles. The points of the grid are natural numbers and distinct without a bound;
as long as they have at most 53 bits the doubles are these very numbers, and so the positions are
distinct as well.
-/

namespace LogicGraph

namespace Json

/-- Whether a value is a text that is not empty. -/
def isWord : Json → Bool
  | .string s => s != ""
  | _ => false

/-- A word is a string that is not empty. -/
lemma isWord_iff {v : Json} : v.isWord = true ↔ ∃ s, s ≠ "" ∧ v = string s := by
  cases v <;> simp [isWord]

end Json

namespace Interface

open Document

/-! ## The format -/

/-- The format of an element. -/
@[mk_iff]
structure ElementFormed (v : Json) : Prop where
  /-- An element is an object. -/
  object : v.isObject = true
  /-- It has an id, which is not empty. -/
  id : Requires v Json.isWord "id"
  /-- It has a type, known or not, which is not empty. -/
  type : Requires v Json.isWord "type"
  /-- It may say what it is for. -/
  purpose : Admits v Json.isText "purpose"

/-- It is decidable whether an element is formed as it should be. -/
instance : DecidablePred ElementFormed :=
  fun v => decidable_of_iff _ (elementFormed_iff v).symm

/-- **The format of interface descriptions.** -/
@[mk_iff]
structure WellFormed (v : Json) : Prop where
  /-- A description is an object. -/
  object : v.isObject = true
  /-- It has a list of elements with distinct ids. -/
  elements : ∃ items ∈ v.list? "elements", DistinctlyFormed ElementFormed items

/-- It is decidable whether a value describes an interface. -/
instance : DecidablePred WellFormed :=
  fun v => decidable_of_iff _ (wellFormed_iff v).symm

/-! ## What is read -/

/-- What an element says, and what is read of it. -/
structure ReadsElement (v : Json) (e : Element) : Prop where
  /-- The id. -/
  id : HasText v "id" e.id
  /-- The id is not empty. -/
  id_ne : e.id ≠ ""
  /-- The type. -/
  typeName : HasText v "type" e.typeName
  /-- The type is not empty. -/
  typeName_ne : e.typeName ≠ ""
  /-- What the element is for. -/
  purpose : ∃ fields, v = .object fields ∧ Json.given? fields "purpose" = e.purpose.map .string

section

variable {part : Part} {fields : Fields} {key : String} {i : Nat} {seen : List String} {v : Json}
  {vs : List Json} {e : Element}
  {es : List Element}

/-- A text that is required is one that is there and not empty. -/
lemma requiredText_eq_ok_iff {s : String} :
    requiredText part fields key = .ok s ↔ Json.lookup fields key = some (.string s) ∧ s ≠ "" := by
  unfold requiredText
  split
  · rename_i t ht
    rw [ht]
    split_ifs with hempty
    · simp [hempty]
    · simp only [Except.ok.injEq, Option.some.injEq, Json.string.injEq]
      exact ⟨fun h => ⟨h, h ▸ hempty⟩, And.left⟩
  · rename_i hno
    simp only [reduceCtorEq, false_iff, not_and]
    exact fun h => absurd h (hno s)

/-- **When an element is read, and as what.** -/
lemma readElement_eq_ok_iff : readElement i seen v = .ok e ↔ ReadsElement v e ∧ e.id ∉ seen := by
  cases v with
  | object fields =>
    have hread : readElement i seen (.object fields) = (do
        let id ← requiredText (.element i) fields "id"
        let typeName ← requiredText (.element i) fields "type"
        if id ∈ seen then throw (.repeatedId (.element i) id)
        let purpose ← optionalText (.element i) fields "purpose"
        return { id, typeName, purpose }) := by
      simp only [readElement, optionalText]
      rcases Json.given? fields "purpose" with _ | w
      · rfl
      · cases w <;> rfl
    simp only [hread, bind_eq_ok (x := requiredText _ _ _), requiredText_eq_ok_iff]
    constructor
    · rintro ⟨id, ⟨hid, hidne⟩, typeName, ⟨htype, htypene⟩, h⟩
      split_ifs at h with hmem
      · rw [bind_eq_ok] at h
        obtain ⟨_, hthrow, -⟩ := h
        cases hthrow
      · simp only [bind_eq_ok, optionalText_eq_ok_iff, pure, Except.pure, Except.ok.injEq] at h
        obtain ⟨purpose, hpurpose, rfl⟩ := h
        exact ⟨⟨hid, hidne, htype, htypene, fields, rfl, hpurpose⟩, hmem⟩
    · rintro ⟨⟨hid, hidne, htype, htypene, _, ⟨⟩, hpurpose⟩, hmem⟩
      refine ⟨_, ⟨hid, hidne⟩, _, ⟨htype, htypene⟩, ?_⟩
      rw [if_neg hmem, optionalText_eq_ok_iff.mpr hpurpose]
      rfl
  | _ =>
    refine iff_of_false (by rintro ⟨⟩) ?_
    rintro ⟨h, -⟩
    cases h.id

/-- **When elements are read, and as what.** Their ids are distinct, and distinct from those
before. -/
lemma readElements_eq_ok_iff :
    readElements i seen vs = .ok es ↔
      List.Forall₂ ReadsElement vs es ∧ (es.map Element.id).Nodup ∧ ∀ e ∈ es, e.id ∉ seen := by
  induction vs generalizing i seen es with
  | nil =>
    rw [readElements, Except.ok.injEq, List.forall₂_nil_left_iff]
    constructor
    · rintro rfl
      simp
    · rintro ⟨rfl, -⟩
      rfl
  | cons v rest ih =>
    simp only [readElements, bind_eq_ok, readElement_eq_ok_iff, ih, pure, Except.pure,
      Except.ok.injEq, List.forall₂_cons_left_iff]
    constructor
    · rintro ⟨e, ⟨he, hfresh⟩, es, ⟨hes, hnodup, hseen⟩, rfl⟩
      refine ⟨⟨e, es, he, hes, rfl⟩, ?_, ?_⟩
      · rw [List.map_cons, List.nodup_cons, List.mem_map]
        refine ⟨?_, hnodup⟩
        rintro ⟨e', he', heq⟩
        exact hseen e' he' (heq ▸ List.mem_cons_self)
      · rw [List.forall_mem_cons]
        exact ⟨hfresh, fun e' he' hmem => hseen e' he' (List.mem_cons_of_mem _ hmem)⟩
    · rintro ⟨⟨e, es, he, hes, rfl⟩, hnodup, hseen⟩
      rw [List.map_cons, List.nodup_cons] at hnodup
      rw [List.forall_mem_cons] at hseen
      refine ⟨e, ⟨he, hseen.1⟩, es, ⟨hes, hnodup.2, ?_⟩, rfl⟩
      intro e' he' hmem
      rcases List.mem_cons.mp hmem with heq | hmem
      · exact hnodup.1 (heq ▸ List.mem_map_of_mem he')
      · exact hseen.2 e' he' hmem

/-- A field that is required to be a text, and not an empty one, has one such text. -/
lemma requires_isWord_iff : Requires v Json.isWord key ↔ ∃ s, s ≠ "" ∧ HasText v key s := by
  simp only [Requires, Json.isWord_iff, HasText, Option.mem_def]
  constructor
  · rintro ⟨_, hfield, s, hs, rfl⟩
    exact ⟨s, hs, hfield⟩
  · rintro ⟨s, hs, hfield⟩
    exact ⟨_, hfield, s, hs, rfl⟩

/-- An element can be read exactly if it is of the format. -/
lemma exists_readsElement_iff : (∃ e, ReadsElement v e) ↔ ElementFormed v := by
  constructor
  · rintro ⟨e, h⟩
    obtain ⟨fields, rfl, hpurpose⟩ := h.purpose
    exact ⟨rfl, requires_isWord_iff.mpr ⟨_, h.id_ne, h.id⟩,
      requires_isWord_iff.mpr ⟨_, h.typeName_ne, h.typeName⟩,
      (exists_given?_iff fun _ => Json.isText_iff).mp ⟨_, hpurpose⟩⟩
  · intro h
    obtain ⟨fields, rfl⟩ := Json.isObject_iff.mp h.object
    obtain ⟨id, hidne, hid⟩ := requires_isWord_iff.mp h.id
    obtain ⟨typeName, htypene, htype⟩ := requires_isWord_iff.mp h.type
    obtain ⟨purpose, hpurpose⟩ := (exists_given?_iff fun _ => Json.isText_iff).mpr h.purpose
    exact ⟨⟨id, typeName, purpose⟩, hid, hidne, htype, htypene, fields, rfl, hpurpose⟩

/-- The ids of the elements that are read are those of the description. -/
lemma map_id_of_forall₂_readsElement (h : List.Forall₂ ReadsElement vs es) :
    vs.map (·.field? "id") = (es.map Element.id).map fun id => some (.string id) := by
  induction h with
  | nil => rfl
  | cons hv _ ih =>
    rw [List.map_cons, List.map_cons, List.map_cons, ih]
    exact congrArg (· :: _) hv.id

/-- **Elements are read exactly if they are of the format and have distinct ids.** -/
lemma exists_readElements_iff :
    (∃ es, readElements i [] vs = .ok es) ↔ DistinctlyFormed ElementFormed vs := by
  have hinjective : Function.Injective fun id : String => some (Json.string id) := by
    intro s t h
    simpa using h
  simp only [readElements_eq_ok_iff, List.not_mem_nil, not_false_eq_true, implies_true, and_true,
    DistinctlyFormed]
  constructor
  · rintro ⟨es, hes, hnodup⟩
    refine ⟨?_, ?_⟩
    · intro v hv
      obtain ⟨e, -, he⟩ := exists_of_forall₂_of_mem_left hes hv
      exact exists_readsElement_iff.mp ⟨e, he⟩
    · rw [map_id_of_forall₂_readsElement hes]
      exact hnodup.map hinjective
  · rintro ⟨hforms, hnodup⟩
    obtain ⟨es, hes⟩ := exists_forall₂ fun v hv => exists_readsElement_iff.mpr (hforms v hv)
    rw [map_id_of_forall₂_readsElement hes] at hnodup
    exact ⟨es, hes, hnodup.of_map _⟩

/-- A description is read through the list of its elements. -/
lemma read_eq_ok_iff :
    read v = .ok es ↔ ∃ items ∈ v.list? "elements", readElements 0 [] items = .ok es := by
  simp only [Option.mem_def, Json.list?_eq_some_iff]
  unfold read
  split
  · rename_i items hitems
    rw [hitems]
    simp
  · rename_i hno
    refine iff_of_false (by rintro ⟨⟩) ?_
    rintro ⟨items, hitems, -⟩
    exact hno items hitems

/-- **A description is read exactly if it is of the format.** -/
lemma exists_read_iff : (∃ es, read v = .ok es) ↔ WellFormed v := by
  simp only [read_eq_ok_iff]
  constructor
  · rintro ⟨es, items, hitems, hes⟩
    refine ⟨?_, items, hitems, exists_readElements_iff.mp ⟨es, hes⟩⟩
    cases v with
    | object => rfl
    | _ => cases hitems
  · rintro ⟨-, items, hitems, hforms⟩
    obtain ⟨es, hes⟩ := exists_readElements_iff.mpr hforms
    exact ⟨es, items, hitems, hes⟩

end

/-! ## The grid -/

/-- The exact coordinates of a place on the grid. -/
def gridPoint (i : Nat) : Nat × Nat :=
  (220 * (i % 4), 200 * (i / 4))

/-- A place on the grid is recovered from its coordinates. -/
lemma eq_of_gridPoint (i : Nat) : (gridPoint i).1 / 220 + 4 * ((gridPoint i).2 / 200) = i := by
  simp only [gridPoint]
  omega

/-- No two places on the grid have the same coordinates. -/
lemma gridPoint_injective : Function.Injective gridPoint := by
  intro i j h
  rw [← eq_of_gridPoint i, h, eq_of_gridPoint]

/-- The coordinates of the first places, one after the other. -/
lemma gridPoint_of_getElem? {k i : Nat} {p : Nat × Nat}
    (h : ((List.range k).map gridPoint)[i]? = some p) :
    i < k ∧ gridPoint i = p := by
  obtain ⟨hi, rfl⟩ := List.getElem?_eq_some_iff.mp h
  rw [List.length_map, List.length_range] at hi
  exact ⟨hi, by simp⟩

/-- The doubles at a place on the grid are those nearest to its coordinates. -/
lemma gridPosition_eq (i : Nat) :
    gridPosition i = ⟨.float (.ofNat (gridPoint i).1), .float (.ofNat (gridPoint i).2)⟩ := by
  have hcolumn : ((i : Int) % (4 : Nat)).toNat * 220 = 220 * (i % 4) := by omega
  have hrow : ((i : Int) / (4 : Nat)).toNat * 200 = 200 * (i / 4) := by omega
  simp only [gridPosition, gridCell, gridColumns, cellWidth, cellHeight, hcolumn, hrow, gridPoint]

/-- As long as the coordinates have at most 53 bits, the doubles at a place on the grid are its
coordinates. -/
lemma sameAs_gridPosition {i : Nat} (h : (gridPoint i).2 < Binary64.exactLimit) :
    Number.sameAs (.int (gridPoint i).1) (gridPosition i).x = true ∧
      Number.sameAs (.int (gridPoint i).2) (gridPosition i).y = true := by
  have hcolumn : (gridPoint i).1 < Binary64.exactLimit := by
    have hwide : 220 * 4 < Binary64.exactLimit := by decide
    simp only [gridPoint]
    omega
  rw [gridPosition_eq]
  exact ⟨Binary64.equalsInt_ofNat hcolumn, Binary64.equalsInt_ofNat h⟩

/-- As long as the coordinates have at most 53 bits, no two places on the grid have the same
doubles. -/
lemma eq_of_gridPosition_eq {i j : Nat} (hi : (gridPoint i).2 < Binary64.exactLimit)
    (hj : (gridPoint j).2 < Binary64.exactLimit) (h : gridPosition i = gridPosition j) : i = j := by
  obtain ⟨hix, hiy⟩ := sameAs_gridPosition hi
  obtain ⟨hjx, hjy⟩ := sameAs_gridPosition hj
  rw [h] at hix hiy
  rw [gridPosition_eq j] at hix hiy hjx hjy
  have hx := Binary64.eq_of_equalsInt hix hjx
  have hy := Binary64.eq_of_equalsInt hiy hjy
  exact gridPoint_injective (Prod.ext (Int.ofNat_inj.mp hx) (Int.ofNat_inj.mp hy))

end Interface

/-! ## The graph of a description -/

namespace Graph

open Document Interface

variable {v : Json} {es : List Element}

/-- The elements of a description that is read are all that it takes for a graph. -/
lemma ofInterface_of_read (h : Interface.read v = .ok es) (name : String) :
    ∃ g, (ofInterface v name).outcome = .ok g ∧ g.nodes = es.mapIdx (fun i e => e.toNode i) ∧
      g.edges = [] ∧ g.name = name := by
  obtain ⟨items, -, hitems⟩ := read_eq_ok_iff.mp h
  have hids : (es.mapIdx fun i e => e.toNode i).map Node.id = es.map Element.id := by
    apply List.ext_getElem
    · simp
    · simp [Element.toNode]
  have hnodup : ((es.mapIdx fun i e => e.toNode i).map Node.id).Nodup := by
    rw [hids]
    exact (readElements_eq_ok_iff.mp hitems).2.1
  have hparts : Graph.ofParts (es.mapIdx fun i e => e.toNode i) [] name =
      .ok { nodes := es.mapIdx fun i e => e.toNode i, edges := [], name, nodes_nodup := hnodup } :=
        dif_pos hnodup
  refine ⟨{ nodes := es.mapIdx fun i e => e.toNode i, edges := [], name, nodes_nodup := hnodup },
    ?_, rfl, rfl, rfl⟩
  rw [ofInterface, h]
  show (Audited.report _ >>= fun _ => Audited.lift ((Graph.ofParts _ _ _).mapError _)).outcome = _
  rw [Audited.outcome_report_bind, hparts]
  rfl

/-- If a description cannot be read, then this is the error. -/
lemma outcome_ofInterface_of_read_eq_error {e : SchemaError} (h : Interface.read v = .error e)
    (name : String) :
    (ofInterface v name).outcome = .error (.schema e) := by
  rw [ofInterface, h]
  rfl

/-- The node of an element has its id. -/
lemma forall₂_id_mapIdx {items : List Json} (h : List.Forall₂ ReadsElement items es) :
    List.Forall₂ (fun u n => HasText u "id" n.id) items (es.mapIdx fun i e => e.toNode i) := by
  rw [List.forall₂_iff_get] at h ⊢
  refine ⟨h.1.trans List.length_mapIdx.symm, ?_⟩
  intro i hi hi'
  rw [List.length_mapIdx] at hi'
  simpa [Element.toNode] using (h.2 i hi hi').id

/-- The nodes stand on the grid in order. -/
lemma map_position_mapIdx (es : List Element) :
    (es.mapIdx fun i e => e.toNode i).map Node.position =
      (List.range es.length).map gridPosition := by
  apply List.ext_getElem
  · simp
  · simp [Element.toNode]

/-- As long as the coordinates have at most 53 bits, nodes that stand on the grid in order have
distinct positions, which are the exact coordinates. -/
lemma exact_positions {nodes : List Node} {k : Nat}
    (hplaces : nodes.map Node.position = (List.range k).map gridPosition)
    (hrow : ∀ i < k, (gridPoint i).2 < Binary64.exactLimit) :
    (nodes.map Node.position).Nodup ∧ ∀ i < k, ∀ n, nodes[i]? = some n →
      Number.sameAs (.int (gridPoint i).1) n.position.x = true ∧
      Number.sameAs (.int (gridPoint i).2) n.position.y = true := by
  constructor
  · rw [hplaces]
    refine List.Nodup.map_on ?_ List.nodup_range
    intro i hi j hj
    exact eq_of_gridPosition_eq (hrow i (List.mem_range.mp hi)) (hrow j (List.mem_range.mp hj))
  · intro i hi n hn
    have hplace := congrArg (·[i]?) hplaces
    have hposition : n.position = gridPosition i := by simpa [hn, hi] using hplace
    rw [hposition]
    exact sameAs_gridPosition (hrow i hi)

/-- **Importing a description is exact, and all or nothing.** The one way to fail is that the value
is not of the format, and a description of the format never fails. The graph has no edges, and its
nodes are those of the elements in order. Their exact coordinates are distinct and give their places
in the list; they are `220` apart in a row of four, with `200` between rows. As long as they have at
most 53 bits the positions are these very numbers, and distinct as well. -/
theorem outcome_ofInterface (v : Json) (name : String) :
    (∀ err, (ofInterface v name).outcome = .error err → ∃ e, err = .schema e) ∧
    ((∃ g, (ofInterface v name).outcome = .ok g) ↔ Interface.WellFormed v) ∧
    ∀ g, (ofInterface v name).outcome = .ok g →
      g.name = name ∧ g.edges = [] ∧
      (∃ items ∈ v.list? "elements", List.Forall₂ (fun u n => HasText u "id" n.id) items g.nodes) ∧
      ∃ points : List (Nat × Nat), points.Nodup ∧
        g.nodes.map Node.position =
          points.map (fun p => ⟨.float (.ofNat p.1), .float (.ofNat p.2)⟩) ∧
        (∀ (i : Nat) (p : Nat × Nat), points[i]? = some p →
          p.1 = 220 * (i % 4) ∧ p.2 = 200 * (i / 4) ∧ i = p.1 / 220 + 4 * (p.2 / 200)) ∧
        ((∀ p ∈ points, p.2 < Binary64.exactLimit) → (g.nodes.map Node.position).Nodup ∧
          ∀ (i : Nat) (p : Nat × Nat) (n : Node), points[i]? = some p → g.nodes[i]? = some n →
            Number.sameAs (.int p.1) n.position.x = true ∧
            Number.sameAs (.int p.2) n.position.y = true) := by
  cases hread : Interface.read v with
  | error e =>
    have hfails := outcome_ofInterface_of_read_eq_error hread name
    refine ⟨?_, ?_, ?_⟩
    · intro err herr
      exact ⟨e, (Except.error.inj (hfails.symm.trans herr)).symm⟩
    · rw [← exists_read_iff, hread, hfails]
      simp
    · intro g hg
      cases hfails.symm.trans hg
  | ok es =>
    obtain ⟨g, hg, hnodes, hedges, hname⟩ := ofInterface_of_read hread name
    refine ⟨?_, ?_, ?_⟩
    · intro err herr
      cases hg.symm.trans herr
    · exact iff_of_true ⟨g, hg⟩ (exists_read_iff.mp ⟨es, hread⟩)
    · intro g' hg'
      obtain rfl : g' = g := Except.ok.inj (hg'.symm.trans hg)
      obtain ⟨items, hitems, hes⟩ := read_eq_ok_iff.mp hread
      have hplaces : g'.nodes.map Node.position = (List.range es.length).map gridPosition := by
        rw [hnodes, map_position_mapIdx]
      refine ⟨hname, hedges,
        ⟨items, hitems, hnodes ▸ forall₂_id_mapIdx (readElements_eq_ok_iff.mp hes).1⟩,
        (List.range es.length).map gridPoint, List.nodup_range.map gridPoint_injective, ?_, ?_, ?_⟩
      · rw [hplaces, List.map_map]
        exact List.map_congr_left fun i _ => gridPosition_eq i
      · intro i p hp
        obtain rfl := (gridPoint_of_getElem? hp).2
        exact ⟨rfl, rfl, (eq_of_gridPoint i).symm⟩
      · intro hsmall
        have hrow : ∀ i < es.length, (gridPoint i).2 < Binary64.exactLimit :=
          fun i hi => hsmall _ (List.mem_map_of_mem (List.mem_range.mpr hi))
        obtain ⟨hdistinct, hexact⟩ := exact_positions hplaces hrow
        refine ⟨hdistinct, ?_⟩
        intro i p n hp hn
        obtain ⟨hi, rfl⟩ := gridPoint_of_getElem? hp
        exact hexact i hi n hn

/-- A description with five elements, the last of them in the second row. -/
def fiveElements : Json :=
  .object [("elements", .array (["go", "Go", "", " ", "0"].map fun s =>
    .object [("id", .string (s ++ "a")), ("type", .string "Data_Display"), ("purpose", .null)]))]

/-- `fiveElements` gives a graph of five nodes on distinct positions. -/
theorem outcome_ofInterface_fiveElements : Interface.WellFormed fiveElements ∧
    ∃ g, (ofInterface fiveElements "five").outcome = .ok g ∧ g.edges = [] ∧ g.nodes.length = 5 ∧
      (g.nodes.map Node.position).Nodup := by
  have hformed : Interface.WellFormed fiveElements := by decide
  obtain ⟨-, hiff, hgraph⟩ := outcome_ofInterface fiveElements "five"
  obtain ⟨g, hg⟩ := hiff.mpr hformed
  obtain ⟨-, hedges, ⟨items, hitems, hids⟩, points, -, hpositions, hpoint, hexact⟩ := hgraph g hg
  have hlength : g.nodes.length = 5 := by
    obtain rfl := Option.some.inj hitems
    exact hids.length_eq.symm
  have hsmall : ∀ p ∈ points, p.2 < Binary64.exactLimit := by
    have hlow : 200 * 4 < Binary64.exactLimit := by decide
    intro p hp
    obtain ⟨i, hi, rfl⟩ := List.getElem_of_mem hp
    have hrow := (hpoint i _ (List.getElem?_eq_getElem hi)).2.1
    have hcount := congrArg List.length hpositions
    rw [List.length_map, List.length_map, hlength] at hcount
    omega
  exact ⟨hformed, g, hg, hedges, hlength, (hexact hsmall).1⟩

end Graph

end LogicGraph
