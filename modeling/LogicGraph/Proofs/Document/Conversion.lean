import LogicGraph.Proofs.Document.Endings

set_option relaxedAutoImplicit false
set_option autoImplicit false

/-!
# What loading cannot convert

A document that passes its check is loaded: its nodes of known kind become nodes of a graph. Two
conversions of the values are not covered by the check. The value of a case becomes a text, which
fails for integers with too many digits, and a coordinate becomes a double, which fails for integers
beyond the doubles. This module says in terms of the document when this happens and which failure
comes first, and that nothing else fails. In particular the ids of nodes and cases are distinct,
whatever is left out.

## Main definitions

* `LogicGraph.Document.HasLongCase`, `LogicGraph.Document.HasHugeCoordinate` — what cannot be
  converted in a node.
* `LogicGraph.Document.CannotLoad` — why a node is not loaded.

## Main results

* `LogicGraph.Document.exists_ofJson_iff_of_check` — when a checked document is loaded, and which
  failure there is otherwise.
* `LogicGraph.Document.not_loaded_hugeCoordinate` — a document that passes a strict check and is not
  loaded.
-/

namespace LogicGraph.Document

/-- The node has a case with an integer in its value that has too many digits to be written. -/
def HasLongCase (u : Json) : Prop :=
  ∃ data ∈ u.field? "data", ∃ cs ∈ data.list? "cases", ∃ c ∈ cs, ∃ w ∈ c.field? "value",
    w.isWritable = false

/-- The node has a coordinate that is an integer beyond the doubles. -/
def HasHugeCoordinate (u : Json) : Prop :=
  ∃ position ∈ u.field? "position", ∃ key ∈ ["x", "y"], ∃ i, position.field? key = some (.int i) ∧
    Binary64.overflow ≤ i.natAbs

/-- Why a node is not loaded. A node of unknown kind is left out, and the cases of a node are
converted before its position. -/
inductive CannotLoad (u : Json) : LoadError → Prop
  /-- The value of a case cannot be written. -/
  | longInteger {k : Kind} (hkind : HasText u "type" k.wire) (h : HasLongCase u) :
      CannotLoad u .longInteger
  /-- A coordinate has no double. -/
  | hugeCoordinate {k : Kind} (hkind : HasText u "type" k.wire) (hcases : ¬ HasLongCase u)
      (h : HasHugeCoordinate u) :
      CannotLoad u .hugeCoordinate

/-! ## Nodes of the document and their entries -/

section

variable {part : Part} {fields inner : Fields} {key : String}

/-- What is said of an object that may be absent is said of the object in the document, if it is not
true of an empty one. -/
lemma exists_field?_iff_of_optionalObject {P : Json → Prop} (hempty : ¬ P (.object []))
    (h : optionalObject part fields key = .ok inner) :
    (∃ w ∈ (Json.object fields).field? key, P w) ↔ P (.object inner) := by
  show (∃ w ∈ Json.lookup fields key, P w) ↔ _
  rcases optionalObject_eq_ok_iff.mp h with ⟨habsent, rfl⟩ | hlookup
  · simp [habsent, hempty]
  · simp [hlookup]

/-- The list of cases is the one that the check takes from the data. -/
lemma exists_list?_iff_of_caseList {P : Json → Prop} {i : Nat} {items : List Json}
    (h : caseList i inner = .ok items) :
    (∃ cs ∈ (Json.object inner).list? "cases", ∃ c ∈ cs, P c) ↔ ∃ c ∈ items, P c := by
  simp only [Option.mem_def, Json.list?_eq_some_iff]
  show (∃ cs, Json.lookup inner "cases" = some (.array cs) ∧ _) ↔ _
  rcases caseList_eq_ok_iff.mp h with hlookup | ⟨rfl, hempty⟩
  · simp [hlookup]
  · simp only [List.not_mem_nil, false_and, exists_false, iff_false]
    rintro ⟨cs, hcs, c, hc, -⟩
    obtain rfl : cs = [] := by simpa [Json.isTruthy] using hempty _ hcs
    cases hc

/-- An integer under a key is one that is given. -/
lemma lookup_eq_int_iff {i : Int} :
    Json.lookup fields key = some (.int i) ↔ Json.given? fields key = some (.int i) := by
  unfold Json.given?
  split <;> simp_all [Json.int]

/-- A coordinate is beyond the doubles exactly if it is an integer from `Binary64.overflow` on, of
either sign. -/
lemma exists_int_iff_beyondDoubles {n : Option Number}
    (h : optionalNumber part fields key = .ok n) :
    (∃ i, (Json.object fields).field? key = some (.int i) ∧ Binary64.overflow ≤ i.natAbs) ↔
      BeyondDoubles n := by
  show (∃ i, Json.lookup fields key = some (.int i) ∧ _) ↔ _
  simp only [lookup_eq_int_iff, optionalNumber_eq_ok_iff.mp h, BeyondDoubles]
  constructor
  · rintro ⟨i, hi, hhuge⟩
    obtain ⟨m, rfl, hm⟩ := Option.map_eq_some_iff.mp hi
    cases hm
    exact ⟨.int i, rfl, Binary64.ofInt?_eq_none_iff.mpr hhuge⟩
  · rintro ⟨m, rfl, hm⟩
    cases m with
    | int i => exact ⟨i, rfl, Binary64.ofInt?_eq_none_iff.mp hm⟩
    | float x => cases hm

end

section

variable {i : Nat} {seen : List String} {u : Json} {e : NodeEntry}

/-- A node has a case that is too long exactly if the entry that is read from it has one. -/
lemma hasLongCase_iff_of_readNode (h : readNode i seen u = .ok e) :
    HasLongCase u ↔ ∃ c ∈ e.cases, c.value.isWritable = false := by
  obtain ⟨fields, data, position, rfl, hreads⟩ := readNode_eq_ok_iff.mp h
  obtain ⟨items, hitems, hcases⟩ := hreads.cases
  -- A case without a value has null for it, which can be written.
  have hvalue : ∀ c : Json, (∃ w ∈ c.field? "value", w.isWritable = false) ↔
      ¬ ((c.field? "value").getD .null).isWritable = true := by
    intro c
    cases c.field? "value" <;> simp [Json.isWritable]
  have hentries := not_congr (forall_value_iff_of_readCases hcases fun w => w.isWritable = true)
  have hempty : ¬ ∃ cs ∈ (Json.object []).list? "cases", ∃ c ∈ cs, ∃ w ∈ c.field? "value",
      w.isWritable = false := by
    rintro ⟨cs, hcs, -⟩
    cases hcs
  rw [HasLongCase, exists_field?_iff_of_optionalObject hempty hreads.dataFields,
    exists_list?_iff_of_caseList hitems]
  simp only [hvalue]
  simpa using hentries.symm

/-- A node has a huge coordinate exactly if the entry that is read from it is far off. -/
lemma hasHugeCoordinate_iff_of_readNode (h : readNode i seen u = .ok e) :
    HasHugeCoordinate u ↔ e.IsFarOff := by
  obtain ⟨fields, data, position, rfl, hreads⟩ := readNode_eq_ok_iff.mp h
  have hempty : ¬ ∃ key ∈ ["x", "y"], ∃ i, (Json.object []).field? key = some (.int i) ∧
      Binary64.overflow ≤ i.natAbs := by
    rintro ⟨key, -, i, hi, -⟩
    cases hi
  rw [HasHugeCoordinate, exists_field?_iff_of_optionalObject hempty hreads.positionFields]
  simp only [List.exists_mem_cons_iff, List.not_mem_nil, false_and, exists_false, or_false,
    exists_int_iff_beyondDoubles hreads.x, exists_int_iff_beyondDoubles hreads.y]
  rfl

/-- A node is not loaded exactly if its entry stops loading, and for the same reason. -/
lemma cannotLoad_iff_of_readNode (h : readNode i seen u = .ok e) (x : LoadError) :
    CannotLoad u x ↔ e.StopsLoading x := by
  have hkind : ∀ k : Kind, HasText u "type" k.wire ↔ e.kind? = some k := by
    obtain ⟨fields, data, position, rfl, hreads⟩ := readNode_eq_ok_iff.mp h
    intro k
    show Json.lookup fields "type" = _ ↔ _
    rw [kind?_eq_some_iff, hreads.typeName]
    simp
  have hlong := hasLongCase_iff_of_readNode h
  have hhuge := hasHugeCoordinate_iff_of_readNode h
  constructor
  · rintro (⟨htype, hcase⟩ | ⟨htype, hcases, hcoordinate⟩)
    · exact ⟨⟨_, (hkind _).mp htype⟩, .longInteger (hlong.mp hcase)⟩
    · refine ⟨⟨_, (hkind _).mp htype⟩, .hugeCoordinate ?_ (hhuge.mp hcoordinate)⟩
      simpa [hlong] using hcases
  · rintro ⟨⟨k, hk⟩, hcase | ⟨hcases, hfar⟩⟩
    · exact .longInteger ((hkind k).mpr hk) (hlong.mpr hcase)
    · refine .hugeCoordinate ((hkind k).mpr hk) ?_ (hhuge.mpr hfar)
      simpa [hlong] using hcases

end

/-! ## Loading what passes its check -/

/-- **How a document that passes its check fails to be loaded.** -/
lemma outcome_ofJson_eq_error_iff {strict : Bool} {v : Json} {d : Document} {us : List Json}
    {x : LoadError} (h : (check strict v).outcome = .ok d) (hus : v.list? "nodes" = some us) :
    (Graph.ofJson strict v).outcome = .error x ↔ FirstFault CannotLoad us x := by
  obtain ⟨us', hus', hread, -⟩ := nodes_of_check h
  cases hus.symm.trans (Json.list?_eq_some_iff.mpr hus')
  have hfaults :
      List.Forall₂ (fun u e => ∀ x, CannotLoad u x ↔ NodeEntry.StopsLoading e x) us d.nodes :=
    hread.imp fun u e ⟨_, _, he⟩ => cannotLoad_iff_of_readNode he
  rw [Graph.outcome_ofJson_of_check h, outcome_load_eq_error_iff h, firstFault_congr hfaults]

/-- **When a document that passes its check is loaded.** It is loaded exactly if nothing in its
nodes of known kind resists conversion: no case with an overlong integer in its value, and no
integer beyond the doubles for a coordinate. Otherwise the first node that cannot be loaded decides
over the failure, and there is no other one. -/
theorem exists_ofJson_iff_of_check {strict : Bool} {v : Json} {d : Document}
    (h : (check strict v).outcome = .ok d) :
    ∃ us, v.list? "nodes" = some us ∧
      ((∃ g, (Graph.ofJson strict v).outcome = .ok g) ↔ ∀ u ∈ us, ∀ x, ¬ CannotLoad u x) ∧
      ∀ x, (Graph.ofJson strict v).outcome = .error x ↔ FirstFault CannotLoad us x := by
  obtain ⟨us, hus, -⟩ := nodes_of_check h
  replace hus : v.list? "nodes" = some us := Json.list?_eq_some_iff.mpr hus
  refine ⟨us, hus, ?_, fun x => outcome_ofJson_eq_error_iff h hus⟩
  calc (∃ g, (Graph.ofJson strict v).outcome = .ok g)
      ↔ ¬ ∃ x, (Graph.ofJson strict v).outcome = .error x := by
        cases (Graph.ofJson strict v).outcome <;> simp
    _ ↔ ¬ ∃ x, FirstFault CannotLoad us x := by simp only [outcome_ofJson_eq_error_iff h hus]
    _ ↔ ∀ u ∈ us, ∀ x, ¬ CannotLoad u x := by rw [exists_firstFault_iff]; simp

/-- A document with a case whose value is a list, and with a node of unknown kind whose position is
beyond the doubles. -/
def convertibleDocument : Json :=
  .object [
    ("nodes", .array [
      .object [("id", .string "t"), ("type", .string "teleporter"),
        ("position", .object [("x", .int (Nat.pow 10 400))])],
      .object [
        ("id", .string "b"), ("type", .string "if_else"),
        ("data", .object [
          ("cases",
            .array [.object [("id", .string "c"), ("value", .array [.bool true, .null])]])])]]),
    ("edges", .array [])]

/-- In `convertibleDocument` nothing resists conversion, as the position of the node that is left
out does not matter. -/
theorem exists_ofJson_convertibleDocument :
    (∃ d, (check false convertibleDocument).outcome = .ok d) ∧
    ∃ us, convertibleDocument.list? "nodes" = some us ∧ ∀ u ∈ us, ∀ x, ¬ CannotLoad u x := by
  obtain ⟨d, hd⟩ : ∃ d, (check false convertibleDocument).outcome = .ok d := ⟨_, rfl⟩
  have hloads : ∃ g, (Graph.ofJson false convertibleDocument).outcome = .ok g := ⟨_, rfl⟩
  obtain ⟨us, hus, hiff, -⟩ := exists_ofJson_iff_of_check hd
  exact ⟨⟨d, hd⟩, us, hus, hiff.mp hloads⟩

/-- A document with a node whose position is beyond the doubles. -/
def hugeCoordinateDocument : Json :=
  .object [
    ("nodes", .array [
      .object [("id", .string "m"), ("type", .string "math"),
        ("position", .object [("x", .int (Nat.pow 10 400))])]]),
    ("edges", .array [])]

/-- **A document that passes a strict check and is not loaded.** -/
theorem not_loaded_hugeCoordinate :
    (∃ d, (check true hugeCoordinateDocument).outcome = .ok d) ∧
    (Graph.ofJson true hugeCoordinateDocument).outcome = .error .hugeCoordinate := by
  obtain ⟨d, hd⟩ : ∃ d, (check true hugeCoordinateDocument).outcome = .ok d := ⟨_, rfl⟩
  refine ⟨⟨d, hd⟩, (outcome_ofJson_eq_error_iff hd rfl).mpr ⟨[], _, [], rfl, by simp, ?_⟩⟩
  refine .hugeCoordinate (k := .math) rfl ?_ ⟨_, rfl, "x", by simp, _, rfl, ?_⟩
  · rintro ⟨data, hdata, -⟩
    cases hdata
  · decide +kernel

end LogicGraph.Document
