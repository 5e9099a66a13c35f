import Mathlib.Tactic.MkIffOfInductiveProp
import LogicGraph.Proofs.Document.Entries

set_option relaxedAutoImplicit false
set_option autoImplicit false

/-!
# The format of documents

The format of a document as a predicate on values, without reading anything: which fields a part has
to have, which it may have, and of what sort they are. Some fields may be null and others may not, a
list of cases may be anything empty, and the ids of nodes and of the cases of a node are distinct.
The predicates can be decided. This module shows that what is read of a part is there exactly if the
part is of the format; how a whole check ends is shown in `LogicGraph.Proofs.Document.Endings`.

## Main definitions

* `LogicGraph.Document.Requires`, `LogicGraph.Document.Admits` — a field that has to be there, and
  one that may be there.
* `LogicGraph.Document.DistinctlyFormed` — a list of parts with distinct ids.
* `LogicGraph.Document.CaseFormed`, `LogicGraph.Document.DataFormed`,
  `LogicGraph.Document.PositionFormed`, `LogicGraph.Document.NodeFormed`,
  `LogicGraph.Document.EdgeFormed` — the format of the parts.
* `LogicGraph.Document.WellFormed` — the format of documents.

## Main results

* `LogicGraph.Document.nodeFormed_of_readNode`, `LogicGraph.Document.exists_readNode`,
  `LogicGraph.Document.exists_readEdge_iff` — a node or an edge is read exactly if it is of the
  format.
* `LogicGraph.Document.exists_checkNodes_iff` — nodes pass a check exactly if all are of the format
  and have distinct ids.
-/

namespace LogicGraph

/-! ## Sorts of values -/

namespace Json

/-- Whether a value is a text. -/
def isText : Json → Bool
  | .string _ => true
  | _ => false

/-- Whether a value is a truth value. -/
def isFlag : Json → Bool
  | .bool _ => true
  | _ => false

/-- Whether a value is a number. -/
def isNumber : Json → Bool
  | .number _ => true
  | _ => false

/-- Whether a value is an object. -/
def isObject : Json → Bool
  | .object _ => true
  | _ => false

/-- The items of a list in a field, if there is a list. -/
def list? (v : Json) (key : String) : Option (List Json) :=
  match v.field? key with
  | some (.array items) => some items
  | _ => none

/-- The values that count as texts are the strings. -/
lemma isText_iff {v : Json} : v.isText = true ↔ ∃ s, string s = v := by
  cases v <;> simp [isText]

/-- The values that count as flags are the truth values. -/
lemma isFlag_iff {v : Json} : v.isFlag = true ↔ ∃ b, bool b = v := by
  cases v <;> simp [isFlag]

/-- The values that count as numbers are the numbers. -/
lemma isNumber_iff {v : Json} : v.isNumber = true ↔ ∃ n, number n = v := by
  cases v <;> simp [isNumber]

/-- The values that count as objects are the objects. -/
lemma isObject_iff {v : Json} : v.isObject = true ↔ ∃ fields, v = object fields := by
  cases v <;> simp [isObject]

/-- A list under a key is an array under it. -/
lemma list?_eq_some_iff {v : Json} {key : String} {items : List Json} :
    v.list? key = some items ↔ v.field? key = some (.array items) := by
  unfold list?
  cases v.field? key with
  | none => simp
  | some w => cases w <;> simp

end Json

namespace Document

/-! ## The format -/

/-- A field has to be there and to be of a sort. -/
def Requires (v : Json) (sort : Json → Bool) (key : String) : Prop :=
  ∃ w ∈ v.field? key, sort w = true

/-- A field may be absent or null, and is otherwise of a sort. -/
def Admits (v : Json) (sort : Json → Bool) (key : String) : Prop :=
  ∀ w ∈ v.field? key, w = .null ∨ sort w = true

/-- The members of a list are of a form and have distinct ids. -/
def DistinctlyFormed (form : Json → Prop) (vs : List Json) : Prop :=
  (∀ v ∈ vs, form v) ∧ (vs.map (·.field? "id")).Nodup

/-- The format of a case. -/
@[mk_iff]
structure CaseFormed (v : Json) : Prop where
  /-- A case is an object. -/
  object : v.isObject = true
  /-- It has an id. -/
  id : Requires v Json.isText "id"

/-- It is decidable whether a field is there as required. -/
instance {v : Json} {sort : Json → Bool} {key : String} : Decidable (Requires v sort key) :=
  inferInstanceAs (Decidable (∃ w ∈ v.field? key, sort w = true))

/-- It is decidable whether a field is admitted. -/
instance {v : Json} {sort : Json → Bool} {key : String} : Decidable (Admits v sort key) :=
  inferInstanceAs (Decidable (∀ w ∈ v.field? key, w = .null ∨ sort w = true))

/-- It is decidable whether members are of a form and have distinct ids. -/
instance {form : Json → Prop} [DecidablePred form] {vs : List Json} :
    Decidable (DistinctlyFormed form vs) :=
  inferInstanceAs (Decidable (_ ∧ _))

/-- It is decidable whether a case is formed as it should be. -/
instance : DecidablePred CaseFormed :=
  fun v => decidable_of_iff _ (caseFormed_iff v).symm

/-- The format of the data of a node. -/
@[mk_iff]
structure DataFormed (v : Json) : Prop where
  /-- The data are an object. -/
  object : v.isObject = true
  /-- The fields of text. -/
  texts : ∀ key ∈ ["label", "customName", "variableName", "operation", "purpose"],
    Admits v Json.isText key
  /-- The fields of truth values. -/
  flags : ∀ key ∈ ["isLocked", "isBypassed", "isAction", "isObservation"], Admits v Json.isFlag key
  /-- The cases are anything empty, or a list of cases with distinct ids. -/
  cases : ∀ w ∈ v.field? "cases", w.isTruthy = false ∨
    ∃ cs ∈ v.list? "cases", DistinctlyFormed CaseFormed cs

/-- It is decidable whether data are formed as they should be. -/
instance : DecidablePred DataFormed :=
  fun v => decidable_of_iff _ (dataFormed_iff v).symm

/-- The format of the position of a node. -/
@[mk_iff]
structure PositionFormed (v : Json) : Prop where
  /-- A position is an object. -/
  object : v.isObject = true
  /-- The coordinates. -/
  coordinates : ∀ key ∈ ["x", "y"], Admits v Json.isNumber key

/-- It is decidable whether a position is formed as it should be. -/
instance : DecidablePred PositionFormed :=
  fun v => decidable_of_iff _ (positionFormed_iff v).symm

/-- The format of a node. -/
@[mk_iff]
structure NodeFormed (v : Json) : Prop where
  /-- A node is an object. -/
  object : v.isObject = true
  /-- It has an id. -/
  id : Requires v Json.isText "id"
  /-- It has a type, known or not. -/
  type : Requires v Json.isText "type"
  /-- It may have data, which are not null. -/
  data : ∀ w ∈ v.field? "data", DataFormed w
  /-- It may have a position, which is not null. -/
  position : ∀ w ∈ v.field? "position", PositionFormed w

/-- It is decidable whether a node is formed as it should be. -/
instance : DecidablePred NodeFormed :=
  fun v => decidable_of_iff _ (nodeFormed_iff v).symm

/-- The format of an edge. -/
@[mk_iff]
structure EdgeFormed (v : Json) : Prop where
  /-- An edge is an object. -/
  object : v.isObject = true
  /-- It has two ends. -/
  ends : ∀ key ∈ ["source", "target"], Requires v Json.isText key
  /-- The other fields of text. -/
  texts : ∀ key ∈ ["id", "sourceHandle", "targetHandle"], Admits v Json.isText key

/-- It is decidable whether an edge is formed as it should be. -/
instance : DecidablePred EdgeFormed :=
  fun v => decidable_of_iff _ (edgeFormed_iff v).symm

/-- **The format of documents.** -/
@[mk_iff]
structure WellFormed (v : Json) : Prop where
  /-- A document is an object. -/
  object : v.isObject = true
  /-- It may have a name. -/
  name : Admits v Json.isText "name"
  /-- It has a list of nodes with distinct ids. -/
  nodes : ∃ us ∈ v.list? "nodes", DistinctlyFormed NodeFormed us
  /-- It has a list of edges. -/
  edges : ∃ ws ∈ v.list? "edges", ∀ w ∈ ws, EdgeFormed w

/-- It is decidable whether a value has the form of a document. -/
instance : DecidablePred WellFormed :=
  fun v => decidable_of_iff _ (wellFormed_iff v).symm

/-! ## Fields -/

section

variable {part : Part} {fields : Fields} {key : String}

/-- A field that is required to be a text has one text. -/
lemma requires_isText_iff {v : Json} : Requires v Json.isText key ↔ ∃ s, HasText v key s := by
  simp only [Requires, Json.isText_iff, HasText, Option.mem_def]
  constructor
  · rintro ⟨_, hfield, s, rfl⟩
    exact ⟨s, hfield⟩
  · rintro ⟨s, hfield⟩
    exact ⟨_, hfield, s, rfl⟩

/-- A field is admitted exactly if it is of its sort wherever null is read as absent. -/
lemma admits_iff_given? {sort : Json → Bool} :
    Admits (.object fields) sort key ↔ ∀ w ∈ Json.given? fields key, sort w = true := by
  show (∀ w, Json.lookup fields key = some w → w = .null ∨ sort w = true) ↔ _
  unfold Json.given?
  cases Json.lookup fields key with
  | none => simp
  | some w => cases w <;> simp

/-- What may be absent is read exactly if the field is admitted. Values of the sort are those that
`make` gives. -/
lemma exists_given?_iff {α : Type} {sort : Json → Bool} {make : α → Json}
    (hsort : ∀ w, sort w = true ↔ ∃ a, make a = w) :
    (∃ a : Option α, Json.given? fields key = a.map make) ↔ Admits (.object fields) sort key := by
  rw [admits_iff_given?]
  cases Json.given? fields key with
  | none => exact ⟨by simp, fun _ => ⟨none, rfl⟩⟩
  | some w =>
    simp only [Option.mem_def, Option.some.injEq, forall_eq', hsort]
    constructor
    · rintro ⟨a, ha⟩
      obtain ⟨a, -, ha⟩ := Option.map_eq_some_iff.mp ha.symm
      exact ⟨a, ha⟩
    · rintro ⟨a, rfl⟩
      exact ⟨some a, rfl⟩

/-- An optional text is read exactly if the field admits one. -/
lemma exists_optionalText_iff (part : Part) :
    (∃ s, optionalText part fields key = .ok s) ↔ Admits (.object fields) Json.isText key := by
  simp only [optionalText_eq_ok_iff]
  exact exists_given?_iff fun _ => Json.isText_iff

/-- An optional flag is read exactly if the field admits one. -/
lemma exists_optionalFlag_iff (part : Part) :
    (∃ b, optionalFlag part fields key = .ok b) ↔ Admits (.object fields) Json.isFlag key := by
  simp only [optionalFlag_eq_ok_iff]
  exact exists_given?_iff fun _ => Json.isFlag_iff

/-- An optional number is read exactly if the field admits one. -/
lemma exists_optionalNumber_iff (part : Part) :
    (∃ n, optionalNumber part fields key = .ok n) ↔ Admits (.object fields) Json.isNumber key := by
  simp only [optionalNumber_eq_ok_iff]
  exact exists_given?_iff fun _ => Json.isNumber_iff

/-- An object that may be absent is read as one of a form exactly if it is of the form wherever it
is there, for a form that the empty object has. -/
lemma exists_optionalObject_iff (part : Part) {form : Json → Prop} (hempty : form (.object []))
    (hobject : ∀ {w}, form w → w.isObject = true) :
    (∃ inner, optionalObject part fields key = .ok inner ∧ form (.object inner)) ↔
      ∀ w ∈ (Json.object fields).field? key, form w := by
  simp only [optionalObject_eq_ok_iff]
  show _ ↔ ∀ w ∈ Json.lookup fields key, form w
  cases Json.lookup fields key with
  | none => simpa using hempty
  | some w =>
    simp only [reduceCtorEq, false_and, Option.some.injEq, false_or, Option.mem_def, forall_eq']
    constructor
    · rintro ⟨inner, rfl, hform⟩
      exact hform
    · intro hform
      obtain ⟨inner, rfl⟩ := Json.isObject_iff.mp (hobject hform)
      exact ⟨inner, rfl, hform⟩

end

/-! ## Lists with distinct ids -/

/-- The members of a list are of a form, and their ids are distinct and not among those seen
before. -/
def FormedAfter (form : Json → Prop) (seen : List String) (vs : List Json) : Prop :=
  DistinctlyFormed form vs ∧ ∀ v ∈ vs, ∀ id ∈ seen, ¬ HasText v "id" id

/-- With nothing seen before, values only have to differ among themselves. -/
lemma formedAfter_nil_seen {form : Json → Prop} {vs : List Json} :
    FormedAfter form [] vs ↔ DistinctlyFormed form vs := by
  simp [FormedAfter]

/-- A list is formed after some ids exactly if its first member is, and the rest is after one id
more. -/
lemma formedAfter_cons_iff {form : Json → Prop} {seen : List String} {v : Json} {rest : List Json}
    {id : String} (hid : HasText v "id" id) : FormedAfter form seen (v :: rest) ↔ form v ∧
      id ∉ seen ∧ FormedAfter form (id :: seen) rest := by
  have hv : ∀ id', HasText v "id" id' ↔ id = id' := by
    intro id'
    rw [HasText, hid, Option.some.injEq, Json.string.injEq]
  have hnew : v.field? "id" ∉ rest.map (·.field? "id") ↔ ∀ w ∈ rest, ¬ HasText w "id" id := by
    rw [hid, List.mem_map, not_exists]
    simp only [not_and, HasText]
  simp only [FormedAfter, DistinctlyFormed, List.forall_mem_cons, List.map_cons, List.nodup_cons,
    hnew, hv]
  constructor
  · rintro ⟨⟨⟨hform, hforms⟩, hdistinct, hnodup⟩, hfresh, hseen⟩
    exact ⟨hform, fun hmem => hfresh id hmem rfl, ⟨hforms, hnodup⟩,
      fun w hw => ⟨hdistinct w hw, hseen w hw⟩⟩
  · rintro ⟨hform, hfresh, ⟨hforms, hnodup⟩, hseen⟩
    exact ⟨⟨⟨hform, hforms⟩, fun w hw => (hseen w hw).1, hnodup⟩,
      fun id' hid' heq => hfresh (heq ▸ hid'), fun w hw => (hseen w hw).2⟩

/-! ## What is read -/

/-- **Cases are read exactly if they are of the format and have distinct ids.** -/
lemma exists_readCases_iff {i j : Nat} {seen : List String} {vs : List Json} :
    (∃ cs, readCases i j seen vs = .ok cs) ↔ FormedAfter CaseFormed seen vs := by
  induction vs generalizing j seen with
  | nil => simp [readCases, FormedAfter, DistinctlyFormed]
  | cons v rest ih =>
    simp only [readCases_cons_eq_ok_iff]
    constructor
    · rintro ⟨_, c, cs, hc, hfresh, hcs, -⟩
      have hform : CaseFormed v := by
        refine ⟨?_, requires_isText_iff.mpr ⟨_, hc.id⟩⟩
        cases v with
        | object => rfl
        | _ => cases hc.id
      exact (formedAfter_cons_iff hc.id).mpr ⟨hform, hfresh, ih.mp ⟨cs, hcs⟩⟩
    · intro h
      obtain ⟨id, hid⟩ := requires_isText_iff.mp (h.1.1 v List.mem_cons_self).id
      obtain ⟨-, hfresh, hrest⟩ := (formedAfter_cons_iff hid).mp h
      obtain ⟨cs, hcs⟩ := ih.mpr hrest
      exact ⟨_, ⟨id, _⟩, cs, ⟨hid, rfl⟩, hfresh, hcs, rfl⟩

/-- The cases in the data of a node are read exactly if they are of the format. -/
lemma exists_caseList_iff {i : Nat} {data : Fields} :
    (∃ items cs, caseList i data = .ok items ∧ readCases i 0 [] items = .ok cs) ↔
      ∀ w ∈ (Json.object data).field? "cases",
        w.isTruthy = false ∨
        ∃ cs ∈ (Json.object data).list? "cases", DistinctlyFormed CaseFormed cs := by
  simp only [exists_and_left, exists_readCases_iff, formedAfter_nil_seen, caseList_eq_ok_iff,
    Option.mem_def, Json.list?_eq_some_iff]
  show _ ↔ ∀ w, Json.lookup data "cases" = some w → w.isTruthy = false ∨
    ∃ cs, Json.lookup data "cases" = some (.array cs) ∧ DistinctlyFormed CaseFormed cs
  constructor
  · rintro ⟨items, hitems | ⟨-, hempty⟩, hforms⟩ w hw
    · exact .inr ⟨items, hitems, hforms⟩
    · exact .inl (hempty w hw)
  · intro h
    by_cases hempty : ∀ w, Json.lookup data "cases" = some w → w.isTruthy = false
    · exact ⟨[], .inr ⟨rfl, hempty⟩, by simp [DistinctlyFormed]⟩
    · push Not at hempty
      obtain ⟨w, hw, htruthy⟩ := hempty
      obtain ⟨cs, hcs, hforms⟩ := (h w hw).resolve_left htruthy
      exact ⟨cs, .inl hcs, hforms⟩

/-- The data of a node are of the format if every part of them is read. -/
lemma ReadsNode.dataFormed {i : Nat} {seen : List String} {fields data position : Fields}
    {e : NodeEntry} (h : ReadsNode i seen fields data position e) : DataFormed (.object data) := by
  refine ⟨rfl, ?_, ?_, ?_⟩
  · simp only [List.forall_mem_cons, List.not_mem_nil, false_imp_iff, implies_true, and_true]
    exact ⟨(exists_optionalText_iff _).mp ⟨_, h.label⟩,
      (exists_optionalText_iff _).mp ⟨_, h.customName⟩,
      (exists_optionalText_iff _).mp ⟨_, h.variableName⟩,
      (exists_optionalText_iff _).mp ⟨_, h.operation⟩,
      (exists_optionalText_iff _).mp ⟨_, h.purpose⟩⟩
  · simp only [List.forall_mem_cons, List.not_mem_nil, false_imp_iff, implies_true, and_true]
    exact ⟨(exists_optionalFlag_iff _).mp ⟨_, h.isLocked⟩,
      (exists_optionalFlag_iff _).mp ⟨_, h.isBypassed⟩,
      (exists_optionalFlag_iff _).mp ⟨_, h.isAction⟩,
      (exists_optionalFlag_iff _).mp ⟨_, h.isObservation⟩⟩
  · obtain ⟨items, hitems, hcases⟩ := h.cases
    exact exists_caseList_iff.mp ⟨items, _, hitems, hcases⟩

/-- The position of a node is of the format if its coordinates are read. -/
lemma ReadsNode.positionFormed {i : Nat} {seen : List String} {fields data position : Fields}
    {e : NodeEntry} (h : ReadsNode i seen fields data position e) :
    PositionFormed (.object position) := by
  refine ⟨rfl, ?_⟩
  simp only [List.forall_mem_cons, List.not_mem_nil, false_imp_iff, implies_true, and_true]
  exact ⟨(exists_optionalNumber_iff _).mp ⟨_, h.x⟩, (exists_optionalNumber_iff _).mp ⟨_, h.y⟩⟩

/-- Data may be empty. -/
lemma dataFormed_empty : DataFormed (.object []) := by decide

/-- A position may be empty. -/
lemma positionFormed_empty : PositionFormed (.object []) := by decide

/-- A node that is read is of the format. -/
lemma nodeFormed_of_readNode {i : Nat} {seen : List String} {v : Json} {e : NodeEntry}
    (h : readNode i seen v = .ok e) :
    NodeFormed v := by
  obtain ⟨fields, data, position, rfl, hreads⟩ := readNode_eq_ok_iff.mp h
  exact ⟨rfl, requires_isText_iff.mpr ⟨_, hreads.id⟩, requires_isText_iff.mpr ⟨_, hreads.typeName⟩,
    (exists_optionalObject_iff _ dataFormed_empty DataFormed.object).mp
    ⟨data, hreads.dataFields, hreads.dataFormed⟩,
    (exists_optionalObject_iff _ positionFormed_empty PositionFormed.object).mp
      ⟨position, hreads.positionFields, hreads.positionFormed⟩⟩

/-- A node of the format is read if its id has not been seen before. -/
lemma exists_readNode {i : Nat} {seen : List String} {v : Json} (h : NodeFormed v)
    (hseen : ∀ id ∈ seen, ¬ HasText v "id" id) :
    ∃ e, readNode i seen v = .ok e := by
  obtain ⟨fields, rfl⟩ := Json.isObject_iff.mp h.object
  obtain ⟨id, hid⟩ := requires_isText_iff.mp h.id
  obtain ⟨typeName, htypeName⟩ := requires_isText_iff.mp h.type
  obtain ⟨data, hdata, hformed⟩ :=
    (exists_optionalObject_iff (.data i) dataFormed_empty DataFormed.object).mpr h.data
  obtain ⟨position, hposition, hplaced⟩ :=
    (exists_optionalObject_iff (.position i) positionFormed_empty PositionFormed.object).mpr
      h.position
  have htexts := fun key hkey => (exists_optionalText_iff (.data i)).mpr (hformed.texts key hkey)
  have hflags := fun key hkey => (exists_optionalFlag_iff (.data i)).mpr (hformed.flags key hkey)
  have hnumbers :=
    fun key hkey => (exists_optionalNumber_iff (.position i)).mpr (hplaced.coordinates key hkey)
  simp only [List.forall_mem_cons, List.not_mem_nil, false_imp_iff, implies_true,
    and_true] at htexts hflags hnumbers
  obtain ⟨⟨label, hlabel⟩, ⟨customName, hcustomName⟩, ⟨variableName, hvariableName⟩,
      ⟨operation, hoperation⟩,
    ⟨purpose, hpurpose⟩⟩ := htexts
  obtain ⟨⟨isLocked, hisLocked⟩, ⟨isBypassed, hisBypassed⟩, ⟨isAction, hisAction⟩,
      ⟨isObservation, hisObservation⟩⟩ := hflags
  obtain ⟨⟨x, hx⟩, ⟨y, hy⟩⟩ := hnumbers
  obtain ⟨items, cases, hitems, hcases⟩ := exists_caseList_iff.mpr hformed.cases
  refine ⟨⟨id, typeName, label, customName, variableName, operation, purpose, isLocked, isBypassed,
    isAction, isObservation, (Json.lookup data "value").getD .null, cases, x, y⟩,
      readNode_eq_ok_iff.mpr ⟨fields, data, position, rfl, ?_⟩⟩
  exact ⟨hid, htypeName, fun hmem => hseen id hmem hid, hdata, hlabel, hcustomName, hvariableName,
    hoperation, hpurpose, hisLocked, hisBypassed, hisAction, hisObservation, rfl,
    ⟨items, hitems, hcases⟩, hposition, hx, hy⟩

/-- **An edge is read exactly if it is of the format.** -/
lemma exists_readEdge_iff {i : Nat} {v : Json} : (∃ e, readEdge i v = .ok e) ↔ EdgeFormed v := by
  simp only [readEdge_eq_ok_iff, edgeFormed_iff, List.forall_mem_cons, List.not_mem_nil,
    false_imp_iff, implies_true, and_true, requires_isText_iff]
  constructor
  · rintro ⟨e, fields, rfl, h⟩
    exact ⟨rfl, ⟨⟨_, h.source⟩, ⟨_, h.target⟩⟩, (exists_optionalText_iff _).mp ⟨_, h.id⟩,
      (exists_optionalText_iff _).mp ⟨_, h.sourceHandle⟩,
      (exists_optionalText_iff _).mp ⟨_, h.targetHandle⟩⟩
  · rintro ⟨hobject, ⟨⟨source, hsource⟩, ⟨target, htarget⟩⟩, hid, hsourceHandle, htargetHandle⟩
    obtain ⟨fields, rfl⟩ := Json.isObject_iff.mp hobject
    obtain ⟨id, hid⟩ := (exists_optionalText_iff (.edge i)).mpr hid
    obtain ⟨sourceHandle, hsourceHandle⟩ := (exists_optionalText_iff (.edge i)).mpr hsourceHandle
    obtain ⟨targetHandle, htargetHandle⟩ := (exists_optionalText_iff (.edge i)).mpr htargetHandle
    exact ⟨⟨id, source, sourceHandle, target, targetHandle⟩, fields, rfl, hsource, htarget, hid,
      hsourceHandle, htargetHandle⟩

/-! ## What passes a check -/

/-- Without strictness any type will do. -/
lemma outcome_checkKind_false (i : Nat) (n : NodeEntry) :
    (checkKind false i n).outcome = .ok () := by
  unfold checkKind
  split <;> rfl

/-- **Nodes pass a check exactly if they are of the format and have distinct ids.** -/
lemma exists_checkNodes_iff {i : Nat} {seen : List String} {vs : List Json} :
    (∃ ns, (checkNodes false i seen vs).outcome = .ok ns) ↔ FormedAfter NodeFormed seen vs := by
  induction vs generalizing i seen with
  | nil => simp [checkNodes, FormedAfter, DistinctlyFormed]
  | cons v rest ih =>
    have hstep : (∃ ns, (checkNodes false i seen (v :: rest)).outcome = .ok ns) ↔
        ∃ e, readNode i seen v = .ok e ∧
          ∃ ns, (checkNodes false (i + 1) (e.id :: seen) rest).outcome = .ok ns := by
      simp only [checkNodes, Audited.outcome_bind_eq_ok, Audited.outcome_lift, Audited.outcome_pure,
        mapError_eq_ok, outcome_checkKind_false, true_and, Except.ok.injEq]
      constructor
      · rintro ⟨_, e, he, -, ns, hns, -⟩
        exact ⟨e, he, ns, hns⟩
      · rintro ⟨e, he, ns, hns⟩
        exact ⟨_, e, he, (), ns, hns, rfl⟩
    rw [hstep]
    simp only [ih]
    constructor
    · rintro ⟨e, he, hrest⟩
      obtain ⟨fields, data, position, -, hreads⟩ := readNode_eq_ok_iff.mp he
      exact (formedAfter_cons_iff (hasText_of_readNode he)).mpr
        ⟨nodeFormed_of_readNode he, hreads.fresh, hrest⟩
    · intro h
      obtain ⟨e, he⟩ :=
        exists_readNode (i := i) (h.1.1 v List.mem_cons_self) (h.2 v List.mem_cons_self)
      exact ⟨e, he, ((formedAfter_cons_iff (hasText_of_readNode he)).mp h).2.2⟩

/-- The name and the two lists of a document are read exactly if they are of the format. -/
lemma exists_readTop_iff {v : Json} {us ws : List Json} :
    (∃ name, readTop v = .ok (name, us, ws)) ↔
      v.isObject = true ∧ Admits v Json.isText "name" ∧ v.list? "nodes" = some us ∧
      v.list? "edges" = some ws := by
  simp only [readTop_eq_ok_iff, Json.list?_eq_some_iff]
  constructor
  · rintro ⟨name, fields, rfl, hname, hnodes, hedges⟩
    exact ⟨rfl, (exists_optionalText_iff _).mp ⟨name, hname⟩, hnodes, hedges⟩
  · rintro ⟨hobject, hname, hnodes, hedges⟩
    obtain ⟨fields, rfl⟩ := Json.isObject_iff.mp hobject
    obtain ⟨name, hname⟩ := (exists_optionalText_iff .graph).mpr hname
    exact ⟨name, fields, rfl, hname, hnodes, hedges⟩

end Document

end LogicGraph
