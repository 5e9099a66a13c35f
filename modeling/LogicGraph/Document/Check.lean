import LogicGraph.Graph.Basic
import LogicGraph.Notice

/-!
# Checked documents

Checking a JSON value gives a document: its nodes and edges with every field at its type. The check
goes through the nodes and then through the edges, in order, and stops at the first violation of the
format. Flaws are reported as they are met, and under strict checking the first one stops the check
too.

## Main definitions

* `LogicGraph.Document.NodeEntry`, `LogicGraph.Document.EdgeEntry`, `LogicGraph.Document` — a
  checked document.
* `LogicGraph.Document.CheckError` — why a value is no document.
* `LogicGraph.Document.check` — the check.

## Implementation notes

A field that is null counts as absent, with three exceptions: `data` and `position` have to be
objects if they are there at all, and the ids, types, endpoints and lists of a document have to be
there. The list of cases may be any empty value.
-/

namespace LogicGraph

namespace Document

/-- A case of a node entry. -/
structure CaseEntry where
  /-- The id. -/
  id : String
  /-- The value; null if there is none. -/
  value : Json
  deriving DecidableEq, Repr

/-- A node of a document. -/
structure NodeEntry where
  /-- The id. -/
  id : String
  /-- The name of the kind, known or not. -/
  typeName : String
  /-- The label. -/
  label : Option String
  /-- The name that the user chose. -/
  customName : Option String
  /-- The name of the variable. -/
  variableName : Option String
  /-- The operation. -/
  operation : Option String
  /-- The remark. -/
  purpose : Option String
  /-- Whether the node is shown as locked. -/
  isLocked : Option Bool
  /-- Whether the node is shown as bypassed. -/
  isBypassed : Option Bool
  /-- Whether a simulation adds to the node. -/
  isAction : Option Bool
  /-- Whether a simulation observes the node. -/
  isObservation : Option Bool
  /-- The first value; null if there is none. -/
  value : Json
  /-- The cases. -/
  cases : List CaseEntry
  /-- The horizontal coordinate. -/
  x : Option Number
  /-- The vertical coordinate. -/
  y : Option Number
  deriving DecidableEq, Repr

/-- An edge of a document. -/
structure EdgeEntry where
  /-- The id. -/
  id : Option String
  /-- The id of the node that the edge leaves. -/
  source : String
  /-- The port that the edge leaves. -/
  sourceHandle : Option String
  /-- The id of the node that the edge enters. -/
  target : String
  /-- The port that the edge enters. -/
  targetHandle : Option String
  deriving DecidableEq, Repr

end Document

/-- A checked document. -/
structure Document where
  /-- The name. -/
  name : Option String
  /-- The nodes. -/
  nodes : List Document.NodeEntry
  /-- The edges. -/
  edges : List Document.EdgeEntry
  deriving DecidableEq, Repr

namespace Document

/-- Why a value is no document. -/
inductive CheckError where
  /-- The value is not of the format, or has a flaw under strict checking. -/
  | schema (e : SchemaError)
  /-- The name of a case port is made of digits that spell no number. -/
  | port (f : Numeral.Fault)
  deriving DecidableEq, Repr

/-- The wording of an error. -/
def CheckError.message : CheckError → String
  | .schema e => e.message
  | .port f => f.message

/-- The fields of an object. -/
abbrev Fields := List (String × Json)

/-! ## Fields of one part -/

/-- The value of a field that has to be there. -/
def required (part : Part) (fields : Fields) (key : String) : Except SchemaError Json :=
  match Json.lookup fields key with
  | some v => .ok v
  | none => .error (.missingField part key)

/-- The text of a value that has to be one. -/
def asText (part : Part) (key : String) : Json → Except SchemaError String
  | .string s => .ok s
  | _ => .error (.notText part key)

/-- The text of a field that may be absent. -/
def optionalText (part : Part) (fields : Fields) (key : String) :
    Except SchemaError (Option String) :=
  match Json.given? fields key with
  | none => .ok none
  | some (.string s) => .ok (some s)
  | some _ => .error (.notText part key)

/-- The truth value of a field that may be absent. -/
def optionalFlag (part : Part) (fields : Fields) (key : String) :
    Except SchemaError (Option Bool) :=
  match Json.given? fields key with
  | none => .ok none
  | some (.bool b) => .ok (some b)
  | some _ => .error (.notFlag part key)

/-- The number of a field that may be absent. -/
def optionalNumber (part : Part) (fields : Fields) (key : String) :
    Except SchemaError (Option Number) :=
  match Json.given? fields key with
  | none => .ok none
  | some (.number n) => .ok (some n)
  | some _ => .error (.notNumber part key)

/-- The fields of a member of a list that has to be an object. -/
def memberFields (part : Part) : Json → Except SchemaError Fields
  | .object fields => .ok fields
  | _ => .error (.memberNotAnObject part)

/-- The fields of an object that may be absent, but not null. -/
def optionalObject (part : Part) (fields : Fields) (key : String) : Except SchemaError Fields :=
  match Json.lookup fields key with
  | none => .ok []
  | some (.object inner) => .ok inner
  | some _ => .error (.notAnObject part)

/-! ## Nodes -/

/-- The cases of node `i` from case `j` on; `seen` holds the ids of the cases before. -/
def readCases (i : Nat) : Nat → List String → List Json → Except SchemaError (List CaseEntry)
  | _, _, [] => .ok []
  | j, seen, v :: rest => do
    let part := Part.case i j
    let fields ← memberFields part v
    let id ← required part fields "id" >>= asText part "id"
    if id ∈ seen then throw (.repeatedId part id)
    let entries ← readCases i (j + 1) (id :: seen) rest
    return ⟨id, (Json.lookup fields "value").getD .null⟩ :: entries

/-- The list of cases of a node: any empty value is the empty list. -/
def caseList (i : Nat) (data : Fields) : Except SchemaError (List Json) :=
  match Json.lookup data "cases" with
  | none => .ok []
  | some (.array items) => .ok items
  | some v => if v.isTruthy then .error (.notList (.data i) "cases") else .ok []

/-- Node `i`; `seen` holds the ids of the nodes before. -/
def readNode (i : Nat) (seen : List String) (v : Json) : Except SchemaError NodeEntry := do
  let part := Part.node i
  let fields ← memberFields part v
  let idValue ← required part fields "id"
  let typeValue ← required part fields "type"
  let id ← asText part "id" idValue
  let typeName ← asText part "type" typeValue
  if id ∈ seen then throw (.repeatedId part id)
  let data ← optionalObject (.data i) fields "data"
  let label ← optionalText (.data i) data "label"
  let customName ← optionalText (.data i) data "customName"
  let variableName ← optionalText (.data i) data "variableName"
  let operation ← optionalText (.data i) data "operation"
  let purpose ← optionalText (.data i) data "purpose"
  let isLocked ← optionalFlag (.data i) data "isLocked"
  let isBypassed ← optionalFlag (.data i) data "isBypassed"
  let isAction ← optionalFlag (.data i) data "isAction"
  let isObservation ← optionalFlag (.data i) data "isObservation"
  let cases ← caseList i data >>= readCases i 0 []
  let position ← optionalObject (.position i) fields "position"
  let x ← optionalNumber (.position i) position "x"
  let y ← optionalNumber (.position i) position "y"
  return { id, typeName, label, customName, variableName, operation, purpose, isLocked, isBypassed,
           isAction, isObservation, value := (Json.lookup data "value").getD .null, cases, x, y }

/-- The kind of a node entry, if it is known. -/
def NodeEntry.kind? (n : NodeEntry) : Option Kind :=
  Kind.ofWire? n.typeName

/-- Reports a flaw, or fails on it under strict checking. -/
def meet (strict : Bool) (f : Flaw) : Audited CheckError Unit :=
  if strict then .fail (.schema (.flaw f)) else .report [.flaw f]

/-- Reports the flaw of node `i`, if it has one. -/
def checkKind (strict : Bool) (i : Nat) (n : NodeEntry) : Audited CheckError Unit :=
  match n.kind? with
  | some _ => pure ()
  | none => meet strict (.unknownType i n.typeName)

/-- The nodes from node `i` on; `seen` holds the ids of the nodes before. -/
def checkNodes (strict : Bool) : Nat → List String → List Json → Audited CheckError (List NodeEntry)
  | _, _, [] => pure []
  | i, seen, v :: rest => do
    let n ← Audited.lift ((readNode i seen v).mapError .schema)
    checkKind strict i n
    let ns ← checkNodes strict (i + 1) (n.id :: seen) rest
    return n :: ns

/-! ## Edges -/

/-- Edge `i`. -/
def readEdge (i : Nat) (v : Json) : Except SchemaError EdgeEntry := do
  let part := Part.edge i
  let fields ← memberFields part v
  let sourceValue ← required part fields "source"
  let targetValue ← required part fields "target"
  let source ← asText part "source" sourceValue
  let target ← asText part "target" targetValue
  let id ← optionalText part fields "id"
  let sourceHandle ← optionalText part fields "sourceHandle"
  let targetHandle ← optionalText part fields "targetHandle"
  return { id, source, sourceHandle, target, targetHandle }

/-- Reports the flaw of one end of edge `i`, if it has one. An end at a node of unknown kind has
none, nor has one without a port. -/
def checkEnd (strict : Bool) (nodes : List NodeEntry) (i : Nat) (d : Direction) (id : String)
    (handle : Option String) : Audited CheckError Unit :=
  match nodes.find? (·.id == id) with
  | none => meet strict (.missingEndpoint i d id)
  | some n =>
    match n.kind?, handle with
    | some kind, some port => do
      let there ← Audited.lift ((kind.hasPort port d n.cases.length).mapError .port)
      if there then pure () else meet strict (.unknownPort i d kind port)
    | _, _ => pure ()

/-- The edges from edge `i` on. -/
def checkEdges (strict : Bool) (nodes : List NodeEntry) :
    Nat → List Json → Audited CheckError (List EdgeEntry)
  | _, [] => pure []
  | i, v :: rest => do
    let e ← Audited.lift ((readEdge i v).mapError .schema)
    checkEnd strict nodes i .output e.source e.sourceHandle
    checkEnd strict nodes i .input e.target e.targetHandle
    let es ← checkEdges strict nodes (i + 1) rest
    return e :: es

/-! ## Documents -/

/-- The list in a field of a document. -/
def topList (key : String) : Json → Except SchemaError (List Json)
  | .array items => .ok items
  | _ => .error (.notTopList key)

/-- The name and the two lists of a document. -/
def readTop (v : Json) : Except SchemaError (Option String × List Json × List Json) :=
  match v with
  | .object fields => do
    let nodes ← required .graph fields "nodes"
    let edges ← required .graph fields "edges"
    let name ← optionalText .graph fields "name"
    let nodes ← topList "nodes" nodes
    let edges ← topList "edges" edges
    return (name, nodes, edges)
  | _ => .error .notADocument

/-- Checks a value. -/
def check (strict : Bool) (v : Json) : Audited CheckError Document := do
  let (name, nodes, edges) ← Audited.lift ((readTop v).mapError .schema)
  let nodes ← checkNodes strict 0 [] nodes
  let edges ← checkEdges strict nodes 0 edges
  return { name, nodes, edges }

end Document

end LogicGraph
