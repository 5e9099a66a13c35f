import LogicGraph.Graph.Basic
import LogicGraph.Notice
import LogicGraph.Text.UpperCase

/-!
# Interface descriptions

The description of a user interface lists its elements. Importing it gives a graph with one node for
each element and no edges; the nodes stand on a grid of four columns. The description is checked as
a whole first, so a malformed one gives no graph at all.

## Main definitions

* `LogicGraph.Interface.Element` — an element of an interface.
* `LogicGraph.Interface.read` — the elements of a description.
* `LogicGraph.Interface.gridCell` — the place of an element on the grid.
* `LogicGraph.Graph.ofInterface` — the graph of a description.
-/

namespace LogicGraph

namespace Interface

open Document (Part SchemaError)

/-- An element of an interface. -/
structure Element where
  /-- The id. -/
  id : String
  /-- The name of its type. -/
  typeName : String
  /-- What it is for. -/
  purpose : Option String
  deriving DecidableEq, Repr

/-- The text of a field that has to be there and not to be empty. -/
def requiredText (part : Part) (fields : List (String × Json)) (key : String) :
    Except SchemaError String :=
  match Json.lookup fields key with
  | some (.string s) => if s = "" then .error (.missingText part key) else .ok s
  | _ => .error (.missingText part key)

/-- Element `i`; `seen` holds the ids of the elements before. -/
def readElement (i : Nat) (seen : List String) (v : Json) : Except SchemaError Element :=
  let part := Part.element i
  match v with
  | .object fields => do
    let id ← requiredText part fields "id"
    let typeName ← requiredText part fields "type"
    if id ∈ seen then throw (.repeatedId part id)
    let purpose ← match Json.given? fields "purpose" with
      | none => pure none
      | some (.string s) => pure (some s)
      | some _ => throw (.notText part "purpose")
    return { id, typeName, purpose }
  | _ => .error (.memberNotAnObject part)

/-- The elements from element `i` on; `seen` holds the ids of the elements before. -/
def readElements : Nat → List String → List Json → Except SchemaError (List Element)
  | _, _, [] => .ok []
  | i, seen, v :: rest => do
    let e ← readElement i seen v
    let es ← readElements (i + 1) (e.id :: seen) rest
    return e :: es

/-- The elements of a description. -/
def read (v : Json) : Except SchemaError (List Element) :=
  match v.field? "elements" with
  | some (.array items) => readElements 0 [] items
  | _ => .error .notAnInterface

/-- The number of columns of the grid. -/
def gridColumns : Nat := 4

/-- The width of a column. -/
def cellWidth : Nat := 220

/-- The height of a row. -/
def cellHeight : Nat := 200

/-- Column and row of a place on the grid, which is filled row by row. -/
def gridCell (index : Int) : Int × Int :=
  (index % gridColumns, index / gridColumns)

/-- The coordinates of a place on the grid. -/
def gridPosition (index : Nat) : Position :=
  let cell := gridCell index
  ⟨.float (Binary64.ofNat (cell.1.toNat * cellWidth)),
    .float (Binary64.ofNat (cell.2.toNat * cellHeight))⟩

/-- The kind of node for an element; what is not known by name navigates. -/
def elementKind (typeName : String) : Kind :=
  if typeName = "Action_Button" then .action
  else if typeName = "Data_Display" then .state
  else if typeName = "Media_Container" then .media
  else .nav

/-- The label for an id: spaces for underscores, in upper case. -/
def labelOf (id : String) : String :=
  Text.upperCase (String.ofList (id.toList.map fun c => if c = '_' then ' ' else c))

/-- The node for element number `index`. -/
def Element.toNode (e : Element) (index : Nat) : Node :=
  { id := e.id, kind := elementKind e.typeName, label := labelOf e.id, variableName := some e.id,
    value := .int 0, purpose := e.purpose, position := gridPosition index }

/-- The name of an imported graph. -/
def importedName : String := "imported-ui"

end Interface

/-- Why a description gives no graph. -/
inductive ImportError where
  /-- The description is malformed. -/
  | schema (e : Document.SchemaError)
  /-- Ids are not distinct. -/
  | graph (f : GraphFault)
  deriving DecidableEq, Repr

/-- The wording of an error. -/
def ImportError.message : ImportError → String
  | .schema e => e.message
  | .graph f => f.message

/-- The graph of an interface description. -/
def Graph.ofInterface (v : Json) (name : String) : Audited ImportError Graph := do
  let elements ← Audited.lift ((Interface.read v).mapError .schema)
  Audited.report [.imported elements.length]
  Audited.lift ((Graph.ofParts (elements.mapIdx fun i e => e.toNode i) [] name).mapError .graph)

end LogicGraph
