import LogicGraph.Graph.Port

/-!
# Problems of documents

A document that is checked can have two sorts of problems. A flaw concerns a node or an edge that a
graph can do without; it is reported, and makes the document unacceptable only under strict
checking. Everything else is a violation of the format.

## Main definitions

* `LogicGraph.Document.Part` — a part of a document and the way to it.
* `LogicGraph.Document.Flaw` — a problem that a graph can do without.
* `LogicGraph.Document.SchemaError` — why a document is refused.
-/

namespace LogicGraph.Document

/-- A part of a document. -/
inductive Part where
  /-- The document as a whole. -/
  | graph
  /-- A node. -/
  | node (i : Nat)
  /-- The data of a node. -/
  | data (i : Nat)
  /-- A case of a node. -/
  | case (i j : Nat)
  /-- The position of a node. -/
  | position (i : Nat)
  /-- An edge. -/
  | edge (i : Nat)
  /-- An element of an interface description. -/
  | element (i : Nat)
  deriving DecidableEq, Repr

/-- The way to a part. -/
def Part.path : Part → String
  | .graph => "graph"
  | .node i => s!"nodes[{i}]"
  | .data i => s!"nodes[{i}].data"
  | .case i j => s!"nodes[{i}].data.cases[{j}]"
  | .position i => s!"nodes[{i}].position"
  | .edge i => s!"edges[{i}]"
  | .element i => s!"elements[{i}]"

/-- The word for a part that is one of many. -/
def Part.noun : Part → String
  | .graph => "graph"
  | .node _ => "node"
  | .data _ => "data"
  | .case _ _ => "case"
  | .position _ => "position"
  | .edge _ => "edge"
  | .element _ => "element"

/-- The way to a field of a part. -/
def Part.fieldPath (part : Part) (key : String) : String :=
  part.path ++ "." ++ key

/-- The end of an edge that a port of the given direction is at. -/
def endpointWord : Direction → String
  | .output => "source"
  | .input => "target"

/-- A problem that a graph can do without: the node or edge is left out, or the edge leads
nowhere. -/
inductive Flaw where
  /-- A node is of no known kind. -/
  | unknownType (node : Nat) (typeName : String)
  /-- An edge ends at no node; the end with an output port is the source. -/
  | missingEndpoint (edge : Nat) (d : Direction) (id : String)
  /-- An edge ends at a port that the node there does not have. -/
  | unknownPort (edge : Nat) (d : Direction) (kind : Kind) (port : String)
  deriving DecidableEq, Repr

/-- The wording of a flaw. -/
def Flaw.message : Flaw → String
  | .unknownType i typeName => s!"nodes[{i}]: unknown node type '{typeName}'"
  | .missingEndpoint i d id => s!"edges[{i}]: {endpointWord d} '{id}' not found in nodes"
  | .unknownPort i d kind port =>
    s!"edges[{i}]: '{kind.wire}' node has no {endpointWord d} port '{port}'"

/-- Why a document is refused. -/
inductive SchemaError where
  /-- The document is no object. -/
  | notADocument
  /-- A part lacks a field. -/
  | missingField (part : Part) (key : String)
  /-- A field is no text. -/
  | notText (part : Part) (key : String)
  /-- A field is no truth value. -/
  | notFlag (part : Part) (key : String)
  /-- A field is no number. -/
  | notNumber (part : Part) (key : String)
  /-- A field of the document itself is no list. -/
  | notTopList (key : String)
  /-- A field is no list. -/
  | notList (part : Part) (key : String)
  /-- A part that has to be an object is none. -/
  | notAnObject (part : Part)
  /-- A member of a list that has to be an object is none. -/
  | memberNotAnObject (part : Part)
  /-- A member of a list has the id of an earlier one. -/
  | repeatedId (part : Part) (id : String)
  /-- A flaw, under strict checking. -/
  | flaw (f : Flaw)
  /-- An interface description has no list of elements. -/
  | notAnInterface
  /-- A field of an interface element is no text, or empty. -/
  | missingText (part : Part) (key : String)
  deriving DecidableEq, Repr

/-- The wording of an error. -/
def SchemaError.message : SchemaError → String
  | .notADocument => "graph JSON must be a JSON object at the top level"
  | .missingField .graph key => s!"graph root: missing required field '{key}'"
  | .missingField part key => s!"{part.path}: missing required field '{key}'"
  | .notText part key => s!"{part.fieldPath key} must be a string"
  | .notFlag part key => s!"{part.fieldPath key} must be true or false"
  | .notNumber part key => s!"{part.fieldPath key} must be a number"
  | .notTopList key => s!"{key} must be a list"
  | .notList part key => s!"{part.fieldPath key} must be a list"
  | .notAnObject part => s!"{part.path} must be an object"
  | .memberNotAnObject part => s!"{part.path}: each {part.noun} must be a JSON object"
  | .repeatedId part id => s!"{part.path}: duplicate {part.noun} id '{id}'"
  | .flaw f => f.message
  | .notAnInterface => "Invalid UI Schema provided: expected an object with an 'elements' list"
  | .missingText part key => s!"{part.path}: missing required string field '{key}'"

end LogicGraph.Document
