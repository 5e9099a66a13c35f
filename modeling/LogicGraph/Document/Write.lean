import LogicGraph.Graph.Basic

/-!
# Graphs to documents

Writing gives the document that loads as the graph again. Optional fields are left out when they are
absent.

## Main definitions

* `LogicGraph.Graph.toJson` — the document of a graph.
* `LogicGraph.Kind.catalogue` — the kinds and their ports, for an editor's palette.
-/

namespace LogicGraph

/-- The field of a text that may be absent. -/
def textField (key : String) (s : Option String) : List (String × Json) :=
  s.toList.map fun s => (key, .string s)

/-- The field of a truth value that may be absent. -/
def flagField (key : String) (b : Option Bool) : List (String × Json) :=
  b.toList.map fun b => (key, .bool b)

/-- The field of a value that is absent when it is null. -/
def valueField (key : String) (v : Json) : List (String × Json) :=
  if v = .null then [] else [(key, v)]

/-- The document of a case. -/
def Case.toJson (c : Case) : Json :=
  .object [("id", .string c.id), ("value", c.value)]

/-- The data of a node in a document. -/
def Node.dataFields (n : Node) : List (String × Json) :=
  [("label", .string n.label), ("isLocked", .bool n.isLocked),
    ("isBypassed", .bool n.isBypassed)] ++
    textField "customName" n.customName ++ textField "variableName" n.variableName ++
    valueField "value" n.value ++ textField "operation" n.operation ++
    textField "purpose" n.purpose ++ flagField "isAction" n.isAction ++
    flagField "isObservation" n.isObservation ++
    (if n.cases = [] then [] else [("cases", .array (n.cases.map Case.toJson))])

/-- The document of a node. -/
def Node.toJson (n : Node) : Json :=
  .object
    [("id", .string n.id), ("type", .string n.kind.wire), ("data", .object n.dataFields),
     ("position", .object [("x", .number n.position.x), ("y", .number n.position.y)])]

/-- The document of an edge. -/
def Edge.toJson (e : Edge) : Json :=
  .object
    [("id", .string e.id), ("source", .string e.source), ("sourceHandle", .string e.sourceHandle),
     ("target", .string e.target), ("targetHandle", .string e.targetHandle)]

/-- The document of a graph. -/
def Graph.toJson (g : Graph) : Json :=
  .object
    [("name", .string g.name), ("nodes", .array (g.nodes.map Node.toJson)),
     ("edges", .array (g.edges.map Edge.toJson))]

/-- A kind and its ports. -/
def Kind.catalogueEntry (k : Kind) : Json :=
  .object
    [("type", .string k.wire), ("name", .string k.catalogueName), ("isTrigger", .bool k.isTrigger),
     ("inputs", .array ((k.portsIn .input).map .string)),
     ("outputs", .array ((k.portsIn .output).map .string))]

/-- All kinds and their ports. -/
def Kind.catalogue : Json :=
  .array (Kind.all.map Kind.catalogueEntry)

end LogicGraph
