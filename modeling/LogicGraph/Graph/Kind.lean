/-!
# Kinds of nodes

The closed set of node kinds. A kind decides which ports a node has and what it becomes in a
program.

## Main definitions

* `LogicGraph.Kind` — the kinds.
* `LogicGraph.Kind.wire`, `LogicGraph.Kind.ofWire?` — the names of the kinds in documents.
* `LogicGraph.Kind.isTrigger`, `LogicGraph.Kind.isAssignable`, `LogicGraph.Kind.holdsValue`,
  `LogicGraph.Kind.isResettable`, `LogicGraph.Kind.isEvaluated` — the groups of kinds.

## Main results

* `LogicGraph.Kind.ofWire?_wire` and `LogicGraph.Kind.wire_of_ofWire?` — a kind and its name
  determine each other.
-/

namespace LogicGraph

/-- The kinds of nodes. -/
inductive Kind where
  /-- A button: it starts a chain of effects. -/
  | action
  /-- A navigation element: it starts a chain of effects. -/
  | nav
  /-- A display of a value. -/
  | state
  /-- A container of media. -/
  | media
  /-- A stored value. -/
  | cell
  /-- An object of a simulation. -/
  | object
  /-- A player of a simulation. -/
  | player
  /-- An arithmetic operation. -/
  | math
  /-- A comparison. -/
  | compare
  /-- A choice between cases. -/
  | ifElse
  /-- The reward of a simulation. -/
  | reward
  deriving DecidableEq, Repr

namespace Kind

/-- All kinds, in the order of the catalogue. -/
def all : List Kind :=
  [action, nav, state, media, cell, object, player, math, compare, ifElse, reward]

/-- The name of a kind in documents. -/
def wire : Kind → String
  | action => "ui_action"
  | nav => "ui_nav"
  | state => "ui_state"
  | media => "ui_media"
  | cell => "variable"
  | object => "object"
  | player => "player"
  | math => "math"
  | compare => "compare"
  | ifElse => "if_else"
  | reward => "reward"

/-- The name of a kind in the catalogue. -/
def catalogueName : Kind → String
  | action => "ACTION"
  | nav => "NAV"
  | state => "STATE"
  | media => "MEDIA"
  | cell => "VARIABLE"
  | object => "OBJECT"
  | player => "PLAYER"
  | math => "MATH"
  | compare => "COMPARE"
  | ifElse => "IF_ELSE"
  | reward => "REWARD"

/-- The kind that a document calls by the given name. -/
def ofWire? (name : String) : Option Kind :=
  all.find? (·.wire == name)

/-- Kinds that start a chain of effects. -/
def isTrigger : Kind → Bool
  | action | nav => true
  | _ => false

/-- Kinds whose value is set from outside. -/
def isAssignable : Kind → Bool
  | state | media | cell | object | player => true
  | _ => false

/-- Kinds that own a variable in every program. -/
def holdsValue : Kind → Bool
  | math | compare => true
  | k => k.isAssignable

/-- Kinds that a simulation sets back to their first value. -/
def isResettable : Kind → Bool
  | object | player => true
  | _ => false

/-- Kinds that a simulation evaluates in each step. -/
def isEvaluated : Kind → Bool
  | math | compare | ifElse => true
  | _ => false

/-- A kind is found by its name. -/
theorem ofWire?_wire (k : Kind) : ofWire? k.wire = some k := by
  cases k <;> decide

/-- A kind that is found by a name has that name. -/
theorem wire_of_ofWire? {name : String} {k : Kind} (h : ofWire? name = some k) : k.wire = name := by
  simpa using List.find?_some h

end Kind

end LogicGraph
