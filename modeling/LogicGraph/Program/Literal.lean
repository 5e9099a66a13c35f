import LogicGraph.Json.Display
import LogicGraph.Text.Blank

/-!
# Literals

The value of a node, or of a case, becomes a literal of the generated program. Numeric text becomes
a number and any other text a quoted one; text is never pasted into the program as it is. A blank
value gives no literal.

## Main definitions

* `LogicGraph.Literal` — the literals.
* `LogicGraph.Literal.ofJson?` — the literal for a value.
* `LogicGraph.Literal.written` — a literal as it is written.
* `LogicGraph.Json.literalText?` — a value as a literal, with a text for a blank value.
-/

namespace LogicGraph

/-- A literal of the generated program. -/
inductive Literal where
  /-- An integer. -/
  | int (n : Int)
  /-- A double. -/
  | float (x : Binary64)
  /-- A text. -/
  | text (s : String)
  /-- A list of values. -/
  | list (items : List Json)
  /-- A dictionary of values. -/
  | dict (fields : List (String × Json))
  deriving DecidableEq, Repr

namespace Literal

/-- The literal for a text that is not blank: an integer, a double or a text, whichever comes
first. -/
def ofText (s : String) : Literal :=
  let trimmed := Text.trim s.toList
  match Numeral.readInt trimmed with
  | .ok n => .int n
  | .error _ =>
    match Numeral.readBinary64? trimmed with
    | some x => .float x
    | none => .text s

/-- The literal for a value; null and blank text have none. Truth values are the numbers one and
zero. -/
def ofJson? : Json → Option Literal
  | .null => none
  | .bool b => some (.float (if b then Binary64.one else Binary64.zero false))
  | .number (.int n) => some (.int n)
  | .number (.float x) => some (.float x)
  | .string s => if Text.trim s.toList = [] then none else some (ofText s)
  | .array items => some (.list items)
  | .object fields => some (.dict fields)

/-- A double as it is written; what is not finite is made from its name. -/
def floatText (x : Binary64) : String :=
  match x with
  | .finite _ _ _ => x.text
  | _ => "float('" ++ x.text ++ "')"

/-- A literal as it is written. -/
def written : Literal → String
  | .int n => toString n
  | .float x => floatText x
  | .text s => Text.quoted s
  | .list items => (Json.array items).expression
  | .dict fields => (Json.object fields).expression

/-- Whether every integer in a literal has few enough digits to be written. -/
def isWritable : Literal → Bool
  | .int n => Numeral.withinLimit n
  | .float _ | .text _ => true
  | .list items => (Json.array items).isWritable
  | .dict fields => (Json.object fields).isWritable

/-- The literal for a value, or the given one for a blank value; nothing if it cannot be written. -/
def ofValue? (blank : Literal) (v : Json) : Option Literal :=
  let l := (ofJson? v).getD blank
  if l.isWritable then some l else none

end Literal

/-- A value as a literal is written, with the given text for a blank value; nothing if it cannot be
written. -/
def Json.literalText? (blank : String) (v : Json) : Option String :=
  match Literal.ofJson? v with
  | none => some blank
  | some l => if l.isWritable then some l.written else none

end LogicGraph
