import LogicGraph.Number.Binary64

/-!
# JSON values

A graph document is a JSON value. Integers are exact and kept apart from doubles, and an object is a
list of fields in the order of the document, each key once.

## Main definitions

* `LogicGraph.Number` — an integer or a double.
* `LogicGraph.Json` — the values.
* `LogicGraph.Json.field?` — the value of a field of an object.
* `LogicGraph.Json.given?` — the value of a field, with null read as absent.
* `LogicGraph.Json.isTruthy` — whether a value counts as given where an empty one does not.
* `LogicGraph.Json.height` — how many values stand on the longest way into a value.
-/

namespace LogicGraph

/-- A number of a document. -/
inductive Number where
  /-- An exact integer. -/
  | int (n : Int)
  /-- A double. -/
  | float (x : Binary64)
  deriving DecidableEq, Repr

namespace Number

/-- Whether the number is zero. -/
def isZero : Number → Bool
  | .int n => n == 0
  | .float x => x.isZero

/-- Whether two numbers are the same number, whichever way each of them is kept. -/
def sameAs : Number → Number → Bool
  | .int m, .int n => m == n
  | .int m, .float y => y.equalsInt m
  | .float x, .int n => x.equalsInt n
  | .float x, .float y => x.sameAs y

/-- The number as a double, or nothing when it is an integer beyond the doubles. -/
def toBinary64? : Number → Option Binary64
  | .int n => Binary64.ofInt? n
  | .float x => some x

end Number

/-- A JSON value. -/
inductive Json where
  /-- The null value. -/
  | null
  /-- A truth value. -/
  | bool (b : Bool)
  /-- A number. -/
  | number (n : Number)
  /-- A text. -/
  | string (s : String)
  /-- A list of values. -/
  | array (items : List Json)
  /-- An object: its fields in order. -/
  | object (fields : List (String × Json))
  deriving Repr

namespace Json

/-- Null stands for any value. -/
instance : Inhabited Json := ⟨.null⟩

mutual

/-- Decides whether two values are equal. -/
def decEq : (v w : Json) → Decidable (v = w)
  | .null, .null => .isTrue rfl
  | .bool b, .bool c => decidable_of_iff (b = c) (by simp)
  | .number m, .number n => decidable_of_iff (m = n) (by simp)
  | .string s, .string t => decidable_of_iff (s = t) (by simp)
  | .array vs, .array ws =>
    haveI := decEqItems vs ws
    decidable_of_iff (vs = ws) (by simp)
  | .object vs, .object ws =>
    haveI := decEqFields vs ws
    decidable_of_iff (vs = ws) (by simp)
  | .null, .bool _ | .null, .number _ | .null, .string _ | .null, .array _ | .null, .object _
  | .bool _, .null | .bool _, .number _ | .bool _, .string _ | .bool _, .array _
  | .bool _, .object _ | .number _, .null | .number _, .bool _ | .number _, .string _
  | .number _, .array _ | .number _, .object _ | .string _, .null | .string _, .bool _
  | .string _, .number _ | .string _, .array _ | .string _, .object _ | .array _, .null
  | .array _, .bool _ | .array _, .number _ | .array _, .string _ | .array _, .object _
  | .object _, .null | .object _, .bool _ | .object _, .number _ | .object _, .string _
  | .object _, .array _ => .isFalse (by simp)

/-- Decides whether two lists of values are equal. -/
def decEqItems : (vs ws : List Json) → Decidable (vs = ws)
  | [], [] => .isTrue rfl
  | v :: vs, w :: ws =>
    haveI := decEq v w
    haveI := decEqItems vs ws
    decidable_of_iff (v = w ∧ vs = ws) (by simp)
  | [], _ :: _ | _ :: _, [] => .isFalse (by simp)

/-- Decides whether two lists of fields are equal. -/
def decEqFields : (vs ws : List (String × Json)) → Decidable (vs = ws)
  | [], [] => .isTrue rfl
  | (k, v) :: vs, (l, w) :: ws =>
    haveI := decEq v w
    haveI := decEqFields vs ws
    decidable_of_iff ((k = l ∧ v = w) ∧ vs = ws) (by simp)
  | [], _ :: _ | _ :: _, [] => .isFalse (by simp)

end

/-- Values are compared by their structure. -/
instance : DecidableEq Json := decEq

/-- An integer as a value. -/
def int (n : Int) : Json := .number (.int n)

/-- The value of a field in a list of fields. -/
def lookup (fields : List (String × Json)) (key : String) : Option Json :=
  fields.lookup key

/-- The value of a field of an object. -/
def field? (v : Json) (key : String) : Option Json :=
  match v with
  | .object fields => lookup fields key
  | _ => none

/-- The value of a field in a list of fields, with null read as absent. -/
def given? (fields : List (String × Json)) (key : String) : Option Json :=
  match lookup fields key with
  | some .null => none
  | found => found

/-- Whether a value counts as given: null, false, zero and everything empty do not. -/
def isTruthy : Json → Bool
  | .null => false
  | .bool b => b
  | .number n => !n.isZero
  | .string s => s != ""
  | .array items => !items.isEmpty
  | .object fields => !fields.isEmpty

mutual

/-- How many values stand on the longest way into a value, from the value itself down to one that
holds no other. -/
def height : Json → Nat
  | .array items => itemsHeight items + 1
  | .object fields => fieldsHeight fields + 1
  | .null | .bool _ | .number _ | .string _ => 1

/-- The greatest height among the items of a list, 0 if there is none. -/
def itemsHeight : List Json → Nat
  | [] => 0
  | v :: vs => max v.height (itemsHeight vs)

/-- The greatest height among the values of fields, 0 if there is none. -/
def fieldsHeight : List (String × Json) → Nat
  | [] => 0
  | (_, v) :: vs => max v.height (fieldsHeight vs)

end

/-- The fields with one more; a key that is there already keeps its place and gets the new value. -/
def insertField (fields : List (String × Json)) (key : String) (v : Json) : List (String × Json) :=
  match fields with
  | [] => [(key, v)]
  | (k, w) :: rest => if k = key then (k, v) :: rest else (k, w) :: insertField rest key v

end Json

end LogicGraph
