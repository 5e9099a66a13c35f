import LogicGraph.Json.Basic
import LogicGraph.Number.Numeral
import LogicGraph.Number.Shortest

/-!
# Values as expressions

Every JSON value is also a value of the generated language, and this module writes it as an
expression there: the words `None`, `True` and `False`, integers and doubles as numerals, texts
quoted, lists in brackets and objects in braces.

## Main definitions

* `LogicGraph.Json.expression` — a value as an expression.
* `LogicGraph.Json.plainText` — the same, with a text left as it is.
* `LogicGraph.Json.isWritable` — whether every integer in a value has few enough digits to be
  written.
-/

namespace LogicGraph.Json

mutual

/-- A value as an expression of the generated language. -/
def expression : Json → String
  | .null => "None"
  | .bool b => if b then "True" else "False"
  | .number (.int n) => toString n
  | .number (.float x) => x.text
  | .string s => Text.quoted s
  | .array items => "[" ++ ", ".intercalate (itemExpressions items) ++ "]"
  | .object fields => "\x7b" ++ ", ".intercalate (fieldExpressions fields) ++ "\x7d"

/-- The items of a list as expressions. -/
def itemExpressions : List Json → List String
  | [] => []
  | v :: vs => v.expression :: itemExpressions vs

/-- The fields of an object as pairs of expressions. -/
def fieldExpressions : List (String × Json) → List String
  | [] => []
  | (k, v) :: vs => (Text.quoted k ++ ": " ++ v.expression) :: fieldExpressions vs

end

/-- The text of a value: a text is its own, any other value that of its expression. -/
def plainText : Json → String
  | .string s => s
  | v => v.expression

mutual

/-- Whether every integer in a value has few enough digits to be written. -/
def isWritable : Json → Bool
  | .number (.int n) => Numeral.withinLimit n
  | .array items => allItemsWritable items
  | .object fields => allFieldsWritable fields
  | _ => true

/-- Whether every integer in a list of values has few enough digits to be written. -/
def allItemsWritable : List Json → Bool
  | [] => true
  | v :: vs => v.isWritable && allItemsWritable vs

/-- Whether every integer in a list of fields has few enough digits to be written. -/
def allFieldsWritable : List (String × Json) → Bool
  | [] => true
  | (_, v) :: vs => v.isWritable && allFieldsWritable vs

end

end LogicGraph.Json
