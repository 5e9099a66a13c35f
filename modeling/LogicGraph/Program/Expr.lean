/-!
# Expressions

The expressions of a generated program are terms, sums of terms, and one operation on two of these.

## Main definitions

* `LogicGraph.Term` — a variable or a constant.
* `LogicGraph.Expr` — a term or a sum of terms.
* `LogicGraph.FanIn` — how the sources on one port make one value.
* `LogicGraph.FanIn.reduce` — the value of a port, on expressions and on their texts alike.
* `LogicGraph.Arithmetic`, `LogicGraph.Comparison` — the operations of nodes.
-/

namespace LogicGraph

/-- A term: a variable of the class or a constant. -/
inductive Term where
  /-- The variable of the given name. -/
  | member (name : String)
  /-- The constant that stands for a node without a value. -/
  | zero
  /-- The constant that stands for a trigger. -/
  | one
  /-- The reward when there is none. -/
  | noReward
  deriving DecidableEq, Repr

/-- A variable of the class as it is written. -/
def variableText (name : String) : String := "self." ++ name

/-- A term as it is written. -/
def Term.text : Term → String
  | .member name => variableText name
  | .zero => "0"
  | .one => "1.0"
  | .noReward => "0.0"

/-- An expression. -/
inductive Expr where
  /-- A term alone. -/
  | term (t : Term)
  /-- The sum of terms, in brackets. -/
  | sum (ts : List Term)
  deriving DecidableEq, Repr

/-- The texts of summands as a sum in brackets. -/
def sumText (ss : List String) : String :=
  "(" ++ " + ".intercalate ss ++ ")"

/-- An expression as it is written. -/
def Expr.text : Expr → String
  | .term t => t.text
  | .sum ts => sumText (ts.map Term.text)

/-- How the sources on one port make one value. -/
inductive FanIn where
  /-- The sources are added. -/
  | sum
  /-- The first source counts. -/
  | first
  deriving DecidableEq, Repr

namespace FanIn

/-- The value of a port from the values of its sources: `default` if there are none, the value of
the only or of the first one, or their sum. -/
def reduce {α β : Type} (policy : FanIn) (default : β) (single : α → β) (total : List α → β) :
    List α → β
  | [] => default
  | [a] => single a
  | a :: as =>
    match policy with
    | .first => single a
    | .sum => total (a :: as)

/-- The value of a port on texts. -/
def reduceTexts (policy : FanIn) (default : String) (ss : List String) : String :=
  policy.reduce default id sumText ss

/-- The value of a port on terms. -/
def reduceTerms (policy : FanIn) (default : Term) (ts : List Term) : Expr :=
  policy.reduce (.term default) .term .sum ts

end FanIn

/-- The operations of arithmetic nodes. -/
inductive Arithmetic where
  /-- Addition. -/
  | add
  /-- Subtraction. -/
  | sub
  /-- Multiplication. -/
  | mul
  /-- Division. -/
  | div
  deriving DecidableEq, Repr

namespace Arithmetic

/-- The sign of an operation. -/
def sign : Arithmetic → String
  | add => "+"
  | sub => "-"
  | mul => "*"
  | div => "/"

/-- All operations. -/
def all : List Arithmetic := [add, sub, mul, div]

/-- The operation of a node: addition, unless another one is named by its sign. -/
def ofSign (s : Option String) : Arithmetic :=
  (all.find? fun op => some op.sign == s).getD add

end Arithmetic

/-- The operations of comparing nodes. -/
inductive Comparison where
  /-- Equal. -/
  | eq
  /-- Not equal. -/
  | ne
  /-- Greater. -/
  | gt
  /-- Less. -/
  | lt
  /-- Greater or equal. -/
  | ge
  /-- Less or equal. -/
  | le
  deriving DecidableEq, Repr

namespace Comparison

/-- The sign of a comparison. -/
def sign : Comparison → String
  | eq => "=="
  | ne => "!="
  | gt => ">"
  | lt => "<"
  | ge => ">="
  | le => "<="

/-- All comparisons. -/
def all : List Comparison := [eq, ne, gt, lt, ge, le]

/-- The comparison of a node: equality, unless another one is named by its sign. -/
def ofSign (s : Option String) : Comparison :=
  (all.find? fun op => some op.sign == s).getD eq

end Comparison

end LogicGraph
