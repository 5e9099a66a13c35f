import LogicGraph.Program.Expr
import LogicGraph.Program.Literal
import LogicGraph.Text.Layout

/-!
# Programs

A generated program is one class. Its methods have bodies of statements, and a statement may be a
choice between bodies. This module has the tree of a program and writes it out.

## Main definitions

* `LogicGraph.Stmt` — statements.
* `LogicGraph.Method`, `LogicGraph.Program` — methods and programs.
* `LogicGraph.Stmt.write` — writes a statement at the current depth.
* `LogicGraph.Program.text` — the text of a program.

## Implementation notes

A body is never empty: what would be empty is the statement `pass`, see `LogicGraph.orPass`.
-/

namespace LogicGraph

/-- The right-hand side of an assignment. -/
inductive Rhs where
  /-- A literal. -/
  | literal (l : Literal)
  /-- An expression. -/
  | expr (e : Expr)
  /-- An arithmetic operation. -/
  | arithmetic (op : Arithmetic) (a b : Expr)
  /-- A comparison, with one for true and zero for false. -/
  | comparison (op : Comparison) (a b : Expr)
  deriving DecidableEq, Repr

/-- What is added to every divisor. -/
def epsilon : String := "1e-8"

/-- A right-hand side as it is written; a divisor is kept away from zero. -/
def Rhs.text : Rhs → String
  | .literal l => l.written
  | .expr e => e.text
  | .arithmetic .div a b => s!"{a.text} / ({b.text} + {epsilon})"
  | .arithmetic op a b => s!"{a.text} {op.sign} {b.text}"
  | .comparison op a b => s!"1.0 if {a.text} {op.sign} {b.text} else 0.0"

/-- A statement. -/
inductive Stmt where
  /-- A comment on its own line. -/
  | comment (s : String)
  /-- The description of a method. -/
  | docstring (s : String)
  /-- Sets a variable, with a remark behind. -/
  | assign (name : String) (rhs : Rhs) (remark : Option String)
  /-- Adds an entry of the action to a variable. -/
  | increment (name : String) (index : Nat)
  /-- Does nothing; it may stand for the start of a cycle at the named node. -/
  | pass (cycle : Option String)
  /-- Returns the named variables as a dictionary. -/
  | returnState (names : List String)
  /-- Returns the named variables as an array. -/
  | returnObservation (names : List String)
  /-- Returns what is observed. -/
  | returnReset
  /-- Computes the reward. -/
  | reward (e : Expr)
  /-- Returns what is observed and the reward. -/
  | returnStep
  /-- Compares the subject with one literal after another and does what belongs to the first that is
  equal. -/
  | choose (subject : Expr) (clauses : List (Literal × List Stmt)) (otherwise : List Stmt)
  deriving Repr

/-- A body that is not empty. -/
def orPass (body : List Stmt) : List Stmt :=
  if body.isEmpty then [.pass none] else body

/-- The head of a clause; the first of a choice has another keyword than the later ones. -/
def clauseHead (isFirst : Bool) (subject : Expr) (l : Literal) : String :=
  (if isFirst then "if " else "elif ") ++ subject.text ++ " == " ++ l.written ++ ":"

/-- The entry of a variable in a dictionary. -/
def stateEntry (name : String) : String :=
  "\"" ++ name ++ "\": " ++ variableText name ++ ","

/-- The assignment of a right-hand side with a remark behind. -/
def assignText (name : String) (rhs : Rhs) (remark : Option String) : String :=
  variableText name ++ " = " ++ rhs.text ++
    match remark with
    | some r => "  # " ++ r
    | none => ""

/-- Writes the statement that returns variables as a dictionary. -/
def writeState (l : Layout) (names : List String) : Layout :=
  if names.isEmpty then l.line "return \x7b\x7d"
  else (((l.line "return \x7b").deeper.block (names.map stateEntry)).shallower).line "\x7d"

mutual

/-- Writes a statement at the current depth. -/
def Stmt.write (l : Layout) : Stmt → Layout
  | .comment s => l.comment s
  | .docstring s => l.line ("\"\"\"" ++ s ++ "\"\"\"")
  | .assign name rhs remark => l.line (assignText name rhs remark)
  | .increment name index => l.line s!"{variableText name} += float(action[{index}])"
  | .pass none => l.line "pass"
  | .pass (some name) => l.line ("pass  # cycle: " ++ name)
  | .returnState names => writeState l names
  | .returnObservation names =>
    let entries := ", ".intercalate (names.map variableText)
    l.line s!"return np.array([{entries}], dtype=np.float32)"
  | .returnReset => l.line "return self.get_observation()"
  | .reward e => l.line s!"reward = float({e.text})"
  | .returnStep => l.line "return self.get_observation(), reward, False, False, \x7b\x7d"
  | .choose subject clauses otherwise =>
    let l := Stmt.writeClauses l subject true clauses
    (Stmt.writeAll (l.line "else:").deeper otherwise).shallower

/-- Writes statements one below the other. -/
def Stmt.writeAll (l : Layout) : List Stmt → Layout
  | [] => l
  | s :: rest => Stmt.writeAll (s.write l) rest

/-- Writes clauses one below the other. -/
def Stmt.writeClauses (l : Layout) (subject : Expr) (isFirst : Bool) :
    List (Literal × List Stmt) → Layout
  | [] => l
  | (lit, body) :: rest =>
    let l := (Stmt.writeAll (l.line (clauseHead isFirst subject lit)).deeper body).shallower
    Stmt.writeClauses l subject false rest

end

/-- The lines of statements at a depth. -/
def Stmt.lines (depth : Int) (body : List Stmt) : List String :=
  (Stmt.writeAll { depth } body).lines.toList

/-- A method of the class. -/
structure Method where
  /-- The name. -/
  name : String
  /-- The parameters after the object itself. -/
  parameters : List String := []
  /-- The body. -/
  body : List Stmt
  deriving Repr

/-- Writes a method at the current depth. -/
def Method.write (l : Layout) (m : Method) : Layout :=
  let parameters := ", ".intercalate ("self" :: m.parameters)
  let head := s!"def {m.name}({parameters}):"
  (Stmt.writeAll (l.line head).deeper m.body).shallower

/-- A program: a few lines of introduction and a class. -/
structure Program where
  /-- What the program is. -/
  title : String
  /-- The name of the graph. -/
  graphName : String
  /-- The lines between the introduction and the class. -/
  imports : List String := []
  /-- The name of the class. -/
  className : String
  /-- The first method of the class. -/
  constructor : Method
  /-- The other methods of the class. -/
  methods : List Method
  deriving Repr

namespace Program

/-- The lines of introduction. -/
def header (p : Program) : List String :=
  ["# " ++ p.title, "# Graph: " ++ p.graphName,
   "# Do not edit by hand: regenerate from the graph editor."] ++ p.imports ++ ["", ""]

/-- Lays a program out; methods have an empty line between them. -/
def layout (p : Program) : Layout :=
  let l := (({} : Layout).block p.header).line s!"class {p.className}:"
  p.methods.foldl (fun l m => m.write l.blank) (p.constructor.write l.deeper)

/-- The text of a program. -/
def text (p : Program) : String :=
  p.layout.text ++ "\n"

end Program

end LogicGraph
