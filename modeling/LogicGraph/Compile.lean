import LogicGraph.Failure

/-!
# Compiling

Compiling a graph for a target gives the text of a program, which is read before it is given out.
What the reader makes of it, how deep a graph may be nested and which files can be read is up to the
machine; without a machine the standard one is meant.

## Main definitions

* `LogicGraph.Target` — the targets.
* `LogicGraph.GraphSource` — a document or the path of a file with one.
* `LogicGraph.Machine.compile` — the program text of a graph.
* `LogicGraph.Machine.graphOfFile`, `LogicGraph.Graph.ofFile` — the graph of a file.
* `LogicGraph.Machine.compileSource`, `LogicGraph.compileSource` — loads a graph and compiles it.
-/

namespace LogicGraph

/-- The targets of compilation. -/
inductive Target where
  /-- Methods for the triggers of a user interface. -/
  | event
  /-- An environment that is reset and goes on step by step. -/
  | simulation
  deriving DecidableEq, Repr

namespace Target

/-- The name of a target. -/
def name : Target → String
  | event => "event"
  | simulation => "simulation"

/-- All targets, in order. -/
def all : List Target := [event, simulation]

/-- The target of a name. -/
def ofName? (s : String) : Option Target :=
  all.find? (·.name == s)

/-- The target that a value asks for: only a text can name one. -/
def ofJson? : Json → Option Target
  | .string s => ofName? s
  | _ => none

/-- The program of a graph for a target. -/
def program (limit : Nat) : Target → Graph → Audited EmitError Program
  | event => eventProgram limit
  | simulation => simulationProgram limit

end Target

/-- Where a graph is loaded from. -/
inductive GraphSource where
  /-- A document. -/
  | document (v : Json)
  /-- A file with a document. -/
  | file (p : Path)
  deriving DecidableEq, Repr

/-- The source that a value stands for: a text is a path, anything else a document. -/
def GraphSource.ofJson : Json → GraphSource
  | .string s => .file (Path.ofString s)
  | v => .document v

/-- The same computation with failures about the value of the input taken as faults of the graph. -/
def blameGraph {ε α : Type} (x : Audited (Failure ε) α) : Audited (Failure ε) α :=
  x.mapError fun e => if e.isInvalidValue then .compile (.invalidGraph e.message) else e

/-! ## On a machine -/

namespace Machine

variable {ε : Type}

/-- Gives out a program text that is accepted. -/
def accept (m : Machine ε) (g : Graph) (t : Target) (source : String) :
    Audited (Failure ε) String :=
  match m.readSource source with
  | .accepted => do
    Audited.report [.compiled g.name g.nodes.length g.edges.length t.name]
    return source
  | .fault .nullCharacter => .fail .nullInSource
  | .fault f => do
    Audited.report [.rejected t.name g.name f.message]
    .fail (.compile (.rejected f))
  | .tooDeep => do
    Audited.report [.tooDeep g.name t.name]
    .fail (.compile .tooDeep)
  | .broken x => .fail (.machine x)

/-- The program text of a graph for a target. -/
def compile (m : Machine ε) (g : Graph) (t : Target) : Audited (Failure ε) String :=
  let built := t.program m.depthLimit g
  match built.outcome with
  | .ok p => do
    Audited.report built.notices
    m.accept g t p.text
  | .error .tooDeep => do
    Audited.report (built.notices ++ [.tooDeep g.name t.name])
    .fail (.compile .tooDeep)
  | .error .longInteger => do
    Audited.report built.notices
    .fail .longInteger

/-- The program text of a graph for the target that a value asks for. -/
def compileFor (m : Machine ε) (g : Graph) (requested : Json) : Audited (Failure ε) String :=
  match requested with
  | .array _ => .fail (.structuredTarget true)
  | .object _ => .fail (.structuredTarget false)
  | _ =>
    match Target.ofJson? requested with
    | some t => m.compile g t
    | none => .fail (.compile (.unknownTarget requested.plainText))

/-- The value of the JSON text in a file. -/
def readJson (m : Machine ε) (t : FileTree) (p : Path) : Except (Failure ε) Json := do
  let bytes ← (m.disk.readFile t p).mapError .ofDisk
  let chars ← (Utf8.decode bytes).mapError .decode
  (Json.readWithin m.nestingLimit (Utf8.unifyLineEnds chars)).mapError .json

/-- The graph of a file. -/
def graphOfFile (m : Machine ε) (t : FileTree) (strict : Bool) (p : Path) :
    Audited (Failure ε) Graph := do
  let v ← Audited.lift (m.readJson t p)
  (Graph.ofJson strict v).mapError .load

/-- The graph of a source. -/
def load (m : Machine ε) (t : FileTree) (strict : Bool) : GraphSource → Audited (Failure ε) Graph
  | .document v => (Graph.ofJson strict v).mapError .load
  | .file p => m.graphOfFile t strict p

/-- Loads a graph and compiles it for the target that a value asks for. -/
def compileSource (m : Machine ε) (t : FileTree) (strict : Bool) (source : GraphSource)
    (requested : Json) : Audited (Failure ε) String := do
  let g ← blameGraph (m.load t strict source)
  m.compileFor g requested

/-- Checks the document in a file and gives its value. -/
def validateFile (m : Machine ε) (t : FileTree) (strict : Bool) (p : Path) :
    Audited (Failure ε) Json := do
  let v ← Audited.lift (m.readJson t p)
  let _ ← (Document.check strict v).mapError fun e => .load (.check e)
  return v

end Machine

/-! ## On the standard machine -/

/-- The program text of a graph for the target that a value asks for. -/
def Graph.compileFor (g : Graph) (requested : Json) : Audited Failure String :=
  Machine.standard.compileFor g requested

/-- The graph of a file. -/
def Graph.ofFile (t : FileTree) (strict : Bool) (p : Path) : Audited Failure Graph :=
  Machine.standard.graphOfFile t strict p

/-- The graph of a source. -/
def GraphSource.load (t : FileTree) (strict : Bool) (source : GraphSource) :
    Audited Failure Graph :=
  Machine.standard.load t strict source

/-- Loads a graph and compiles it for the target that a value asks for. -/
def compileSource (t : FileTree) (strict : Bool) (source : GraphSource) (requested : Json) :
    Audited Failure String :=
  Machine.standard.compileSource t strict source requested

/-- Checks the document in a file and gives its value. -/
def validateFile (t : FileTree) (strict : Bool) (p : Path) : Audited Failure Json :=
  Machine.standard.validateFile t strict p

end LogicGraph
