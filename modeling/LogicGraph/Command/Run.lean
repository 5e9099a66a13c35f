import LogicGraph.Command.Options

/-!
# Running the command

The command checks the graph in a file, loads it, compiles it, and prints the program or writes it
to a file that is named after the graph. It says what it does as it goes along. A file that is no
JSON or no graph, and a graph that is not compiled, end it with a message; other failures leave it
as they are. So does a text that cannot be printed, at whatever point it is met: the lines before it
stay printed, and a file that has been written stays written.

## Main definitions

* `LogicGraph.Command.Console` — what has been printed.
* `LogicGraph.Command.print` — prints texts until one is refused.
* `LogicGraph.Command.Run` — what running the command gives.
* `LogicGraph.Command.fileName` — the name of the file for a graph.
* `LogicGraph.Command.executeOn` — runs the command on a machine with a file tree.
* `LogicGraph.Command.execute` — the same on the standard machine.
-/

namespace LogicGraph.Command

/-- What has been printed. -/
structure Console where
  /-- The output. -/
  out : String := ""
  /-- The messages about failures. -/
  err : String := ""
  deriving DecidableEq, Repr

namespace Console

/-- What stands on a stream. -/
def on (c : Console) : Stream → String
  | .out => c.out
  | .err => c.err

/-- The console with more text on a stream. -/
def add (c : Console) (s : Stream) (text : String) : Console :=
  match s with
  | .out => { c with out := c.out ++ text }
  | .err => { c with err := c.err ++ text }

end Console

/-- What running the command gives. -/
structure Run (ε : Type := Empty) where
  /-- What has been printed. -/
  console : Console
  /-- The notices. -/
  notices : List Notice := []
  /-- The files afterwards. -/
  tree : FileTree
  /-- The exit code, or the failure that has not been dealt with. -/
  ending : Except (Failure ε) Nat

/-- The name of the file for a graph: one component, whatever the graph is called. -/
def fileName (graphName : String) : String :=
  Text.identifier graphName "graph" ++ ".py"

variable {ε : Type}

/-- Prints texts one after the other, up to the first that is refused. -/
def print (m : Machine ε) (s : Stream) : Console → List String → Console × Option ε
  | c, [] => (c, none)
  | c, text :: rest =>
    match m.refusal? s (c.on s) text with
    | some x => (c, some x)
    | none => print m s (c.add s text) rest

/-- Prints texts and goes on, or ends as a failure of the machine if one of them is refused. -/
def printing (m : Machine ε) (s : Stream) (tree : FileTree) (c : Console) (notices : List Notice)
    (texts : List String) (next : Console → Run ε) : Run ε :=
  match print m s c texts with
  | (c, none) => next c
  | (c, some x) => { console := c, notices, tree, ending := .error (.machine x) }

/-- A line of progress. -/
def progressLine (topic value : String) : String :=
  "[compile_from_json] " ++ topic ++ ": " ++ value ++ "\n"

/-- The lines about what is to be compiled. -/
def headerLines (name target : String) : List String :=
  [progressLine "graph  " name, progressLine "target " target]

/-- The lines about a graph that has been loaded. -/
def countLines (g : Graph) : List String :=
  [progressLine "nodes  " (toString g.nodes.length),
    progressLine "edges  " (toString g.edges.length)]

/-- The line for a complaint. -/
def complaintLine (s : String) : String :=
  "[error] " ++ s ++ "\n"

/-- Whether a failure to check a file is dealt with, and how it is called. -/
def checkComplaint? : Failure ε → Option String
  | .json (.malformed fault place) =>
    some ("Not valid JSON: " ++ (Json.ReadError.malformed fault place).message)
  | .load (.check (.schema e)) => some ("Schema validation failed: " ++ e.message)
  | _ => none

/-- Whether a failure to load a graph is dealt with, and how it is called. -/
def loadComplaint? (e : Failure ε) : Option String :=
  if e.isInvalidValue then some ("Invalid graph: " ++ e.message) else none

/-- Whether a failure to compile is dealt with, and how it is called. -/
def compileComplaint? : Failure ε → Option String
  | .compile e => some ("Compile failed (" ++ e.reason ++ "): " ++ e.message)
  | _ => none

/-- One stage of the command: goes on with its result, or ends with a complaint if the failure is
dealt with, and as a failure if it is not. -/
def stage {α : Type} (m : Machine ε) (tree : FileTree) (c : Console) (notices : List Notice)
    (x : Audited (Failure ε) α) (complaint? : Failure ε → Option String)
    (next : α → List Notice → Run ε) : Run ε :=
  let notices := notices ++ x.notices
  match x.outcome with
  | .ok a => next a notices
  | .error e =>
    match complaint? e with
    | some s =>
      printing m .err tree c notices [complaintLine s] fun c =>
        { console := c, notices, tree, ending := .ok 1 }
    | none => { console := c, notices, tree, ending := .error e }

/-- The name that the command calls a graph by: its own, or that of its file. -/
def graphName (v : Json) (p : Path) : String :=
  match v.field? "name" with
  | some (.string s) => if s = "" then p.stem else s
  | _ => p.stem

/-- Writes the program to its file. -/
def writeProgram (d : Disk ε) (directory : Path) (name source : String) : Disk.Update ε Path := do
  d.makeDirectories directory
  let p := directory.join (fileName name)
  d.writeFile p source.toUTF8.toList
  return p

/-- Prints the program or writes it. -/
def deliver (m : Machine ε) (tree : FileTree) (o : Options) (c : Console) (notices : List Notice)
    (name source : String) : Run ε :=
  if o.printOnly then
    printing m .out tree c notices [source ++ "\n"] fun c =>
      { console := c, notices, tree, ending := .ok 0 }
  else
    match o.out with
    | none => { console := c, notices, tree, ending := .error .noDirectory }
    | some out =>
      match writeProgram m.disk (Path.ofString out) name source tree with
      | .ok p written =>
        printing m .out written c notices [progressLine "wrote  " p.text] fun c =>
          { console := c, notices, tree := written, ending := .ok 0 }
      | .error e left => { console := c, notices, tree := left, ending := .error (.ofDisk e) }

/-- The target of the options as a value; an option without a value stands for the empty list. -/
def Options.requested (o : Options) : Json :=
  match o.target with
  | some t => .string t.name
  | none => .array []

/-- Runs the command on a file that is there. -/
def runFile (m : Machine ε) (tree : FileTree) (o : Options) (p : Path) : Run ε :=
  stage m tree {} [] (m.validateFile tree o.strict p) checkComplaint? fun v notices =>
    let name := graphName v p
    printing m .out tree {} notices (headerLines name o.requested.plainText) fun c =>
      stage m tree c notices ((Graph.ofJson o.strict v).mapError .load) loadComplaint?
        fun g notices =>
          printing m .out tree c notices (countLines g) fun c =>
            stage m tree c notices (m.compileFor g o.requested) compileComplaint?
              fun source notices => deliver m tree o c notices name source

/-- Runs the command with options. -/
def runOptions (m : Machine ε) (tree : FileTree) (o : Options) (p : Path) : Run ε :=
  match tree.isThere p with
  | .ok true => runFile m tree o p
  | .ok false =>
    printing m .err tree {} [] [complaintLine ("File not found: " ++ p.text)] fun c =>
      { console := c, tree, ending := .ok 1 }
  | .error e => { console := {}, tree, ending := .error (.file e) }

/-- Runs the command on a machine with a file tree. -/
def executeOn (m : Machine ε) (tree : FileTree) (args : List String) : Run ε :=
  match parse args with
  | .run o => runOptions m tree o (Path.ofString (o.graph.getD ""))
  | .help =>
    printing m .out tree {} [] [help] fun c => { console := c, tree, ending := .ok 0 }
  | .mistake e =>
    printing m .err tree {} [] [usage ++ commandName ++ ": error: " ++ e.message ++ "\n"]
      fun c => { console := c, tree, ending := .ok 2 }

/-- Runs the command on the standard machine with a file tree. -/
def execute (tree : FileTree) (args : List String) : Run :=
  executeOn .standard tree args

end LogicGraph.Command
