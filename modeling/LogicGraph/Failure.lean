import LogicGraph.Document.Interface
import LogicGraph.Document.Load
import LogicGraph.Emission.Simulation
import LogicGraph.Machine

/-!
# Failures

Everything that can keep an operation of the library from its result, by cause. Failures about the
value of an input are told apart from those about numbers out of range, files that are not there and
structures that are too deep, as callers treat the first kind as a fault of the graph. A machine may
have failures of its own; the standard one has none.

## Main definitions

* `LogicGraph.CompileError` — why a graph is not compiled.
* `LogicGraph.Failure` — why an operation fails.
* `LogicGraph.Failure.isInvalidValue` — whether the value of an input is at fault.
-/

namespace LogicGraph

/-- Why a graph is not compiled. -/
inductive CompileError where
  /-- The target is not known; its name is as it was given. -/
  | unknownTarget (name : String)
  /-- The graph is nested too deeply. -/
  | tooDeep
  /-- The text of the program is not accepted. -/
  | rejected (f : SourceFault)
  /-- The graph could not be loaded. -/
  | invalidGraph (message : String)
  deriving DecidableEq, Repr

namespace CompileError

/-- The short code of an error. -/
def reason : CompileError → String
  | unknownTarget _ => "unknown_target"
  | tooDeep => "too_deep"
  | rejected _ => "syntax"
  | invalidGraph _ => "invalid_snapshot"

/-- The wording of an error. -/
def message : CompileError → String
  | unknownTarget name => s!"unknown target '{name}' (expected one of: event, simulation)"
  | tooDeep => "graph nests triggers or branches too deeply to compile"
  | rejected f => "generated source is not valid Python: " ++ f.message
  | invalidGraph message => message

end CompileError

/-- Why an operation fails; `ε` are the failures of the machine. -/
inductive Failure (ε : Type := Empty) where
  /-- A graph is not compiled. -/
  | compile (e : CompileError)
  /-- A value gives no graph. -/
  | load (e : Document.LoadError)
  /-- An interface description gives no graph. -/
  | interface (e : ImportError)
  /-- Parts make no graph. -/
  | graph (f : GraphFault)
  /-- The name of a case port is made of digits that spell no number. -/
  | port (f : Numeral.Fault)
  /-- A text is no JSON. -/
  | json (e : Json.ReadError)
  /-- Bytes are no text. -/
  | decode (f : Utf8.Fault)
  /-- A file cannot be read or written. -/
  | file (e : FileError)
  /-- The text of a program holds a null character. -/
  | nullInSource
  /-- An integer has too many digits to be written. -/
  | longInteger
  /-- A walk through a graph is too deep. -/
  | tooDeep
  /-- A target is asked for by a list or an object, and not by a name. -/
  | structuredTarget (isList : Bool)
  /-- There is no value that names the directory for a program. -/
  | noDirectory
  /-- The machine fails. -/
  | machine (x : ε)
  deriving DecidableEq, Repr

namespace Failure

variable {ε : Type}

/-- The wording of a failure. -/
def message : Failure ε → String
  | compile e => e.message
  | load e => e.message
  | interface e => e.message
  | graph f => f.message
  | port f => f.message
  | json e => e.message
  | decode f => f.message
  | file e => e.message
  | nullInSource => SourceFault.nullCharacter.message
  | longInteger => Numeral.tooLongToWrite
  | tooDeep => "maximum recursion depth exceeded"
  | structuredTarget isList =>
      if isList then "unhashable type: 'list'" else "unhashable type: 'dict'"
  | noDirectory => "expected str, bytes or os.PathLike object, not list"
  | machine _ => "the machine has failed"

/-- Whether the value of an input is at fault. -/
def isInvalidValue : Failure ε → Bool
  | compile _ | interface _ | graph _ | port _ | decode _ | nullInSource | longInteger => true
  | load e => e.isInvalidValue
  | json (.tooDeep _) => false
  | json _ => true
  | file e => e.problem == .nullInPath
  | tooDeep | structuredTarget _ | noDirectory | machine _ => false

/-- The failure of an operation on files. -/
def ofDisk : FileError ⊕ ε → Failure ε
  | .inl e => .file e
  | .inr x => .machine x

/-- The failure of an emission on its own. -/
def ofEmit : EmitError → Failure
  | .tooDeep => .tooDeep
  | .longInteger => .longInteger

end Failure

end LogicGraph
