import LogicGraph.Emission.Body
import LogicGraph.Files.Disk
import LogicGraph.Json.Reader
import LogicGraph.Program.SourceCheck

/-!
# Machines

The library compiles on a machine, and what it can rely on there differs from one machine to the
next: how deeply calls may nest, what the reader of the generated language does with a text, which
texts can be printed, and what becomes of files. A machine is taken as it is, with failures of its
own that the library neither foresees nor deals with.

## Main definitions

* `LogicGraph.Reading` — what the reader of the generated language does with a text.
* `LogicGraph.Machine` — what the library relies on.
* `LogicGraph.Machine.reliable` — a machine that never fails.
* `LogicGraph.Machine.standard` — the machine that is meant if none is named.
-/

namespace LogicGraph

/-- What the reader of the generated language does with a text; `ε` are failures that are no fault
of the text. -/
inductive Reading (ε : Type) where
  /-- It accepts the text. -/
  | accepted
  /-- It finds a fault. -/
  | fault (f : SourceFault)
  /-- It does not go as deep as the text is nested. -/
  | tooDeep
  /-- It gives out. -/
  | broken (x : ε)
  deriving DecidableEq, Repr

/-- The end of a check as a reading. -/
def Reading.ofCheck {ε : Type} : Except SourceFault Unit → Reading ε
  | .ok () => accepted
  | .error f => fault f

/-- What is printed on. -/
inductive Stream where
  /-- The output. -/
  | out
  /-- The messages about failures. -/
  | err
  deriving DecidableEq, Repr

/-- What the library relies on where it runs; `ε` are the failures of the machine itself. -/
structure Machine (ε : Type) where
  /-- The greatest depth of a walk through a graph. -/
  depthLimit : Nat
  /-- The depth of nesting up to which JSON text is read. -/
  nestingLimit : Nat
  /-- What the reader of the generated language does with a text. -/
  readSource : String → Reading ε
  /-- The failure to print a text on a stream, which may depend on what stands there already. -/
  refusal? : Stream → String → String → Option ε
  /-- What becomes of files. -/
  disk : Disk ε

namespace Machine

/-- The machine with the usual limits that never fails: it reads a program text as far as the check
does, prints everything, and keeps all files. -/
def reliable (ε : Type) : Machine ε where
  depthLimit := LogicGraph.depthLimit
  nestingLimit := Json.nestingLimit
  readSource source := .ofCheck (checkSource source)
  refusal? _ _ _ := none
  disk := .sound

/-- The machine that is meant if none is named. -/
def standard : Machine Empty :=
  reliable Empty

end Machine

end LogicGraph
