/-!
# Acceptance of a program

A finished program text is accepted if the reader of the generated language takes it. As programs
are put together from whole statements, three faults of the text can be told from the text alone: a
null character in a comment or a description, too many levels of indentation, and a literal with too
many open brackets. The check looks for these. A reader may object to more than that, and it may
give out over a long text or one that is nested deeply; this depends on where it runs
(`LogicGraph.Reading`).

## Main definitions

* `LogicGraph.SourceFault` — why a text is not accepted.
* `LogicGraph.openBrackets?` — follows the brackets of one line, those in texts and comments left
  aside.
* `LogicGraph.checkSource` — the check.
-/

namespace LogicGraph

/-- Why a program text is not accepted. -/
inductive SourceFault where
  /-- The text holds a null character. -/
  | nullCharacter
  /-- A line is indented too deeply. -/
  | tooManyLevels (line : Nat)
  /-- A line opens too many brackets. -/
  | tooManyBrackets (line : Nat)
  /-- The text is malformed in another way. -/
  | malformed (wording : String)
  deriving DecidableEq, Repr

/-- The wording of a fault. -/
def SourceFault.message : SourceFault → String
  | .nullCharacter => "source code string cannot contain null bytes"
  | .tooManyLevels line => s!"too many levels of indentation (<unknown>, line {line})"
  | .tooManyBrackets line => s!"too many nested parentheses (<unknown>, line {line})"
  | .malformed wording => wording

/-- The first level of indentation that is too deep. -/
def levelLimit : Nat := 100

/-- The greatest number of brackets that may be open at once. -/
def bracketLimit : Nat := 200

/-- The number of brackets open after the rest of a line, or nothing if there are too many at some
place. `mark` is the quote that a text has been opened with. -/
def openBrackets? : Nat → Option Char → List Char → Option Nat
  | count, _, [] => some count
  | count, some mark, '\\' :: _ :: rest => openBrackets? count (some mark) rest
  | count, some mark, c :: rest =>
    openBrackets? count (if c = mark then none else some mark) rest
  | count, none, c :: rest =>
    if c = '#' then some count
    else if c = '\'' ∨ c = '"' then openBrackets? count (some c) rest
    else if c = '(' ∨ c = '[' ∨ c = '{' then
      if count = bracketLimit then none else openBrackets? (count + 1) none rest
    else if c = ')' ∨ c = ']' ∨ c = '}' then openBrackets? (count - 1) none rest
    else openBrackets? count none rest

/-- The level of indentation of a line. -/
def lineLevel (cs : List Char) : Nat :=
  (cs.takeWhile (· = ' ')).length / 4

/-- Checks lines from the given number on, with the given number of brackets open. Indentation
counts only where no bracket is open. -/
def checkLines : Nat → Nat → List (List Char) → Except SourceFault Unit
  | _, _, [] => .ok ()
  | line, count, cs :: rest =>
    if count = 0 ∧ levelLimit ≤ lineLevel cs then .error (.tooManyLevels line)
    else
      match openBrackets? count none cs with
      | none => .error (.tooManyBrackets line)
      | some count => checkLines (line + 1) count rest

/-- Checks a program text. -/
def checkSource (text : String) : Except SourceFault Unit :=
  if '\x00' ∈ text.toList then .error .nullCharacter
  else checkLines 1 0 (text.toList.splitOnP (· = '\n'))

end LogicGraph
