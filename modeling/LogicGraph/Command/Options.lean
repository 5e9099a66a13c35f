import LogicGraph.Command.Help
import LogicGraph.Compile

/-!
# Options of the command line

The command takes one path and a few options. An option may be written with its value behind an
equals sign, and shortened to any beginning that no other option shares. After two dashes alone
everything is taken as it is. What looks like an option, but is none, is left over; and so is every
path after the first. Two dashes behind an equals sign are no value: the option is then left without
one.

## Main definitions

* `LogicGraph.Command.Options` — what the command is asked to do.
* `LogicGraph.Command.Request` — options, a call for help, or a mistake.
* `LogicGraph.Command.parse` — the request that arguments make.

## Implementation notes

First every argument is classified on its own, then they are consumed from left to right: an option
with the value behind it, or the path. A call for help and most mistakes take effect where they are
met; leftover arguments are reported only at the end, and after a missing path.
-/

namespace LogicGraph.Command

/-- What the command is asked to do. -/
structure Options where
  /-- The path of the graph. -/
  graph : Option String := none
  /-- The target; none if the option was left without a value. -/
  target : Option Target := some .event
  /-- The directory for the program; none if the option was left without a value. -/
  out : Option String := some "compiled"
  /-- Whether the program is printed instead of written. -/
  printOnly : Bool := false
  /-- Whether flaws are errors. -/
  strict : Bool := false
  deriving DecidableEq, Repr

/-- The options of the command. -/
inductive Flag where
  /-- The long text about the command. -/
  | help
  /-- The target. -/
  | target
  /-- The directory for the program. -/
  | out
  /-- Print instead of write. -/
  | print
  /-- Flaws are errors. -/
  | strict
  deriving DecidableEq, Repr

/-- All spellings of options. -/
def spellings : List (String × Flag) :=
  [("-h", .help), ("--help", .help), ("--target", .target), ("--out", .out), ("--print", .print),
   ("--strict", .strict)]

/-- An option in a message. -/
def Flag.name : Flag → String
  | .help => "-h/--help"
  | .target => "--target"
  | .out => "--out"
  | .print => "--print"
  | .strict => "--strict"

/-- Whether an option has a value. -/
def Flag.takesValue : Flag → Bool
  | .target | .out => true
  | _ => false

/-- Why the arguments are not understood. -/
inductive UsageError where
  /-- The path is missing. -/
  | missingPath
  /-- Arguments are left over. -/
  | leftover (args : List String)
  /-- An option is shortened too much. -/
  | ambiguous (arg : String) (matching : List String)
  /-- The value of an option is missing. -/
  | missingValue (f : Flag)
  /-- An option without a value is given one. -/
  | needlessValue (f : Flag) (value : String)
  /-- The target is not known. -/
  | unknownTarget (value : String)
  deriving DecidableEq, Repr

/-- The wording of a mistake. -/
def UsageError.message : UsageError → String
  | .missingPath => "the following arguments are required: graph.json"
  | .leftover args => "unrecognized arguments: " ++ " ".intercalate args
  | .ambiguous arg matching =>
    "ambiguous option: " ++ arg ++ " could match " ++ ", ".intercalate matching
  | .missingValue f => s!"argument {f.name}: expected one argument"
  | .needlessValue f value => s!"argument {f.name}: ignored explicit argument " ++ Text.quoted value
  | .unknownTarget value =>
    "argument --target: invalid choice: " ++ Text.quoted value ++
      " (choose from 'event', 'simulation')"

/-- What arguments ask for. -/
inductive Request where
  /-- To run. -/
  | run (o : Options)
  /-- The long text about the command. -/
  | help
  /-- Nothing that is understood. -/
  | mistake (e : UsageError)
  deriving DecidableEq, Repr

/-! ## Single arguments -/

/-- How an argument is taken. -/
inductive Token where
  /-- A path or a value. -/
  | plain (s : String)
  /-- The two dashes after which everything is plain. -/
  | separator
  /-- An option; a value may stand in the same argument. -/
  | option (f : Flag) (isShort : Bool) (value : Option String)
  /-- What looks like an option and is none. -/
  | unknown (s : String)
  deriving DecidableEq, Repr

/-- An argument cut at its first equals sign. -/
def cutAtEquals (s : String) : String × Option String :=
  let (before, behind) := Text.cutAt '=' s.toList
  (String.ofList before, behind.map String.ofList)

/-- The long spellings that start with the given text. -/
def completions (stem : String) : List (String × Flag) :=
  spellings.filter fun p => (Text.afterStem? stem.toList p.1.toList).isSome

/-- Whether characters are decimal digits, and at least one. -/
def areDigits (cs : List Char) : Bool :=
  !cs.isEmpty && cs.all fun c => (Text.decimalDigit? c).isSome

/-- Whether an argument looks like a negative number. -/
def isNegativeNumber (s : String) : Bool :=
  match s.toList with
  | '-' :: cs =>
    let cs := if cs.getLast? = some '\n' then cs.dropLast else cs
    let whole := cs.takeWhile fun c => (Text.decimalDigit? c).isSome
    match cs.drop whole.length with
    | [] => areDigits whole
    | '.' :: rest => areDigits rest
    | _ => false
  | _ => false

/-- An argument that starts with a dash and is no option. -/
def looseToken (s : String) : Token :=
  if isNegativeNumber s || s.toList.contains ' ' then .plain s else .unknown s

/-- A shortened long option. -/
def longToken (s : String) : Except UsageError Token :=
  let (stem, value) := cutAtEquals s
  match completions stem with
  | [] => .ok (looseToken s)
  | [(_, f)] => .ok (.option f false value)
  | many => .error (.ambiguous s (many.map (·.1)))

/-- An argument that starts with a single dash: a short option with something behind it, or none. -/
def shortToken (s : String) : Token :=
  match s.toList with
  | '-' :: 'h' :: rest => .option .help true (some (String.ofList rest))
  | _ => looseToken s

/-- How an argument is taken, if everything before it was taken on its own. -/
def token (s : String) : Except UsageError Token :=
  match spellings.lookup s with
  | some f => .ok (.option f (s == "-h") none)
  | none =>
    match s.toList with
    | '-' :: '-' :: _ =>
      let (stem, value) := cutAtEquals s
      match spellings.lookup stem, value with
      | some f, some v => .ok (.option f false (some v))
      | _, _ => longToken s
    | ['-'] => .ok (.plain s)
    | '-' :: _ =>
      match cutAtEquals s with
      | ("-h", some v) => .ok (.option .help true (some v))
      | _ => .ok (shortToken s)
    | _ => .ok (.plain s)

/-- How arguments are taken: after two dashes everything is plain. -/
def tokens : List String → Except UsageError (List Token)
  | [] => .ok []
  | "--" :: rest => .ok (.separator :: rest.map .plain)
  | s :: rest => do
    let t ← token s
    let ts ← tokens rest
    return t :: ts

/-! ## The arguments together -/

/-- Why consuming arguments ends early. -/
inductive Stop where
  /-- A call for help. -/
  | help
  /-- A mistake. -/
  | mistake (e : UsageError)
  deriving DecidableEq, Repr

/-- The value that an option is given; two dashes are none. -/
def givenValue? (value : String) : Option String :=
  if value = "--" then none else some value

/-- The options with one of them set. -/
def setFlag (o : Options) (f : Flag) (value : String) : Except Stop Options :=
  match f with
  | .help => .error .help
  | .target =>
    match givenValue? value with
    | none => .ok { o with target := none }
    | some name =>
      match Target.ofName? name with
      | some t => .ok { o with target := some t }
      | none => .error (.mistake (.unknownTarget name))
  | .out => .ok { o with out := givenValue? value }
  | .print => .ok { o with printOnly := true }
  | .strict => .ok { o with strict := true }

/-- What stands in one argument behind the short option for help: it may be repeated, and anything
else is a value that it does not take. -/
def helpTail : List Char → Stop
  | ['h'] => .help
  | 'h' :: rest => helpTail rest
  | cs => .mistake (.needlessValue .help (String.ofList cs))

/-- The options after an option with a value in the same argument. -/
def explicitFlag (o : Options) (f : Flag) (isShort : Bool) (value : String) : Except Stop Options :=
  if f.takesValue then setFlag o f value
  else if isShort then .error (helpTail value.toList)
  else .error (.mistake (.needlessValue f value))

/-- Consumes arguments from left to right: the options set and the arguments left over, the last one
first. -/
def consume : Options → List String → List Token → Except Stop (Options × List String)
  | o, left, [] => .ok (o, left)
  | o, left, .unknown s :: rest => consume o (s :: left) rest
  | o, left, .option f isShort (some value) :: rest => do
    let o ← explicitFlag o f isShort value
    consume o left rest
  | o, left, .option f _ none :: rest =>
    if f.takesValue then
      match rest with
      | .plain value :: rest => do
        let o ← setFlag o f value
        consume o left rest
      | _ => .error (.mistake (.missingValue f))
    else do
      let o ← setFlag o f ""
      consume o left rest
  | o, left, .plain s :: rest =>
    match o.graph with
    | some _ => consume o (s :: left) rest
    | none =>
      match rest with
      | .separator :: rest => consume { o with graph := some s } left rest
      | rest => consume { o with graph := some s } left rest
  | o, left, .separator :: rest =>
    match o.graph, rest with
    | none, .plain s :: rest => consume { o with graph := some s } left rest
    | _, rest => consume o ("--" :: left) rest

/-- The request that arguments make. -/
def parse (args : List String) : Request :=
  match tokens args with
  | .error e => .mistake e
  | .ok ts =>
    match consume {} [] ts with
    | .error .help => .help
    | .error (.mistake e) => .mistake e
    | .ok (o, left) =>
      if o.graph = none then .mistake .missingPath
      else if left ≠ [] then .mistake (.leftover left.reverse)
      else .run o

end LogicGraph.Command
