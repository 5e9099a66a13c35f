import LogicGraph.Number.Binary64
import LogicGraph.Text.Digit
import LogicGraph.Text.Quoted

/-!
# Numerals

Text that spells a number. Digits may come from any script, and one underscore may stand between two
digits. An integer has a sign and digits; a double may also have a point, an exponent, or be one of
the words for infinity and for no number. Integers of more than 4300 digits are refused.

## Main definitions

* `LogicGraph.Numeral.Fault` — why a text is no integer.
* `LogicGraph.Numeral.readInt` — the integer that a text spells.
* `LogicGraph.Numeral.readBinary64?` — the double that a text spells.
* `LogicGraph.Numeral.withinLimit` — whether an integer has few enough digits to be written.

## Implementation notes

The readers take text without blanks at its ends.
-/

namespace LogicGraph.Numeral

/-- The greatest number of digits of an integer that is read or written. -/
def digitLimit : Nat := 4300

/-- Why a text is no integer. -/
inductive Fault where
  /-- The text has more digits than are read. -/
  | tooLong (digits : Nat)
  /-- The text is not a sign and digits. -/
  | malformed (text : String)
  deriving DecidableEq, Repr

/-- The wording of a fault; a long text is cut after 200 characters of its quoted form. -/
def Fault.message : Fault → String
  | .tooLong digits =>
    s!"Exceeds the limit ({digitLimit} digits) for integer string conversion: " ++
      s!"value has {digits} digits; use sys.set_int_max_str_digits() to increase the limit"
  | .malformed text =>
    "invalid literal for int() with base 10: " ++
      String.ofList ((Text.quotedChars text.toList).take 200)

/-- The wording for an integer that has too many digits to be written. -/
def tooLongToWrite : String :=
  s!"Exceeds the limit ({digitLimit} digits) for integer string conversion; " ++
    "use sys.set_int_max_str_digits() to increase the limit"

/-- Whether an integer has few enough digits to be written. -/
def withinLimit (n : Int) : Bool :=
  decide (n.natAbs < Nat.pow 10 digitLimit)

/-- The number that digits spell. -/
def ofDigits (ds : List Nat) : Nat :=
  ds.foldl (fun n d => 10 * n + d) 0

/-- The digits in front of a text, with single underscores between them taken off, and the rest. -/
def digitsInFront : List Char → List Nat × List Char
  | [] => ([], [])
  | c :: cs =>
    match Text.decimalDigit? c with
    | none => ([], c :: cs)
    | some d =>
      match cs with
      | '_' :: rest =>
        match digitsInFront rest with
        | ([], _) => ([d], '_' :: rest)
        | (ds, rest) => (d :: ds, rest)
      | cs =>
        let (ds, rest) := digitsInFront cs
        (d :: ds, rest)

/-- The digits that make up a whole text. -/
def allDigits? (cs : List Char) : Option (List Nat) :=
  match digitsInFront cs with
  | ([], _) => none
  | (ds, []) => some ds
  | (_, _ :: _) => none

/-- The sign in front of a text, `true` for minus, and the rest. -/
def sign : List Char → Bool × List Char
  | '-' :: cs => (true, cs)
  | '+' :: cs => (false, cs)
  | cs => (false, cs)

/-- The integer that a text spells. -/
def readInt (cs : List Char) : Except Fault Int :=
  let (negative, body) := sign cs
  let ds := (digitsInFront body).1
  if digitLimit < ds.length then .error (.tooLong ds.length)
  else
    match allDigits? body with
    | none => .error (.malformed (String.ofList cs))
    | some ds => .ok (if negative then -(ofDigits ds : Int) else ofDigits ds)

/-- The digits of an optional part of a numeral. -/
def optionalDigits? (cs : List Char) : Option (List Nat) :=
  if cs = [] then some [] else allDigits? cs

/-- The exponent that is spelled behind an exponent mark. -/
def exponent? (cs : List Char) : Option Int :=
  let (negative, body) := sign cs
  (allDigits? body).map fun ds => if negative then -(ofDigits ds : Int) else ofDigits ds

/-- The double spelled by digits, a point and an exponent. -/
def decimal? (negative : Bool) (cs : List Char) : Option Binary64 := do
  let isMark := fun c => c == 'e' || c == 'E'
  let mantissa := cs.takeWhile (!isMark ·)
  let e ← match cs.dropWhile (!isMark ·) with
    | [] => some 0
    | _ :: rest => exponent? rest
  let whole ← optionalDigits? (mantissa.takeWhile (· ≠ '.'))
  let fraction ← match mantissa.dropWhile (· ≠ '.') with
    | [] => some []
    | _ :: rest => optionalDigits? rest
  if whole = [] ∧ fraction = [] then none
  else some (Binary64.ofDecimal negative (ofDigits (whole ++ fraction)) (e - fraction.length))

/-- The double that a text spells. -/
def readBinary64? (cs : List Char) : Option Binary64 :=
  let (negative, body) := sign cs
  let lower := body.map Char.toLower
  if lower = "inf".toList ∨ lower = "infinity".toList then some (.infinite negative)
  else if lower = "nan".toList then some .nan
  else decimal? negative body

end LogicGraph.Numeral
