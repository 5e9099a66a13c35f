import LogicGraph.Json.Basic
import LogicGraph.Number.Numeral
import LogicGraph.Text.Stem

/-!
# Reading JSON text

The reader takes a whole text and gives its value, or the first fault with its place. It is more
liberal than the standard in three points: the words `NaN`, `Infinity` and `-Infinity` are numbers,
a key may be repeated, when the last value counts at the place of the first, and a character outside
the basic plane may be written as two escapes. It is stricter in two: nesting beyond a limit is
refused, and so is an escape for half of such a character that stands alone, as it spells none.

## Main definitions

* `LogicGraph.Json.SyntaxFault` — what is wrong with the form of a text.
* `LogicGraph.Json.TextFault` — what is wrong at a place.
* `LogicGraph.Json.ReadError` — why a text gives no value.
* `LogicGraph.Json.Scan.loneHalf?` — where half of a character is escaped alone.
* `LogicGraph.Json.readWithin` — the value of a text, with a limit to its nesting.
* `LogicGraph.Json.read` — the value of a text.

## Implementation notes

The scanner works on the list of characters that are left, so a place is the number of characters in
front of them. Every step either consumes a character or moves from a list to its first element, so
twice the length of the text bounds the number of steps; that bound is the `fuel` of the recursive
functions.
-/

namespace LogicGraph.Json

/-- What is wrong at a place of a text. -/
inductive SyntaxFault where
  /-- No value starts here. -/
  | expectedValue
  /-- No key starts here. -/
  | expectedKey
  /-- No colon stands here. -/
  | expectedColon
  /-- No comma stands here. -/
  | expectedComma
  /-- Something follows the value. -/
  | extraData
  /-- A string starts here and does not end. -/
  | unterminatedString
  /-- A control character stands in a string. -/
  | controlCharacter
  /-- A backslash is followed by no known letter. -/
  | badEscape
  /-- An escape has no four hexadecimal digits. -/
  | badCodePoint
  /-- The text starts with a byte order mark. -/
  | byteOrderMark
  deriving DecidableEq, Repr

/-- The wording of a fault. -/
def SyntaxFault.message : SyntaxFault → String
  | .expectedValue => "Expecting value"
  | .expectedKey => "Expecting property name enclosed in double quotes"
  | .expectedColon => "Expecting ':' delimiter"
  | .expectedComma => "Expecting ',' delimiter"
  | .extraData => "Extra data"
  | .unterminatedString => "Unterminated string starting at"
  | .controlCharacter => "Invalid control character at"
  | .badEscape => "Invalid \\escape"
  | .badCodePoint => "Invalid \\uXXXX escape"
  | .byteOrderMark => "Unexpected UTF-8 BOM (decode using utf-8-sig)"

/-- What keeps a text from having a value. -/
inductive TextFault where
  /-- The text is not in the form of a value. -/
  | form (f : SyntaxFault)
  /-- Half of a surrogate pair is escaped alone, so that a string has no text. -/
  | loneHalf
  deriving DecidableEq, Repr

/-- The wording of a fault. -/
def TextFault.message : TextFault → String
  | .form f => f.message
  | .loneHalf => "Unpaired surrogate escape"

/-- The two kinds of values that hold others. -/
inductive Container where
  /-- A list. -/
  | array
  /-- An object. -/
  | object
  deriving DecidableEq, Repr

/-- The word for a container. -/
def Container.name : Container → String
  | .array => "array"
  | .object => "object"

/-- A place in a text: line and column count from one, the offset from zero. -/
structure Place where
  /-- The line. -/
  line : Nat
  /-- The column. -/
  column : Nat
  /-- The number of characters in front. -/
  offset : Nat
  deriving DecidableEq, Repr

/-- Why a text gives no value. -/
inductive ReadError where
  /-- The text is malformed. -/
  | malformed (fault : TextFault) (place : Place)
  /-- An integer has too many digits. -/
  | longInteger (digits : Nat)
  /-- Values are nested too deeply. -/
  | tooDeep (container : Container)
  deriving DecidableEq, Repr

/-- The wording of an error. -/
def ReadError.message : ReadError → String
  | .malformed fault place =>
    s!"{fault.message}: line {place.line} column {place.column} (char {place.offset})"
  | .longInteger digits => (Numeral.Fault.tooLong digits).message
  | .tooDeep container =>
    "maximum recursion depth exceeded while decoding a JSON " ++ container.name ++
      " from a unicode string"

/-- The usual depth of nesting that is still read. -/
def nestingLimit : Nat := 980

namespace Scan

/-- Why scanning stops, with the characters from the place on. -/
inductive Stop where
  /-- The text is malformed. -/
  | fault (f : SyntaxFault) (rest : List Char)
  /-- An integer has too many digits. -/
  | longInteger (digits : Nat)
  /-- Values are nested too deeply. -/
  | tooDeep (container : Container)
  deriving DecidableEq, Repr

/-- What scanning gives: a result and the characters after it. -/
abbrev Result (α : Type) := Except Stop (α × List Char)

/-- Whether a character may stand between tokens. -/
def isSpace (c : Char) : Bool :=
  c == ' ' || c == '\t' || c == '\n' || c == '\r'

/-- The characters after the white space in front. -/
def skipSpace (cs : List Char) : List Char :=
  cs.dropWhile isSpace

/-- The value of a hexadecimal digit. -/
def hexDigit? (c : Char) : Option Nat :=
  if c.isDigit then some (c.toNat - '0'.toNat)
  else if 'a' ≤ c ∧ c ≤ 'f' then some (c.toNat - 'a'.toNat + 10)
  else if 'A' ≤ c ∧ c ≤ 'F' then some (c.toNat - 'A'.toNat + 10)
  else none

/-- The number that four hexadecimal digits spell, if at least one more character follows them. -/
def fourHex? : List Char → Option (Nat × List Char)
  | a :: b :: c :: d :: e :: rest => do
    let a ← hexDigit? a
    let b ← hexDigit? b
    let c ← hexDigit? c
    let d ← hexDigit? d
    some (4096 * a + 256 * b + 16 * c + d, e :: rest)
  | _ => none

/-- The character for a code unit. A surrogate that stands alone has none: the replacement character
takes its place while the rest of the text is read for faults, and then the text is refused
(`loneHalf?`). -/
def unitChar (n : Nat) : Char :=
  if 0xD800 ≤ n ∧ n ≤ 0xDFFF then Char.ofNat 0xFFFD else Char.ofNat n

/-- The character that an escape `\u` stands for; `cs` starts behind the `u`, and `here` at it. Two
escapes for the halves of a surrogate pair are one character. -/
def codePoint (here cs : List Char) : Result Char :=
  match fourHex? cs with
  | none => .error (.fault .badCodePoint here)
  | some (high, rest) =>
    if 0xD800 ≤ high ∧ high ≤ 0xDBFF then
      match rest with
      | '\\' :: 'u' :: more =>
        if more.length ≤ 4 then .ok (unitChar high, rest)
        else
          match fourHex? more with
          | none => .error (.fault .badCodePoint ('u' :: more))
          | some (low, after) =>
            if 0xDC00 ≤ low ∧ low ≤ 0xDFFF then
              .ok (Char.ofNat (0x10000 + (high - 0xD800) * 0x400 + (low - 0xDC00)), after)
            else .ok (unitChar high, rest)
      | _ => .ok (unitChar high, rest)
    else .ok (unitChar high, rest)

/-- The first escape for half of a surrogate pair that has not the other half next to it: the
characters from it on. `waiting` holds the characters from an escape for a first half on if it
stands right in front. As a text that is read has its backslashes in strings only, the strings need
not be told apart. -/
def loneHalf? : Option (List Char) → List Char → Option (List Char)
  | waiting, '\\' :: 'u' :: a :: b :: c :: d :: rest =>
    let here := '\\' :: 'u' :: a :: b :: c :: d :: rest
    let unit := ((fourHex? (a :: b :: c :: d :: rest)).map Prod.fst).getD 0
    if 0xDC00 ≤ unit ∧ unit ≤ 0xDFFF then
      if waiting.isSome then loneHalf? none rest else some here
    else
      match waiting with
      | some place => some place
      | none => loneHalf? (if 0xD800 ≤ unit ∧ unit ≤ 0xDBFF then some here else none) rest
  | some place, _ => some place
  | none, '\\' :: _ :: rest => loneHalf? none rest
  | none, _ :: rest => loneHalf? none rest
  | none, [] => none

/-- The character that an escape of one letter stands for. -/
def letterEscape? : Char → Option Char
  | '"' => some '"'
  | '\\' => some '\\'
  | '/' => some '/'
  | 'b' => some '\x08'
  | 'f' => some '\x0c'
  | 'n' => some '\n'
  | 'r' => some '\r'
  | 't' => some '\t'
  | _ => none

/-- The rest of a string; `opening` starts at its opening quote, and `done` holds the characters
read so far, the last one first. -/
def stringRest (opening : List Char) : Nat → List Char → List Char → Result String
  | 0, _, _ => .error (.fault .unterminatedString opening)
  | _ + 1, _, [] => .error (.fault .unterminatedString opening)
  | _ + 1, done, '"' :: rest => .ok (String.ofList done.reverse, rest)
  | _ + 1, _, ['\\'] => .error (.fault .unterminatedString opening)
  | fuel + 1, done, '\\' :: 'u' :: rest =>
    match codePoint ('u' :: rest) rest with
    | .error stop => .error stop
    | .ok (c, rest) => stringRest opening fuel (c :: done) rest
  | fuel + 1, done, '\\' :: c :: rest =>
    match letterEscape? c with
    | none => .error (.fault .badEscape ('\\' :: c :: rest))
    | some d => stringRest opening fuel (d :: done) rest
  | fuel + 1, done, c :: rest =>
    if c.toNat < 0x20 then .error (.fault .controlCharacter (c :: rest))
    else stringRest opening fuel (c :: done) rest

/-- The fraction of a number: a point and digits. Nothing is taken if a digit is missing. -/
def fraction (cs : List Char) : List Char × List Char :=
  match cs with
  | '.' :: rest =>
    if (rest.takeWhile Char.isDigit).isEmpty then ([], cs)
    else ('.' :: rest.takeWhile Char.isDigit, rest.dropWhile Char.isDigit)
  | _ => ([], cs)

/-- The exponent of a number: a mark, a sign and digits. Nothing is taken if a digit is missing. -/
def exponent (cs : List Char) : List Char × List Char :=
  match cs with
  | c :: rest =>
    if c = 'e' ∨ c = 'E' then
      let (sign, body) := match rest with
        | '-' :: more => (['-'], more)
        | '+' :: more => (['+'], more)
        | more => ([], more)
      if (body.takeWhile Char.isDigit).isEmpty then ([], cs)
      else (c :: sign ++ body.takeWhile Char.isDigit, body.dropWhile Char.isDigit)
    else ([], cs)
  | [] => ([], cs)

/-- The digits in front of the point: one zero, or digits that do not start with zero. -/
def wholeDigits (cs : List Char) : List Char × List Char :=
  match cs with
  | '0' :: rest => (['0'], rest)
  | cs => (cs.takeWhile Char.isDigit, cs.dropWhile Char.isDigit)

/-- A number. With a fraction or an exponent it is a double, otherwise an integer. -/
def number (cs : List Char) : Result Json :=
  let (sign, body) := match cs with
    | '-' :: rest => (['-'], rest)
    | rest => ([], rest)
  let (whole, afterWhole) := wholeDigits body
  if whole.isEmpty then .error (.fault .expectedValue cs)
  else
    let (frac, afterFrac) := fraction afterWhole
    let (expo, rest) := exponent afterFrac
    if frac.isEmpty && expo.isEmpty then
      match Numeral.readInt (sign ++ whole) with
      | .ok n => .ok (.number (.int n), rest)
      | .error _ => .error (.longInteger whole.length)
    else
      match Numeral.readBinary64? (sign ++ whole ++ frac ++ expo) with
      | some x => .ok (.number (.float x), rest)
      | none => .error (.fault .expectedValue cs)

/-- The values that are words. -/
def wordValues : List (List Char × Json) :=
  [("null".toList, .null), ("true".toList, .bool true), ("false".toList, .bool false),
   ("NaN".toList, .number (.float .nan)), ("Infinity".toList, .number (.float (.infinite false))),
   ("-Infinity".toList, .number (.float (.infinite true)))]

/-- A value without parts: a word or a number. -/
def scalar (cs : List Char) : Result Json :=
  match wordValues.findSome? fun (w, v) => (Text.afterStem? w cs).map (v, ·) with
  | some found => .ok found
  | none => number cs

mutual

/-- A value. At most `depth` more containers may be entered. -/
def value : Nat → Nat → List Char → Result Json
  | 0, _, cs => .error (.fault .expectedValue cs)
  | fuel + 1, depth, cs =>
    match cs with
    | '"' :: rest =>
      match stringRest cs fuel [] rest with
      | .error stop => .error stop
      | .ok (s, rest) => .ok (.string s, rest)
    | '[' :: rest =>
      match depth with
      | 0 => .error (.tooDeep .array)
      | depth + 1 =>
        match skipSpace rest with
        | ']' :: rest => .ok (.array [], rest)
        | rest => items fuel depth [] rest
    | '{' :: rest =>
      match depth with
      | 0 => .error (.tooDeep .object)
      | depth + 1 =>
        match skipSpace rest with
        | '}' :: rest => .ok (.object [], rest)
        | rest => fields fuel depth [] rest
    | cs => scalar cs

/-- The items of a list from one on; `done` holds the items read so far, the last one first. -/
def items : Nat → Nat → List Json → List Char → Result Json
  | 0, _, _, cs => .error (.fault .expectedValue cs)
  | fuel + 1, depth, done, cs =>
    match value fuel depth cs with
    | .error stop => .error stop
    | .ok (v, rest) =>
      match skipSpace rest with
      | ']' :: rest => .ok (.array (v :: done).reverse, rest)
      | ',' :: rest => items fuel depth (v :: done) (skipSpace rest)
      | rest => .error (.fault .expectedComma rest)

/-- The fields of an object from one on; `done` holds the fields read so far. -/
def fields : Nat → Nat → List (String × Json) → List Char → Result Json
  | 0, _, _, cs => .error (.fault .expectedKey cs)
  | fuel + 1, depth, done, cs =>
    match cs with
    | '"' :: rest =>
      match stringRest cs fuel [] rest with
      | .error stop => .error stop
      | .ok (key, rest) =>
        match skipSpace rest with
        | ':' :: rest =>
          match value fuel depth (skipSpace rest) with
          | .error stop => .error stop
          | .ok (v, rest) =>
            match skipSpace rest with
            | '}' :: rest => .ok (.object (insertField done key v), rest)
            | ',' :: rest => fields fuel depth (insertField done key v) (skipSpace rest)
            | rest => .error (.fault .expectedComma rest)
        | rest => .error (.fault .expectedColon rest)
    | cs => .error (.fault .expectedKey cs)

end

/-- A whole text: one value with nothing but white space around it. At most `limit` containers may
be entered. -/
def document (limit : Nat) (cs : List Char) : Except Stop Json :=
  match value (2 * cs.length + 2) limit (skipSpace cs) with
  | .error stop => .error stop
  | .ok (v, rest) =>
    match skipSpace rest with
    | [] => .ok v
    | rest => .error (.fault .extraData rest)

end Scan

/-- The place in a text at which `rest` is left. -/
def placeAt (text rest : List Char) : Place :=
  let before := text.take (text.length - rest.length)
  { line := before.count '\n' + 1
    column := (before.reverse.takeWhile (· ≠ '\n')).length + 1
    offset := before.length }

/-- The value of a text whose nesting is at most `limit`. A half of a character that is escaped
alone is looked for last, so that it hides no other fault. -/
def readWithin (limit : Nat) (text : List Char) : Except ReadError Json :=
  if text.head? = some (Char.ofNat 0xFEFF) then
    .error (.malformed (.form .byteOrderMark) (placeAt text text))
  else
    match Scan.document limit text with
    | .ok v =>
      match Scan.loneHalf? none text with
      | none => .ok v
      | some rest => .error (.malformed .loneHalf (placeAt text rest))
    | .error (.fault f rest) => .error (.malformed (.form f) (placeAt text rest))
    | .error (.longInteger digits) => .error (.longInteger digits)
    | .error (.tooDeep container) => .error (.tooDeep container)

/-- The value of some characters. -/
def readChars (text : List Char) : Except ReadError Json :=
  readWithin nestingLimit text

/-- The value of a text. -/
def read (text : String) : Except ReadError Json :=
  readChars text.toList

end LogicGraph.Json
