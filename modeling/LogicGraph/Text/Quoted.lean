import LogicGraph.Text.Printable

/-!
# Quoted texts

A quoted text is a string literal of the generated language. It is set in single quotes, or in
double quotes when the text holds a single quote and no double one. The quote and the backslash are
written with a backslash in front, the three common controls by their letters, and every other
character that is not printable by its code point.

## Main definitions

* `LogicGraph.Text.quoteMark` — the quote a text is set in.
* `LogicGraph.Text.escape` — how one character is written between the quotes.
* `LogicGraph.Text.quoted` — the literal.
-/

namespace LogicGraph.Text

/-- The lower-case hexadecimal digits of a number, with zeros in front up to the given width. -/
def hexPadded (width n : Nat) : List Char :=
  let digits := Nat.toDigits 16 n
  List.replicate (width - digits.length) '0' ++ digits

/-- The code point of a character as an escape: two, four or eight hexadecimal digits. -/
def codePointEscape (c : Char) : List Char :=
  if c.toNat < 0x100 then '\\' :: 'x' :: hexPadded 2 c.toNat
  else if c.toNat < 0x10000 then '\\' :: 'u' :: hexPadded 4 c.toNat
  else '\\' :: 'U' :: hexPadded 8 c.toNat

/-- How a character is written between two marks `mark`. -/
def escape (mark c : Char) : List Char :=
  if c = mark ∨ c = '\\' then ['\\', c]
  else if c = '\n' then ['\\', 'n']
  else if c = '\r' then ['\\', 'r']
  else if c = '\t' then ['\\', 't']
  else if isPrintable c then [c]
  else codePointEscape c

/-- The mark a text is set in: the single quote, unless the text holds it and no double quote. -/
def quoteMark (cs : List Char) : Char :=
  if '\'' ∈ cs ∧ '"' ∉ cs then '"' else '\''

/-- The characters of the literal for a text. -/
def quotedChars (cs : List Char) : List Char :=
  let mark := quoteMark cs
  mark :: cs.flatMap (escape mark) ++ [mark]

/-- The literal for a text. -/
def quoted (s : String) : String :=
  String.ofList (quotedChars s.toList)

end LogicGraph.Text
