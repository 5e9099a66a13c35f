/-!
# Identifiers

Free text becomes an identifier of the generated language. The text is put into lower case, every
character that is no letter, digit or underscore of ASCII becomes an underscore, a leading digit
gets an underscore in front and a keyword one behind. An empty text is replaced by a fallback text,
and by `node` when the fallback is empty too.

## Main definitions

* `LogicGraph.Text.keywords` — the reserved words of the generated language, as far as they are in
  lower case.
* `LogicGraph.Text.IsIdentifier` — the identifiers that are in use: lower case and no keyword.
* `LogicGraph.Text.identifier` — the identifier for a text.

## Implementation notes

Of the characters outside ASCII only two have a letter of ASCII in their lower case: the dotted
capital I, whose lower case is `i` followed by a combining dot, and the Kelvin sign, whose lower
case is `k`. For all others the lower case is one character outside ASCII, which becomes an
underscore.
-/

namespace LogicGraph.Text

/-- The keywords of the generated language that are in lower case. -/
def keywords : List String :=
  ["and", "as", "assert", "async", "await", "break", "class", "continue", "def", "del", "elif",
   "else", "except", "finally", "for", "from", "global", "if", "import", "in", "is", "lambda",
   "nonlocal", "not", "or", "pass", "raise", "return", "try", "while", "with", "yield"]

/-- Whether a character may stand in an identifier. -/
def isIdentifierChar (c : Char) : Bool :=
  c.isLower || c.isDigit || c == '_'

/-- What is said of all characters of a text is decided along the text, and not along all characters
that there are. -/
instance (priority := high) decidableForallMemChars (P : Char → Prop) [DecidablePred P]
    (cs : List Char) :
    Decidable (∀ c ∈ cs, P c) :=
  List.decidableBAll P cs

/-- What is said of a character that may be absent is decided by that character alone. -/
instance (priority := high) decidableForallMemChar? (P : Char → Prop) [DecidablePred P]
    (c? : Option Char) :
    Decidable (∀ c ∈ c?, P c) :=
  c?.decidableForallMem

/-- An identifier: lower-case letters, digits and underscores, not led by a digit, no keyword. -/
def IsIdentifier (s : String) : Prop :=
  s.toList ≠ [] ∧ (∀ c ∈ s.toList, isIdentifierChar c = true) ∧
    (∀ c ∈ s.toList.head?, c.isDigit = false) ∧ s ∉ keywords

/-- It is decidable whether a text is an identifier. -/
instance (s : String) : Decidable (IsIdentifier s) :=
  inferInstanceAs (Decidable (_ ∧ _ ∧ _ ∧ _))

/-- What a character contributes to an identifier: its lower case, with an underscore for every
character that may not stand in an identifier. -/
def identifierChars (c : Char) : List Char :=
  if isIdentifierChar c then [c]
  else if c.isUpper then [c.toLower]
  else if c.toNat = 0x130 then ['i', '_']
  else if c.toNat = 0x212A then ['k']
  else ['_']

/-- A text led by a digit gets an underscore in front. -/
def guardDigit : List Char → List Char
  | [] => []
  | c :: cs => if c.isDigit then '_' :: c :: cs else c :: cs

/-- A keyword gets an underscore behind. -/
def guardKeyword (s : String) : String :=
  if s ∈ keywords then s ++ "_" else s

/-- The identifier that a text itself gives; empty for the empty text alone. -/
def cleaned (s : String) : String :=
  guardKeyword (String.ofList (guardDigit (s.toList.flatMap identifierChars)))

/-- The identifier of last resort. -/
def lastResort : String := "node"

/-- The identifier for a text, from the fallback when the text is empty. -/
def identifier (raw : String) (fallback : String) : String :=
  if cleaned raw ≠ "" then cleaned raw
  else if cleaned fallback ≠ "" then cleaned fallback
  else lastResort

end LogicGraph.Text
