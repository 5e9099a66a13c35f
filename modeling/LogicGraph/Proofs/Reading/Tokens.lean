import Mathlib.Tactic.Common
import LogicGraph.Proofs.Number.Written
import LogicGraph.Proofs.Reading.TextLiteral
import LogicGraph.Program.Basic

set_option relaxedAutoImplicit false
set_option autoImplicit false

/-!
# Tokens

A line of the generated language is a sequence of names, numerals, text literals and signs. This
module reads a line as such a sequence, and says which tokens the parts of a generated line are read
as, whatever stands in front of them and behind.

## Main definitions

* `LogicGraph.Token` — the tokens.
* `LogicGraph.token?` — the token in front of a text.
* `LogicGraph.tokens` — the tokens of a line.
* `LogicGraph.Lexes`, `LogicGraph.LexesFreely` — a piece of a line with its tokens.

## Main results

* `LogicGraph.lexes_int`, `LogicGraph.Decimal.HasNumeral.lexes`, `LogicGraph.lexes_name`,
  `LogicGraph.lexes_quoted` — integers, decimals, names and quoted texts are read as one token each,
  the sign of an integer apart.
* `LogicGraph.Lexes.join`, `LogicGraph.Lexes.enclosed` — pieces with a sign between them or around
  them.

## Design

The longest token is taken, so that what a piece is read as depends on what follows it. A piece is
therefore read in front of everything that ends a token, and a sign with a blank behind it in front
of everything. What the language allows beyond names of ASCII letters, decimal numerals and text
literals without a letter in front is not read at all.
-/

namespace LogicGraph

open Text

/-- A token of the generated language. -/
inductive Token where
  /-- A name or a keyword. -/
  | name (s : String)
  /-- An integer. -/
  | integer (n : Nat)
  /-- A numeral with a point or an exponent. -/
  | decimal (t : Decimal)
  /-- A text literal that denotes the text. -/
  | text (s : String)
  /-- An operator, a bracket or another sign. -/
  | sign (s : String)
  deriving DecidableEq, Repr

/-! ## The reader -/

/-- Whether a character may stand in a name. -/
def isNameChar (c : Char) : Bool :=
  c.isAlphanum || c == '_'

/-- The fraction of a numeral from its point on, and the rest of the text. -/
def fractionPart : List Char → Option (List Char) × List Char
  | '.' :: cs => (some (cs.takeWhile Char.isDigit), cs.dropWhile Char.isDigit)
  | cs => (none, cs)

/-- The exponent of a numeral from its mark on, and the rest of the text. -/
def exponentPart : List Char → Option Int × List Char
  | [] => (none, [])
  | c :: cs =>
    let (negative, body) := Numeral.sign cs
    let ds := body.takeWhile Char.isDigit
    if (c = 'e' ∨ c = 'E') ∧ ds ≠ [] then
      let n := Nat.ofDigitChars 10 ds 0
      (some (if negative then -n else n), body.dropWhile Char.isDigit)
    else (none, c :: cs)

/-- The numeral in front of a text, and the rest of the text. An integer has no zero in front, and a
numeral is followed neither by a name nor by another point. -/
def numeral? (cs : List Char) : Option (Token × List Char) :=
  let whole := cs.takeWhile Char.isDigit
  let (fraction, cs) := fractionPart (cs.dropWhile Char.isDigit)
  let (exponent, rest) := exponentPart cs
  if rest.head?.any fun c => isNameChar c || c == '.' then none
  else if fraction.isNone && exponent.isNone then
    if whole.head? = some '0' ∧
      whole ≠ ['0'] then none else some (.integer (Nat.ofDigitChars 10 whole 0), rest)
  else
    let behind := fraction.getD []
    some (.decimal ⟨Nat.ofDigitChars 10 (whole ++ behind) 0, exponent.getD 0 - behind.length⟩, rest)

/-- The signs; one that goes on with another stands in front of it. -/
def signs : List String :=
  ["**=", "//=", ">>=", "<<=", "...", "==", "!=", "<=", ">=", "->", "+=", "-=", "*=", "/=", "%=",
    "&=", "|=", "^=", "@=", ":=",
   "**", "//", "<<", ">>", "+", "-", "*", "/", "%", "@", "&", "|", "^", "~", "<", ">", "=", "(",
   ")", "[", "]", "\x7b", "\x7d", ",", ":", ";", "."]

/-- The sign in front of a text, and the rest of the text; a point does not start a numeral. -/
def sign? (cs : List Char) : Option (Token × List Char) :=
  (signs.findSome? fun s => (afterStem? s.toList cs).map fun rest => (s, rest)).bind
    fun (s, rest) =>
    if s = "." ∧ rest.head?.any Char.isDigit then none else some (.sign s, rest)

/-- Whether a character is one of the two quotes. -/
def isQuote (c : Char) : Bool :=
  c == '\'' || c == '"'

/-- The token in front of a text, and the rest of the text. A name is not followed by a quote: it
could change what the text literal denotes. -/
def token? : List Char → Option (Token × List Char)
  | [] => none
  | c :: cs =>
    if isQuote c then (textLiteral? (c :: cs)).map fun (s, rest) => (.text (String.ofList s), rest)
    else if c.isDigit then numeral? (c :: cs)
    else if isNameChar c then
      let rest := (c :: cs).dropWhile isNameChar
      if rest.head?.any isQuote then none
        else some (.name (String.ofList ((c :: cs).takeWhile isNameChar)), rest)
    else sign? (c :: cs)

/-- Whether a character only stands between tokens. -/
def isGap (c : Char) : Bool :=
  c == ' ' || c == '\t'

/-- The tokens of a line of which `skip` many characters have been read already. A comment has
none. -/
def tokensFrom : Nat → List Char → Option (List Token)
  | _, [] => some []
  | skip + 1, _ :: cs => tokensFrom skip cs
  | 0, c :: cs =>
    if isGap c then tokensFrom 0 cs
    else if c = '#' then if '\n' ∈ cs ∨ '\r' ∈ cs then none else some []
    else (token? (c :: cs)).bind fun (t, rest) =>
      (tokensFrom (cs.length - rest.length) cs).map (t :: ·)

/-- The tokens of a line. -/
abbrev tokens (cs : List Char) : Option (List Token) :=
  tokensFrom 0 cs

/-! ## Pieces -/

/-- A text in front of which every token ends: it starts with a blank, a comma, a colon or a closing
bracket, if with anything. -/
def EndsToken (cs : List Char) : Prop :=
  ∀ c ∈ cs.head?, c ∈ [' ', ',', ':', ')', ']', '\x7d']

/-- A piece of a line with its tokens, in front of everything that ends a token. -/
def Lexes (cs : List Char) (ts : List Token) : Prop :=
  ∀ rest, EndsToken rest → tokens (cs ++ rest) = (tokens rest).map (ts ++ ·)

/-- A piece of a line with its tokens, in front of everything. -/
def LexesFreely (cs : List Char) (ts : List Token) : Prop :=
  ∀ rest, tokens (cs ++ rest) = (tokens rest).map (ts ++ ·)

/-- A class of characters does not start a text that ends every token, if it has no blank, comma,
colon or closing bracket. -/
lemma EndsToken.head?_eq_false {rest : List Char} (h : EndsToken rest) {p : Char → Bool}
    (hp : ∀ c ∈ [' ', ',', ':', ')', ']', '\x7d'], p c = false) : ∀ c ∈ rest.head?, p c = false :=
  fun c hc => hp c (h c hc)

/-- The same, for the first character as an option. -/
lemma EndsToken.any_head?_eq_false {rest : List Char} (h : EndsToken rest) {p : Char → Bool}
    (hp : ∀ c ∈ [' ', ',', ':', ')', ']', '\x7d'], p c = false) : rest.head?.any p = false := by
  rw [Option.any_eq_false]
  exact fun c hc => by simpa using h.head?_eq_false hp c hc

/-- The end of the text ends a token. -/
lemma endsToken_nil : EndsToken [] := by
  simp [EndsToken]

/-- A mark or a blank ends a token. -/
lemma endsToken_cons {c : Char} {cs : List Char} (hc : c ∈ [' ', ',', ':', ')', ']', '\x7d']) :
    EndsToken (c :: cs) := by
  intro d hd
  rwa [← Option.mem_some_iff.mp hd]

/-- Characters that have been read are passed over. -/
lemma tokensFrom_length_append (cs rest : List Char) :
    tokensFrom cs.length (cs ++ rest) = tokens rest := by
  induction cs with
  | nil => rfl
  | cons c cs ih =>
    rw [List.length_cons, List.cons_append, tokensFrom]
    exact ih

/-- A token in front of a text, as soon as it is known where it ends. -/
lemma tokens_append {c : Char} {cs rest : List Char} {t : Token} (hgap : isGap c = false)
    (h : token? (c :: (cs ++ rest)) = some (t, rest)) :
    tokens (c :: cs ++ rest) = (tokens rest).map ([t] ++ ·) := by
  have hskip : (cs ++ rest).length - rest.length = cs.length := by
    rw [List.length_append, Nat.add_sub_cancel]
  have hcomment : c ≠ '#' := by
    rintro rfl
    exact absurd h (by simp [token?, isQuote, isNameChar, sign?, signs, afterStem?])
  rw [tokens, List.cons_append, tokensFrom, hgap, if_neg Bool.false_ne_true, if_neg hcomment, h,
    Option.bind_some]
  simp only [hskip, tokensFrom_length_append]
  rfl

/-- A comment behind a piece is not read. -/
lemma Lexes.tokens_append_comment {cs ds : List Char} {ts : List Token} (h : Lexes cs ts)
    (hds : ∀ c ∈ ds, c ≠ '\n' ∧ c ≠ '\r') :
    tokens (cs ++ ' ' :: ' ' :: '#' :: ds) = some ts := by
  have hline : ¬ ('\n' ∈ ds ∨ '\r' ∈ ds) := by
    rintro (hmem | hmem)
    · exact (hds _ hmem).1 rfl
    · exact (hds _ hmem).2 rfl
  have hcomment : tokens (' ' :: ' ' :: '#' :: ds) = some [] := by
    rw [tokens, tokensFrom, if_pos (by decide), tokensFrom, if_pos (by decide), tokensFrom,
      if_neg (by decide), if_pos rfl, if_neg hline]
  rw [h _ (endsToken_cons (by decide)), hcomment, Option.map_some, List.append_nil]

/-- A piece that stands in front of everything stands in front of what ends a token. -/
lemma LexesFreely.lexes {cs : List Char} {ts : List Token} (h : LexesFreely cs ts) : Lexes cs ts :=
  fun rest _ => h rest

/-- A piece that reaches to the end of the line. -/
lemma Lexes.tokens_eq {cs : List Char} {ts : List Token} (h : Lexes cs ts) :
    tokens cs = some ts := by
  have hend := h [] endsToken_nil
  rw [List.append_nil] at hend
  rw [hend, tokens, tokensFrom, Option.map_some, List.append_nil]

/-- Tokens in front of tokens can be put there together. -/
lemma map_append_map (o : Option (List Token)) (ts us : List Token) :
    (o.map (us ++ ·)).map (ts ++ ·) = o.map (ts ++ us ++ ·) := by
  cases o with
  | none => rfl
  | some vs => simp

/-- A piece that stands in front of everything stands in front of another piece. -/
lemma LexesFreely.append {cs ds : List Char} {ts us : List Token} (hcs : LexesFreely cs ts)
    (hds : Lexes ds us) :
    Lexes (cs ++ ds) (ts ++ us) := by
  intro rest hrest
  rw [List.append_assoc, hcs, hds rest hrest, map_append_map]

/-- Pieces that stand in front of everything can be put in a row. -/
lemma LexesFreely.append_freely {cs ds : List Char} {ts us : List Token} (hcs : LexesFreely cs ts)
    (hds : LexesFreely ds us) :
    LexesFreely (cs ++ ds) (ts ++ us) := by
  intro rest
  rw [List.append_assoc, hcs, hds rest, map_append_map]

/-- A piece in front of one that starts with the end of a token. -/
lemma Lexes.append_freely {cs ds : List Char} {ts us : List Token} (hcs : Lexes cs ts)
    (hends : ∀ rest, EndsToken (ds ++ rest)) (hds : LexesFreely ds us) :
    LexesFreely (cs ++ ds) (ts ++ us) := by
  intro rest
  rw [List.append_assoc, hcs _ (hends rest), hds rest, map_append_map]

/-! ## Signs -/

/-- A blank is no token. -/
lemma lexesFreely_blank : LexesFreely [' '] [] := by
  intro rest
  rw [List.singleton_append, tokens, tokensFrom, if_pos (by decide)]
  simp

/-- A sign whose end is known. -/
lemma tokens_sign {c : Char} {cs rest : List Char} {s : String}
    (hother : (isGap c || isQuote c || c.isDigit || isNameChar c) = false)
    (h : sign? (c :: (cs ++ rest)) = some (.sign s, rest)) :
    tokens (c :: cs ++ rest) = (tokens rest).map ([.sign s] ++ ·) := by
  simp only [Bool.or_eq_false_iff] at hother
  obtain ⟨⟨⟨hgap, hquote⟩, hdigit⟩, hname⟩ := hother
  refine tokens_append hgap ?_
  rw [token?, hquote, hdigit, hname]
  simpa using h

/-- A bracket is read as it is, whatever follows. -/
lemma lexesFreely_bracket {c : Char} (hc : c ∈ ['(', ')', '[', ']', '\x7b', '\x7d']) :
    LexesFreely [c] [.sign (String.singleton c)] := by
  intro rest
  have hother : (isGap c || isQuote c || c.isDigit || isNameChar c) = false := by
    revert c
    decide
  have hread : sign? (c :: ([] ++ rest)) = some (.sign (String.singleton c), rest) := by
    simp only [List.mem_cons, List.not_mem_nil, or_false] at hc
    rcases hc with rfl | rfl | rfl | rfl | rfl | rfl <;> rfl
  exact tokens_sign hother hread

/-- A stem without a blank is looked for in front of the blank only. -/
lemma afterStem?_append_blank {stem : List Char} (hstem : ' ' ∉ stem) (cs rest : List Char) :
    afterStem? stem (cs ++ ' ' :: rest) = (afterStem? stem cs).map (· ++ ' ' :: rest) := by
  induction stem generalizing cs with
  | nil => rfl
  | cons w ws ih =>
    rw [List.mem_cons, not_or] at hstem
    cases cs with
    | nil => simp [afterStem?, Ne.symm hstem.1]
    | cons c cs =>
      by_cases hw : w = c
      · simpa [afterStem?, hw] using ih hstem.2 cs
      · simp [afterStem?, hw]

/-- A sign in front of a blank is read as it is: no longer one could be meant. -/
lemma sign?_append_blank {s : String} (hs : s ∈ signs) (rest : List Char) :
    sign? (s.toList ++ ' ' :: rest) = some (.sign s, ' ' :: rest) := by
  have hblank : ∀ t ∈ signs, ' ' ∉ t.toList := by decide
  have hlongest : ∀ s ∈ signs,
      signs.findSome? (fun t => (afterStem? t.toList s.toList).map fun behind => (t, behind)) =
        some (s, []) := by
    decide
  have hmap : ∀ ts ⊆ signs,
      ts.findSome?
        (fun t => (afterStem? t.toList (s.toList ++ ' ' :: rest)).map fun behind => (t, behind)) =
      (ts.findSome? fun t => (afterStem? t.toList s.toList).map fun behind => (t, behind)).map
        fun (t, behind) => (t, behind ++ ' ' :: rest) := by
    intro ts hts
    induction ts with
    | nil => rfl
    | cons t ts ih =>
      obtain ⟨ht, hts⟩ := List.cons_subset.mp hts
      rw [List.findSome?_cons, List.findSome?_cons, afterStem?_append_blank (hblank t ht), ih hts]
      cases afterStem? t.toList s.toList <;> rfl
  rw [sign?, hmap signs (List.Subset.refl signs), hlongest s hs]
  simp

/-- A sign with a blank behind it is read as it is. -/
lemma lexesFreely_sign {s : String} (hs : s ∈ signs) :
    LexesFreely (s.toList ++ [' ']) [.sign s] := by
  have hstart : ∀ s ∈ signs, s.toList ≠ [] ∧
      ∀ c ∈ s.toList.head?, (isGap c || isQuote c || c.isDigit || isNameChar c) = false := by decide
  obtain ⟨hne, hother⟩ := hstart s hs
  obtain ⟨c, cs, hcs⟩ := List.exists_cons_of_ne_nil hne
  replace hother := hother c (by rw [hcs]; rfl)
  intro rest
  have hread := sign?_append_blank hs rest
  rw [hcs] at hread
  rw [List.append_assoc, List.singleton_append, hcs, tokens_sign hother hread]
  rw [tokens, tokensFrom, if_pos (by decide)]

/-- The minus sign of a negative number, as a token. -/
def signTokens (isNegative : Bool) : List Token :=
  if isNegative then [.sign "-"] else []

/-- A minus sign is read as such in front of all that it does not make another sign with. -/
lemma Lexes.signed {cs : List Char} {ts : List Token} (h : Lexes cs ts)
    (hcs : ∀ c ∈ cs, c ≠ '=' ∧ c ≠ '>') (isNegative : Bool) :
    Lexes (signChars isNegative ++ cs) (signTokens isNegative ++ ts) := by
  intro rest hrest
  cases isNegative with
  | false => exact h rest hrest
  | true =>
    have hhead : ∀ c ∈ (cs ++ rest).head?, '=' ≠ c ∧ '>' ≠ c := by
      intro c hc
      cases cs with
      | nil =>
        have hends := hrest c hc
        constructor <;> rintro rfl <;> exact absurd hends (by decide)
      | cons d cs =>
        obtain rfl := Option.some.inj hc
        exact ⟨(hcs d List.mem_cons_self).1.symm, (hcs d List.mem_cons_self).2.symm⟩
    have hsign : sign? ('-' :: ([] ++ (cs ++ rest))) = some (.sign "-", cs ++ rest) := by
      generalize cs ++ rest = ds at hhead
      cases ds with
      | nil => rfl
      | cons c ds => simp [sign?, signs, afterStem?, hhead c rfl]
    have hminus := tokens_sign (by decide) hsign
    rw [h rest hrest, map_append_map] at hminus
    exact hminus

/-! ## Names -/

/-- A class of characters that has neither blanks nor quotes in it. -/
lemma isGap_and_isQuote_eq_false {p : Char → Bool} (hp : ∀ d ∈ [' ', '\t', '\'', '"'], p d = false)
    {c : Char} (h : p c = true) :
    isGap c = false ∧ isQuote c = false := by
  have hne : ∀ d ∈ [' ', '\t', '\'', '"'], c ≠ d := by
    rintro d hd rfl
    exact absurd h (by simp [hp c hd])
  simp only [isGap, isQuote, Bool.or_eq_false_iff, beq_eq_false_iff_ne]
  exact ⟨⟨hne _ (by decide), hne _ (by decide)⟩, hne _ (by decide), hne _ (by decide)⟩

/-- A word of name characters that no digit leads is read as a name, where neither a name character
nor a quote follows. -/
lemma tokens_name {s : String} {rest : List Char} (hne : s.toList ≠ [])
    (hdigit : ∀ c ∈ s.toList.head?, c.isDigit = false) (h : ∀ c ∈ s.toList, isNameChar c = true)
    (hrest : ∀ c ∈ rest.head?, isNameChar c = false ∧ isQuote c = false) :
    tokens (s.toList ++ rest) = (tokens rest).map ([.name s] ++ ·) := by
  obtain ⟨htake, hdrop⟩ := takeWhile_append_of_head? h fun c hc => (hrest c hc).1
  have hquotes : rest.head?.any isQuote = false := by
    rw [Option.any_eq_false]
    exact fun c hc => by simpa using (hrest c hc).2
  obtain ⟨c, cs, hcs⟩ := List.exists_cons_of_ne_nil hne
  have hs : String.ofList (c :: cs) = s := by rw [← hcs, String.ofList_toList]
  rw [hcs] at hdigit h htake hdrop ⊢
  have hname := h c List.mem_cons_self
  obtain ⟨hgap, hquote⟩ := isGap_and_isQuote_eq_false (p := isNameChar) (by decide) hname
  refine tokens_append hgap ?_
  rw [List.cons_append] at htake hdrop
  simp only [token?, hquote, hdigit c rfl, hname, htake, hdrop, hquotes, hs, if_true,
    Bool.false_eq_true, if_false]

/-- A word of name characters that no digit leads is read as a name. -/
lemma lexes_name {s : String} (hne : s.toList ≠ [])
    (hdigit : ∀ c ∈ s.toList.head?, c.isDigit = false) (h : ∀ c ∈ s.toList, isNameChar c = true) :
    Lexes s.toList [.name s] := by
  intro rest hrest
  refine tokens_name hne hdigit h fun c hc => ⟨?_, ?_⟩
  · exact hrest.head?_eq_false (p := isNameChar) (by decide) c hc
  · exact hrest.head?_eq_false (p := isQuote) (by decide) c hc

/-- The characters of identifiers are characters of names. -/
lemma isNameChar_of_isIdentifierChar {c : Char} (h : isIdentifierChar c = true) :
    isNameChar c = true := by
  show ((c.isUpper || c.isLower) || c.isDigit || c == '_') = true
  simp only [isIdentifierChar, Bool.or_eq_true] at h ⊢
  rcases h with (h | h) | h
  · exact .inl (.inl (.inr h))
  · exact .inl (.inr h)
  · exact .inr h

/-- An identifier is read as a name. -/
lemma lexes_identifier {s : String} (h : IsIdentifier s) : Lexes s.toList [.name s] :=
  lexes_name h.1 h.2.2.1 fun c hc => isNameChar_of_isIdentifierChar (h.2.1 c hc)

/-- A variable is read as the name of the object, a point and the name of the variable. -/
lemma lexes_variableText {name : String} (h : IsIdentifier name) :
    Lexes (variableText name).toList [.name "self", .sign ".", .name name] := by
  intro rest hrest
  obtain ⟨c, cs, hcs⟩ := List.exists_cons_of_ne_nil h.1
  have hpoint : c ≠ '.' := by
    rintro rfl
    exact absurd (h.2.1 '.' (hcs ▸ List.mem_cons_self)) (by decide)
  have hdigit : c.isDigit = false := h.2.2.1 c (by rw [hcs]; rfl)
  have hsign : sign? ('.' :: ([] ++ (name.toList ++ rest))) =
      some (.sign ".", name.toList ++ rest) := by
    rw [hcs]
    simp [sign?, signs, afterStem?, Ne.symm hpoint, hdigit]
  have hself : tokens ("self".toList ++ '.' :: (name.toList ++ rest)) = _ :=
    tokens_name (by decide) (by decide) (by decide) (by rintro d ⟨⟩; decide)
  have hmember := tokens_sign (by decide) hsign
  rw [List.singleton_append, lexes_identifier h rest hrest, map_append_map] at hmember
  rw [variableText, String.toList_append]
  refine hself.trans ?_
  rw [hmember, map_append_map]
  rfl

/-! ## Numerals -/

/-- What is read as a numeral by itself is one in a line. -/
lemma lexes_numeral {cs : List Char} {t : Token} (hne : cs ≠ [])
    (hstart : ∀ c ∈ cs.head?, c.isDigit = true)
    (h : ∀ rest, EndsToken rest → numeral? (cs ++ rest) = some (t, rest)) : Lexes cs [t] := by
  intro rest hrest
  obtain ⟨c, cs, rfl⟩ := List.exists_cons_of_ne_nil hne
  have hc := hstart c rfl
  obtain ⟨hgap, hquote⟩ := isGap_and_isQuote_eq_false (p := Char.isDigit) (by decide) hc
  refine tokens_append hgap ?_
  rw [token?, hquote, hc]
  exact h rest hrest

/-- There is no fraction at the end of a token. -/
lemma EndsToken.fractionPart_eq {rest : List Char} (h : EndsToken rest) :
    fractionPart rest = (none, rest) := by
  unfold fractionPart
  split
  · exact absurd (h '.' rfl) (by decide)
  · rfl

/-- There is no exponent at the end of a token. -/
lemma EndsToken.exponentPart_eq {rest : List Char} (h : EndsToken rest) :
    exponentPart rest = (none, rest) := by
  cases rest with
  | nil => rfl
  | cons c rest =>
    have hmark : ¬ (c = 'e' ∨ c = 'E') := by
      rintro (rfl | rfl) <;> exact absurd (h _ rfl) (by decide)
    simp [exponentPart, hmark]

/-- The digits of a number are read as the number. -/
lemma lexes_toDigits (n : Nat) : Lexes (Nat.toDigits 10 n) [.integer n] := by
  obtain ⟨hne, hdigits, hzero⟩ := Numeral.isPlain_toDigits n
  refine lexes_numeral hne (fun c hc => hdigits c (List.mem_of_mem_head? hc)) fun rest hrest => ?_
  obtain ⟨htake, hdrop⟩ :=
    takeWhile_append_of_head? hdigits (hrest.head?_eq_false (p := Char.isDigit) (by decide))
  have hplain : ¬ ((Nat.toDigits 10 n).head? = some '0' ∧ Nat.toDigits 10 n ≠ ['0']) :=
    fun h => h.2 (hzero h.1)
  simp only [numeral?, htake, hdrop, hrest.fractionPart_eq, hrest.exponentPart_eq,
    hrest.any_head?_eq_false
    (p := fun c => isNameChar c || c == '.') (by decide), hplain, Nat.ofDigitChars_ten_toDigits]
  rfl

/-- An integer is read as its sign and its amount. -/
lemma lexes_int (n : Int) :
    Lexes (toString n).toList (signTokens (decide (n < 0)) ++ [.integer n.natAbs]) := by
  rw [toList_toString_int]
  refine (lexes_toDigits n.natAbs).signed (fun c hc => ?_) _
  have hdigit := (Numeral.isPlain_toDigits n.natAbs).2.1 c hc
  constructor <;> rintro rfl <;> exact absurd hdigit (by decide)

/-- A numeral with a fraction, an exponent or both is read as the decimal that its parts make. -/
lemma numeral?_of_parts {cs cs₁ cs₂ rest whole : List Char} {fraction : Option (List Char)}
    {exponent : Option Int} (htake : cs.takeWhile Char.isDigit = whole)
    (hdrop : cs.dropWhile Char.isDigit = cs₁) (hfraction : fractionPart cs₁ = (fraction, cs₂))
    (hexponent : exponentPart cs₂ = (exponent, rest))
    (hparts : (fraction.isNone && exponent.isNone) = false) (hrest : EndsToken rest) :
    numeral? cs = some (.decimal ⟨Nat.ofDigitChars 10 (whole ++ fraction.getD []) 0,
      exponent.getD 0 - (fraction.getD []).length⟩, rest) := by
  simp only [numeral?, htake, hdrop, hfraction, hexponent, hparts, hrest.any_head?_eq_false
    (p := fun c => isNameChar c || c == '.') (by decide)]
  rfl

/-- A point and digits behind it are read as a fraction. -/
lemma fractionPart_append {ds rest : List Char} (hds : ∀ d ∈ ds, d.isDigit = true)
    (hrest : ∀ c ∈ rest.head?, c.isDigit = false) :
    fractionPart ('.' :: ds ++ rest) = (some ds, rest) := by
  obtain ⟨htake, hdrop⟩ := takeWhile_append_of_head? hds hrest
  rw [List.cons_append, fractionPart, htake, hdrop]

/-- An exponent mark, a sign and digits behind it are read as an exponent. -/
lemma exponentPart_append {ds rest : List Char} (isNegative : Bool) (hne : ds ≠ [])
    (hds : ∀ d ∈ ds, d.isDigit = true) (hrest : EndsToken rest) :
    exponentPart ('e' :: (if isNegative then '-' else '+') :: ds ++ rest) =
      (some (if isNegative then -(Nat.ofDigitChars 10 ds 0 : Int) else Nat.ofDigitChars 10 ds 0),
        rest) := by
  obtain ⟨htake, hdrop⟩ :=
    takeWhile_append_of_head? hds (hrest.head?_eq_false (p := Char.isDigit) (by decide))
  have hsign : Numeral.sign ((if isNegative then '-' else '+') :: (ds ++ rest)) =
      (isNegative, ds ++ rest) := by
    cases isNegative <;> rfl
  simp [exponentPart, hsign, htake, hdrop, hne]

/-- The written exponent of a decimal is read as the exponent. -/
lemma exponentPart_exponentChars (e : Int) {rest : List Char} (hrest : EndsToken rest) :
    exponentPart ('e' :: (Decimal.exponentChars e ++ rest)) = (some e, rest) := by
  obtain ⟨ds, hds, hne, hdigits, hvalue⟩ := Decimal.exists_exponentChars e
  rw [hds]
  refine (exponentPart_append (decide (e < 0)) hne hdigits hrest).trans ?_
  rw [hvalue]

/-- **A numeral of a decimal is read as the decimal.** -/
lemma Decimal.HasNumeral.lexes {t : Decimal} {cs : List Char} (h : t.HasNumeral cs) :
    Lexes cs [.decimal t] := by
  have hstart := h.isDigit_of_mem_head?
  obtain ⟨whole, fraction, exponent, rfl, hne, hdigits, hparts, rfl⟩ := h
  obtain ⟨hwhole, hbehind⟩ := List.forall_mem_append.mp hdigits
  refine lexes_numeral (List.append_ne_nil_of_left_ne_nil hne _) hstart fun rest hrest => ?_
  have hend : ∀ c ∈ rest.head?, c.isDigit = false :=
    hrest.head?_eq_false (p := Char.isDigit) (by decide)
  have hmark : ∀ c ∈ (markedExponent exponent ++ rest).head?, c.isDigit = false := by
    cases exponent with
    | none => exact hend
    | some e =>
      rintro c ⟨⟩
      decide
  have hpoint : ∀ c ∈ (fractionChars fraction ++ (markedExponent exponent ++ rest)).head?,
      c.isDigit = false := by
    cases fraction with
    | none => exact hmark
    | some ds =>
      rintro c ⟨⟩
      decide
  have hfraction : fractionPart (fractionChars fraction ++ (markedExponent exponent ++ rest)) =
      (fraction, markedExponent exponent ++ rest) := by
    cases fraction with
    | some ds => exact fractionPart_append hbehind hmark
    | none =>
      cases exponent with
      | some e => rfl
      | none => exact hrest.fractionPart_eq
  have hexponent : exponentPart (markedExponent exponent ++ rest) = (exponent, rest) := by
    cases exponent with
    | some e => exact exponentPart_exponentChars e hrest
    | none => exact hrest.exponentPart_eq
  obtain ⟨htake, hdrop⟩ := takeWhile_append_of_head? hwhole hpoint
  rw [List.append_assoc, List.append_assoc]
  exact numeral?_of_parts htake hdrop hfraction hexponent hparts hrest

/-! ## Texts -/

/-- **A quoted text is read as one token**, which denotes the text. -/
lemma lexes_quoted (s : String) : Lexes (quoted s).toList [.text s] := by
  intro rest hrest
  have hliteral : textLiteral? ((quoted s).toList ++ rest) = some (s.toList, rest) :=
    textLiteral?_quoted_append fun _ hhead => absurd (hrest _ hhead) (by decide)
  have hmark := List.mem_pair.mp (quoteMark_mem s.toList)
  obtain ⟨hgap, hquote⟩ : isGap (quoteMark s.toList) = false ∧
      isQuote (quoteMark s.toList) = true := by
    rcases hmark with h | h <;> rw [h] <;> decide
  rw [quoted, String.toList_ofList, quotedChars, List.cons_append] at hliteral ⊢
  rw [List.cons_append] at hliteral
  refine tokens_append hgap ?_
  simp only [token?, hquote, if_true, hliteral, Option.map_some, String.ofList_toList]

/-! ## Pieces with signs -/

/-- Two pieces with a blank between them. -/
lemma Lexes.spaced {cs ds : List Char} {ts us : List Token} (hcs : Lexes cs ts)
    (hds : Lexes ds us) :
    Lexes (cs ++ ' ' :: ds) (ts ++ us) := by
  have hleft := hcs.append_freely (fun _ => endsToken_cons (by decide)) lexesFreely_blank
  simpa using hleft.append hds

/-- Two pieces with a sign between blanks between them. -/
lemma Lexes.join {cs ds : List Char} {ts us : List Token} {s : String} (hcs : Lexes cs ts)
    (hs : s ∈ signs) (hds : Lexes ds us) :
    Lexes (cs ++ ' ' :: (s.toList ++ ' ' :: ds)) (ts ++ .sign s :: us) := by
  simpa using hcs.spaced ((lexesFreely_sign hs).append hds)

/-- A piece between two brackets. -/
lemma Lexes.enclosed {cs : List Char} {ts : List Token} {c d : Char} (h : Lexes cs ts)
    (hc : c ∈ ['(', '[', '\x7b']) (hd : d ∈ [')', ']', '\x7d']) :
    LexesFreely (c :: (cs ++ [d]))
      (.sign (String.singleton c) :: (ts ++ [.sign (String.singleton d)])) := by
  have hclosing : ∀ d ∈ [')', ']', '\x7d'], d ∈ [' ', ',', ':', ')', ']', '\x7d'] ∧
      d ∈ ['(', ')', '[', ']', '\x7b', '\x7d'] := by
    decide
  have hopening : ∀ c ∈ ['(', '[', '\x7b'], c ∈ ['(', ')', '[', ']', '\x7b', '\x7d'] := by decide
  have hinside :=
    h.append_freely (fun _ => endsToken_cons (hclosing d hd).1)
      (lexesFreely_bracket (hclosing d hd).2)
  exact (lexesFreely_bracket (hopening c hc)).append_freely hinside

/-! ## Assignments -/

/-- An assignment is read as its variable, the sign of assignment and its right-hand side; its
remark is not read. -/
lemma tokens_assignText {name : String} (hname : IsIdentifier name) {rhs : Rhs} {ts : List Token}
    (h : Lexes rhs.text.toList ts) {remark : Option String} (hremark : ∀ r ∈ remark, IsOneLine r) :
    tokens (assignText name rhs remark).toList =
      some (.name "self" :: .sign "." :: .name name :: .sign "=" :: ts) := by
  have hassign := (lexes_variableText hname).join (s := "=") (by decide) h
  cases remark with
  | none => simpa [assignText] using hassign.tokens_eq
  | some r =>
    have hline : ∀ c ∈ ' ' :: r.toList, c ≠ '\n' ∧ c ≠ '\r' :=
      List.forall_mem_cons.mpr ⟨by decide, hremark r rfl⟩
    simpa [assignText] using hassign.tokens_append_comment hline

/-- Blanks are not read. -/
lemma lexesFreely_replicate_blank (k : Nat) : LexesFreely (List.replicate k ' ') [] := by
  induction k with
  | zero => exact fun rest => by simp
  | succ k ih => exact lexesFreely_blank.append_freely ih

/-- The line of an assignment is read in the same way at every depth. -/
lemma tokens_lines_assign {name : String} (hname : IsIdentifier name) {rhs : Rhs} {ts : List Token}
    (h : Lexes rhs.text.toList ts) (depth : Int) :
    ∃ line, Stmt.lines depth [.assign name rhs none] = [line] ∧
      tokens line.toList = some (.name "self" :: .sign "." :: .name name :: .sign "=" :: ts) := by
  have hne : assignText name rhs none ≠ "" := by simp [assignText, variableText]
  refine ⟨Layout.margin depth ++ assignText name rhs none, by
    simp [Stmt.lines, Stmt.writeAll, Stmt.write, hne], ?_⟩
  rw [Layout.margin, String.toList_append, String.toList_ofList, lexesFreely_replicate_blank,
    tokens_assignText hname h (by simp)]
  rfl

end LogicGraph
