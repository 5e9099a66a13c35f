import Mathlib.Data.List.Forall2
import Mathlib.Data.List.TakeWhile
import Mathlib.Logic.Relation
import LogicGraph.Proofs.Emission.Walk
import LogicGraph.Proofs.Number.Shortest
import LogicGraph.Proofs.Reading.Tokens

set_option relaxedAutoImplicit false
set_option autoImplicit false

/-!
# Reading literals

The literal of a value is read by the rules of the generated language as one token, or as a
bracketed sequence of tokens. This module says what is read of it. The text of a user becomes the
number that it spells, or a text literal that denotes it and ends where it should. No literal has a
name outside its texts, with one exception: a list or an object that holds a double that is not
finite has the name of that double in it, and nothing in the program has that name.

## Main definitions

* `LogicGraph.Binary64.IsWrittenAs` — a text that denotes a double.
* `LogicGraph.Numeral.IsWrittenAs` — the numeral of an integer.
* `LogicGraph.freeNames` — the names in a sequence of tokens that are not constants.
* `LogicGraph.Json.Within` — a value within another one.

## Main results

* `LogicGraph.Binary64.isWrittenAs_floatText` — a double is written as a numeral that reads back as
  the double, or as a call.
* `LogicGraph.Json.isLiteralOf_text` — what the text of a user becomes.
* `LogicGraph.Json.freeNames_literal` — which names a literal has.
-/

namespace LogicGraph

open Text

/-! ## Numbers -/

/-- The plain numeral of an integer, with a minus sign in front of a negative one. -/
def Numeral.IsWrittenAs (n : Int) (cs : List Char) : Prop :=
  ∃ ds, IsPlain ds ∧ Nat.ofDigitChars 10 ds 0 = n.natAbs ∧ cs = signChars (decide (n < 0)) ++ ds

/-- An integer is written as its decimal text. -/
lemma Numeral.isWrittenAs_toString (n : Int) : IsWrittenAs n (toString n).toList :=
  ⟨Nat.toDigits 10 n.natAbs, isPlain_toDigits _, Nat.ofDigitChars_ten_toDigits,
    toList_toString_int n⟩

namespace Binary64

/-- A text that denotes a double: a numeral with a point or an exponent that the double is nearest
to, with a minus sign in front of a negative one; for a double that is not finite, the call that
makes it from its name. -/
def IsWrittenAs (x : Binary64) (cs : List Char) : Prop :=
  match x with
  | .finite negative _ _ => ∃ t : Decimal, tokens cs = some (signTokens negative ++ [.decimal t]) ∧
      ofDecimal negative t.digits t.exponent = x
  | .infinite negative => cs = (if negative then "float('-inf')" else "float('inf')").toList
  | .nan => cs = "float('nan')".toList

/-- A finite double is written as its sign and the shortest digits. -/
lemma toList_text_finite (negative : Bool) (m : Nat) (e : Int) : (finite negative m e).text.toList =
    signChars negative ++ if m = 0 then "0.0".toList else (Decimal.shortest m e).chars := by
  have hsign : (if negative then "-" else "").toList = signChars negative := by
    cases negative <;> rfl
  by_cases hm : m = 0 <;>
    simp only [text, hm, if_true, if_false, String.toList_append, hsign, String.toList_ofList]

/-- A finite double is written as a numeral of a decimal, with a minus sign in front of a negative
one. If the double is one that numbers are rounded to, it is the double that the decimal is rounded
to. -/
lemma exists_hasNumeral_text (negative : Bool) (m : Nat) (e : Int) :
    ∃ (t : Decimal) (cs : List Char), (finite negative m e).text.toList = signChars negative ++ cs ∧
      t.HasNumeral cs ∧
      (∀ c ∈ cs, isNumeralChar c = true) ∧
      (IsCanonical (.finite negative m e) →
        ofDecimal negative t.digits t.exponent = .finite negative m e) := by
  rw [toList_text_finite]
  split_ifs with hm
  · refine ⟨⟨0, -1⟩, _, rfl,
      Decimal.hasNumeral_pointed ['0'] ['0'] (by simp) (by decide) (by decide) rfl rfl, by
        decide, ?_⟩
    rintro (⟨-, he⟩ | hx)
    · rw [hm, he]
      rfl
    · exact absurd hm hx.pos.ne'
  · obtain ⟨k, hnumeral⟩ := (Decimal.shortest m e).hasNumeral_chars
    refine ⟨_, _, rfl, hnumeral, fun c hc => Decimal.isNumeralChar_of_mem_chars hc, ?_⟩
    rintro (⟨h, -⟩ | hx)
    · exact absurd h hm
    · have hhits : ofDecimal false _ _ = _ := Decimal.hits_shortest hx
      rw [ofDecimal_mul_pow, ← withSign_ofDecimal, hhits]
      rfl

/-- The numeral of a finite double is read as a decimal. If the double is one that numbers are
rounded to, it is the double that the decimal is rounded to. -/
lemma lexes_text_finite (negative : Bool) (m : Nat) (e : Int) :
    ∃ t : Decimal, Lexes (finite negative m e).text.toList (signTokens negative ++ [.decimal t]) ∧
      (IsCanonical (.finite negative m e) →
        ofDecimal negative t.digits t.exponent = .finite negative m e) := by
  obtain ⟨t, cs, htext, hnumeral, hchars, hvalue⟩ := exists_hasNumeral_text negative m e
  refine ⟨t, ?_, hvalue⟩
  rw [htext]
  refine hnumeral.lexes.signed (fun c hc => ?_) negative
  have hc := hchars c hc
  constructor <;> rintro rfl <;> exact absurd hc (by decide)

/-- **A double is written as a numeral that reads back as the double**, or as a call if it is not
finite. -/
lemma isWrittenAs_floatText {x : Binary64} (hx : IsCanonical x) :
    x.IsWrittenAs (Literal.floatText x).toList := by
  cases x with
  | nan => rfl
  | infinite negative => cases negative <;> rfl
  | finite negative m e =>
    obtain ⟨t, hlexes, ht⟩ := lexes_text_finite negative m e
    exact ⟨t, hlexes.tokens_eq, ht hx⟩

/-- What is read of digits, a point and an exponent is the double nearest to some decimal. -/
lemma exists_ofDecimal_of_decimal? {negative : Bool} {cs : List Char} {x : Binary64}
    (h : Numeral.decimal? negative cs = some x) :
    ∃ digits exponent, ofDecimal negative digits exponent = x := by
  unfold Numeral.decimal? at h
  simp only [Option.bind_eq_bind] at h
  split at h <;>
  · obtain ⟨e, -, h⟩ := Option.bind_eq_some_iff.mp h
    obtain ⟨whole, -, h⟩ := Option.bind_eq_some_iff.mp h
    split at h <;>
    · obtain ⟨fraction, -, h⟩ := Option.bind_eq_some_iff.mp h
      split_ifs at h
      exact ⟨_, _, Option.some.inj h⟩

/-- What is read as a double is one that numbers are rounded to. -/
lemma isCanonical_of_readBinary64? {cs : List Char} {x : Binary64}
    (h : Numeral.readBinary64? cs = some x) : IsCanonical x := by
  unfold Numeral.readBinary64? at h
  simp only at h
  split_ifs at h
  · cases h
    trivial
  · cases h
    trivial
  · obtain ⟨digits, exponent, rfl⟩ := exists_ofDecimal_of_decimal? h
    exact isCanonical_ofDecimal _ _ _

end Binary64

/-! ## Texts of the user -/

namespace Text

/-- The characters that end a line somewhere. -/
def lineEnds : List Char :=
  ['\n', '\r', '\x0b', '\x0c', '\x1c', '\x1d', '\x1e', '\u0085', '\u2028', '\u2029']

/-- A text has nothing left after its blanks are taken off exactly if it is blank throughout. -/
lemma trim_eq_nil_iff {cs : List Char} : trim cs = [] ↔ ∀ c ∈ cs, isBlank c = true := by
  rw [trim, trimRight, List.reverse_eq_nil_iff, List.dropWhile_eq_nil_iff, trimLeft]
  constructor
  · intro h c hc
    rw [← List.takeWhile_append_dropWhile (p := isBlank) (l := cs), List.mem_append] at hc
    rcases hc with hc | hc
    · exact List.mem_takeWhile_imp hc
    · exact h c (List.mem_reverse.mpr hc)
  · intro h c hc
    exact h c (List.dropWhile_subset _ (List.mem_reverse.mp hc))

/-- Digits are printable. -/
lemma isPrintable_digitChar (k : Nat) : isPrintable (Nat.digitChar k) = true := by
  have hdigits : ∀ k < 16, isPrintable (Nat.digitChar k) = true := by decide
  rcases Nat.lt_or_ge k 16 with hk | hk
  · exact hdigits k hk
  · rw [Nat.digitChar_eq_star.mpr hk]
    decide

/-- Only printable characters are written for a character. -/
lemma isPrintable_of_mem_escape {mark c d : Char} (hmark : mark ∈ ['\'', '"'])
    (hd : d ∈ escape mark c) :
    isPrintable d = true := by
  have hfixed : ∀ d ∈ ['\'', '"', '\\', 'n', 'r', 't', 'x', 'u', 'U'], isPrintable d = true := by
    decide
  have hpair : ∀ {letter}, letter ∈ ['\'', '"', '\\', 'n', 'r', 't', 'x', 'u', 'U'] →
      d ∈ ['\\', letter] →
      isPrintable d = true := by
    intro letter hletter h
    rcases List.mem_pair.mp h with rfl | rfl
    · decide
    · exact hfixed _ hletter
  unfold escape at hd
  split_ifs at hd with h₁ h₂ h₃ h₄ h₅
  · refine hpair ?_ hd
    rcases h₁ with rfl | rfl
    · rcases List.mem_pair.mp hmark with rfl | rfl <;> decide
    · decide
  · exact hpair (by decide) hd
  · exact hpair (by decide) hd
  · exact hpair (by decide) hd
  · rw [List.mem_singleton.mp hd]
    exact h₅
  · obtain ⟨letter, width, hletter, heq⟩ := codePointEscape_eq c
    rw [heq, List.mem_cons, List.mem_cons] at hd
    rcases hd with rfl | rfl | hd
    · decide
    · exact hfixed _ (List.mem_of_mem_drop (i := 6) hletter)
    · obtain ⟨k, rfl⟩ := exists_digitChar_of_mem_hexPadded hd
      exact isPrintable_digitChar k

/-- A quoted text has only printable characters. -/
lemma isPrintable_of_mem_quoted {s : String} {c : Char} (h : c ∈ (quoted s).toList) :
    isPrintable c = true := by
  have hmark := quoteMark_mem s.toList
  have hquote : ∀ mark ∈ ['\'', '"'], isPrintable mark = true := by decide
  rw [quoted, String.toList_ofList, quotedChars, List.mem_append, List.mem_cons, List.mem_flatMap,
    List.mem_singleton] at h
  rcases h with (rfl | ⟨d, -, hd⟩) | rfl
  · exact hquote _ hmark
  · exact isPrintable_of_mem_escape hmark hd
  · exact hquote _ hmark

/-- Literals have no line ends. -/
lemma composes_not_mem_lineEnds : Composes fun cs => ∀ c ∈ cs, c ∉ lineEnds := by
  have hclass : ∀ {p : Char → Bool}, (∀ c ∈ lineEnds, p c = false) → ∀ {c}, p c = true →
      c ∉ lineEnds := by
    intro p hp c h hc
    rw [hp c hc] at h
    cases h
  refine composes_of_append (fun hc hd => List.forall_mem_append.mpr ⟨hc, hd⟩) (fun h c hc => ?_)
    fun s c hc => ?_
  · exact hclass (p := isLiteralChar) (by decide) (h c hc)
  · exact hclass (p := isPrintable) (by decide +kernel) (isPrintable_of_mem_quoted hc)

end Text

/-- What the text of a user becomes: the given text for a blank one, the numeral of the integer that
it spells, else that of the double that it spells, and else a text literal that denotes it and ends
with its last character. -/
def Json.IsLiteralOf (blank s t : String) : Prop :=
  if ∀ c ∈ s.toList, isBlank c = true then t = blank
  else
    match Numeral.readInt (trim s.toList), Numeral.readBinary64? (trim s.toList) with
    | .ok n, _ => Numeral.IsWrittenAs n t.toList
    | .error _, some x => x.IsWrittenAs t.toList
    | .error _, none => ∀ rest, textLiteral? (t.toList ++ rest) = some (s.toList, rest)

/-- **The text of a user stays a literal**, whatever it is: it becomes what `IsLiteralOf` says, and
its literal is on one line if the text for a blank value is. -/
theorem Json.isLiteralOf_text (blank s : String) :
    ∃ t, literalText? blank (.string s) = some t ∧ IsLiteralOf blank s t ∧
      ((∀ c ∈ blank.toList, c ∉ lineEnds) → ∀ c ∈ t.toList, c ∉ lineEnds) := by
  by_cases hblank : ∀ c ∈ s.toList, isBlank c = true
  · refine ⟨blank, ?_, ?_, id⟩
    · rw [literalText?, Literal.ofJson?, if_pos (trim_eq_nil_iff.mpr hblank)]
    · rw [IsLiteralOf, if_pos hblank]
  · refine ⟨(Literal.ofText s).written, ?_, ?_, fun _ => composes_not_mem_lineEnds.written _⟩
    · rw [literalText?, Literal.ofJson?, if_neg (mt trim_eq_nil_iff.mp hblank)]
      simp only [Literal.isWritable_ofText, if_true]
    · rw [IsLiteralOf, if_neg hblank, Literal.ofText]
      cases Numeral.readInt (trim s.toList) with
      | ok n => exact Numeral.isWrittenAs_toString n
      | error fault =>
        cases hread : Numeral.readBinary64? (trim s.toList) with
        | some x =>
          exact Binary64.isWrittenAs_floatText (Binary64.isCanonical_of_readBinary64? hread)
        | none =>
          intro rest
          refine textLiteral?_quoted_append fun hempty => absurd ?_ hblank
          rw [hempty]
          exact fun c hc => absurd hc (by simp)

/-! ## Names in literals -/

/-- The names that have a value wherever they stand. -/
def constantNames : List String :=
  ["None", "True", "False"]

/-- Whether a name in front of the tokens is called with a text. -/
def isTextCall : List Token → Bool
  | .sign p :: .text _ :: .sign q :: _ => p == "(" && q == ")"
  | _ => false

/-- The names in a sequence of tokens that are neither constants nor the `float` of a call with a
text. -/
def freeNames : List Token → List String
  | [] => []
  | .name s :: ts =>
      (if s ∈ constantNames ∨ s = "float" ∧ isTextCall ts then [] else [s]) ++ freeNames ts
  | _ :: ts => freeNames ts

/-- A sign is no free name. -/
@[simp] lemma freeNames_sign (s : String) (ts : List Token) :
    freeNames (.sign s :: ts) = freeNames ts := rfl

/-- Whether a token is a name. -/
def Token.isName : Token → Bool
  | .name _ => true
  | _ => false

/-- A piece of a line with its free names. -/
def Shows (cs : List Char) (names : List String) : Prop :=
  ∃ ts, Lexes cs ts ∧ ∀ rest, freeNames (ts ++ rest) = names ++ freeNames rest

/-- Tokens without a name have no free names. -/
lemma freeNames_append {ts : List Token} (hts : ∀ t ∈ ts, t.isName = false) (rest : List Token) :
    freeNames (ts ++ rest) = freeNames rest := by
  induction ts with
  | nil => rfl
  | cons t ts ih =>
    obtain ⟨ht, htail⟩ := List.forall_mem_cons.mp hts
    cases t with
    | name s => cases ht
    | integer _ | decimal _ | text _ | sign _ => exact ih htail

/-- A piece without names shows none. -/
lemma Lexes.shows {cs : List Char} {ts : List Token} (h : Lexes cs ts)
    (hts : ∀ t ∈ ts, t.isName = false) : Shows cs [] :=
  ⟨ts, h, freeNames_append hts⟩

/-- No characters show no tokens. -/
lemma shows_nil : Shows [] [] :=
  ⟨[], fun rest _ => by simp, fun rest => rfl⟩

/-- A word that is no call shows its name, unless it is a constant. -/
lemma shows_word {w : String} (hw : w ∈ ["None", "True", "False", "nan", "inf"]) :
    Shows w.toList (if w ∈ constantNames then [] else [w]) := by
  have hfixed : ∀ w ∈ ["None", "True", "False", "nan", "inf"], w.toList ≠ [] ∧
      (∀ c ∈ w.toList.head?, c.isDigit = false) ∧
      (∀ c ∈ w.toList, isNameChar c = true) ∧ w ≠ "float" := by decide
  obtain ⟨hne, hdigit, hchars, hfloat⟩ := hfixed w hw
  refine ⟨[.name w], lexes_name hne hdigit hchars, fun rest => ?_⟩
  simp [freeNames, hfloat]

/-- Two pieces with a comma or a colon between them. -/
lemma Shows.separated {cs ds : List Char} {names names' : List String} {c : Char}
    (hcs : Shows cs names) (hc : c ∈ [',', ':']) (hds : Shows ds names') :
    Shows (cs ++ c :: ' ' :: ds) (names ++ names') := by
  obtain ⟨ts, hts, hnames⟩ := hcs
  obtain ⟨us, hus, hnames'⟩ := hds
  have hsign : LexesFreely [c, ' '] [.sign (String.singleton c)] := by
    rcases List.mem_pair.mp hc with rfl | rfl
    · exact lexesFreely_sign (s := ",") (by decide)
    · exact lexesFreely_sign (s := ":") (by decide)
  have hends : ∀ rest, EndsToken ([c, ' '] ++ rest) := by
    intro rest
    rcases List.mem_pair.mp hc with rfl | rfl <;> exact endsToken_cons (by decide)
  refine ⟨ts ++ [.sign (String.singleton c)] ++ us, ?_, fun rest => ?_⟩
  · simpa using (hts.append_freely hends hsign).append hus
  · rw [List.append_assoc, List.append_assoc, hnames, List.singleton_append, freeNames_sign,
      hnames', List.append_assoc]

/-- A piece between brackets. -/
lemma Shows.enclosed {cs : List Char} {names : List String} {c d : Char} (h : Shows cs names)
    (hc : c ∈ ['(', '[', '\x7b']) (hd : d ∈ [')', ']', '\x7d']) :
    Shows (c :: (cs ++ [d])) names := by
  obtain ⟨ts, hts, hnames⟩ := h
  refine ⟨_, (hts.enclosed hc hd).lexes, fun rest => ?_⟩
  rw [List.cons_append, freeNames_sign, List.append_assoc, hnames, List.singleton_append,
    freeNames_sign]

/-- Pieces with commas between them. -/
lemma Shows.intercalate {parts : List String} {names : List (List String)}
    (h : List.Forall₂ (fun s ws => Shows s.toList ws) parts names) :
    Shows (", ".intercalate parts).toList names.flatten := by
  induction h with
  | nil => exact shows_nil
  | @cons s ws parts names hs htail ih =>
    cases htail with
    | nil => simpa using hs
    | cons ht htail =>
      rw [String.intercalate_cons_cons, String.toList_append, String.toList_append,
        List.append_assoc]
      exact hs.separated (c := ',') (by decide) ih

/-- A quoted text shows no name. -/
lemma shows_quoted (s : String) : Shows (quoted s).toList [] :=
  (lexes_quoted s).shows (by simp [Token.isName])

/-- A sign has no name in it. -/
lemma isName_of_mem_signTokens {isNegative : Bool} :
    ∀ t ∈ signTokens isNegative, t.isName = false := by
  cases isNegative <;> decide

/-- An integer shows no name. -/
lemma shows_int (n : Int) : Shows (toString n).toList [] :=
  (lexes_int n).shows
    (List.forall_mem_append.mpr ⟨isName_of_mem_signTokens, by simp [Token.isName]⟩)

/-- The call of `float` with a text shows no name. -/
lemma shows_call (name : String) : Shows ("float(" ++ quoted name ++ ")").toList [] := by
  have hcall := (lexes_quoted name).enclosed (c := '(') (d := ')') (by decide) (by decide)
  refine ⟨[.name "float", .sign "(", .text name, .sign ")"], fun rest _ => ?_, fun rest => rfl⟩
  have hbracket : ∀ c ∈ ('(' :: ((quoted name).toList ++ [')']) ++ rest).head?, isNameChar c =
      false ∧ isQuote c = false := by
    rintro c ⟨⟩
    decide
  have hfloat := tokens_name (s := "float") (by decide) (by decide) (by decide) hbracket
  rw [hcall rest, map_append_map] at hfloat
  rw [String.toList_append, String.toList_append, List.append_assoc]
  simpa using hfloat

namespace Binary64

/-- Whether a number is finite. -/
def isFinite : Binary64 → Bool
  | .finite _ _ _ => true
  | _ => false

/-- The name of a double that is not finite. -/
def looseNames : Binary64 → List String
  | .nan => ["nan"]
  | .infinite _ => ["inf"]
  | .finite _ _ _ => []

/-- A finite double shows no name. -/
lemma shows_text_finite (negative : Bool) (m : Nat) (e : Int) :
    Shows (finite negative m e).text.toList [] := by
  obtain ⟨t, hlexes, -⟩ := lexes_text_finite negative m e
  exact hlexes.shows (List.forall_mem_append.mpr ⟨isName_of_mem_signTokens, by simp [Token.isName]⟩)

/-- The text of a double shows its name if it is not finite. -/
lemma shows_text (x : Binary64) : Shows x.text.toList x.looseNames := by
  cases x with
  | nan => exact shows_word (w := "nan") (by decide)
  | infinite negative =>
    obtain ⟨ts, hts, hnames⟩ := shows_word (w := "inf") (by decide)
    refine ⟨signTokens negative ++ ts, ?_, fun rest => ?_⟩
    · have hsigned := hts.signed (by decide) negative
      cases negative <;> exact hsigned
    · rw [List.append_assoc, freeNames_append isName_of_mem_signTokens, hnames]
      rfl
  | finite negative m e => exact shows_text_finite negative m e

/-- The literal of a double shows no name: if the double is not finite, it is made from its name. -/
lemma shows_floatText (x : Binary64) : Shows (Literal.floatText x).toList [] := by
  cases x with
  | nan => exact shows_call "nan"
  | infinite negative =>
    cases negative
    · exact shows_call "inf"
    · exact shows_call "-inf"
  | finite negative m e => exact shows_text_finite negative m e

end Binary64

namespace Json

mutual

/-- The names of the doubles in a value that are not finite, in their order. -/
def looseNames : Json → List String
  | .number (.float x) => x.looseNames
  | .array items => (itemNames items).flatten
  | .object fields => (fieldNames fields).flatten
  | _ => []

/-- The names of the doubles in the items of a list that are not finite. -/
def itemNames : List Json → List (List String)
  | [] => []
  | v :: vs => v.looseNames :: itemNames vs

/-- The names of the doubles in the fields of an object that are not finite. -/
def fieldNames : List (String × Json) → List (List String)
  | [] => []
  | (_, v) :: vs => v.looseNames :: fieldNames vs

end

mutual

/-- A value written as an expression shows the names of its doubles that are not finite. -/
lemma shows_expression (v : Json) : Shows v.expression.toList v.looseNames := by
  cases v with
  | null => exact shows_word (w := "None") (by decide)
  | bool b =>
    cases b
    · exact shows_word (w := "False") (by decide)
    · exact shows_word (w := "True") (by decide)
  | number n =>
    cases n with
    | int n => exact shows_int n
    | float x => exact x.shows_text
  | string s => exact shows_quoted s
  | array items =>
    rw [expression, String.toList_append, String.toList_append]
    exact (Shows.intercalate (forall₂_itemExpressions items)).enclosed (c := '[') (d := ']')
      (by decide) (by decide)
  | object fields =>
    rw [expression, String.toList_append, String.toList_append]
    exact (Shows.intercalate (forall₂_fieldExpressions fields)).enclosed (c := '\x7b') (d := '\x7d')
      (by decide) (by decide)

/-- The items of a list, written as expressions, with their names. -/
lemma forall₂_itemExpressions (vs : List Json) :
    List.Forall₂ (fun s ws => Shows s.toList ws) (itemExpressions vs) (itemNames vs) := by
  cases vs with
  | nil => exact .nil
  | cons v vs => exact .cons v.shows_expression (forall₂_itemExpressions vs)

/-- The fields of an object, written as pairs of expressions, with their names. -/
lemma forall₂_fieldExpressions (vs : List (String × Json)) :
    List.Forall₂ (fun s ws => Shows s.toList ws) (fieldExpressions vs) (fieldNames vs) := by
  match vs with
  | [] => exact .nil
  | (k, v) :: vs =>
    rw [fieldExpressions, fieldNames]
    refine .cons ?_ (forall₂_fieldExpressions vs)
    rw [String.toList_append, String.toList_append, List.append_assoc]
    exact (shows_quoted k).separated (c := ':') (by decide) v.shows_expression

end

/-- The values that a list or an object is made of. -/
def children : Json → List Json
  | .array items => items
  | .object fields => fields.map Prod.snd
  | _ => []

/-- A value that stands, at any depth, within another one. -/
def Within : Json → Json → Prop :=
  Relation.TransGen fun u v => u ∈ v.children

/-- A value within another is smaller. -/
lemma sizeOf_lt_of_mem_children {u v : Json} (h : u ∈ v.children) : sizeOf u < sizeOf v := by
  cases v with
  | array items =>
    have := List.sizeOf_lt_of_mem (show u ∈ items from h)
    simp only [array.sizeOf_spec]
    omega
  | object fields =>
    obtain ⟨⟨k, u⟩, hmem, rfl⟩ := List.mem_map.mp h
    have := List.sizeOf_lt_of_mem hmem
    simp only [object.sizeOf_spec, Prod.mk.sizeOf_spec] at this ⊢
    omega
  | null | bool _ | number _ | string _ => cases h

/-- What holds of a value if it holds of those that it is made of, holds of all values. -/
lemma induction_children {P : Json → Prop} (h : ∀ v, (∀ u ∈ v.children, P u) → P v) (v : Json) :
    P v :=
  h v fun u _ => induction_children h u
termination_by sizeOf v
decreasing_by exact sizeOf_lt_of_mem_children ‹_›

/-- The names in items are those of each of them. -/
lemma itemNames_eq_map (vs : List Json) : itemNames vs = vs.map looseNames := by
  induction vs with
  | nil => rfl
  | cons v vs ih => rw [itemNames, ih, List.map_cons]

/-- The names in fields are those of each of their values. -/
lemma fieldNames_eq_map (vs : List (String × Json)) :
    fieldNames vs = (vs.map Prod.snd).map looseNames := by
  induction vs with
  | nil => rfl
  | cons v vs ih => rw [fieldNames, ih, List.map_cons, List.map_cons]

/-- The names in a value are its own, if it is a double, and those in the values that it is made
of. -/
lemma looseNames_eq (v : Json) :
    v.looseNames = (match v with | .number (.float x) => x.looseNames | _ => []) ++
      v.children.flatMap looseNames := by
  cases v with
  | null | bool _ | string _ => rfl
  | number n => cases n <;> simp [looseNames, children]
  | array items => rw [looseNames, itemNames_eq_map]; rfl
  | object fields => rw [looseNames, fieldNames_eq_map]; rfl

/-- The names in a value are the two that doubles have. -/
lemma mem_of_mem_looseNames {v : Json} {w : String} (h : w ∈ v.looseNames) :
    w = "nan" ∨ w = "inf" := by
  induction v using induction_children with
  | h v ih =>
    rw [looseNames_eq, List.mem_append, List.mem_flatMap] at h
    rcases h with h | ⟨u, hu, hw⟩
    · split at h
      · rename_i x
        cases x <;> simp_all [Binary64.looseNames]
      · cases h
    · exact ih u hu hw

/-- What holds of all doubles within a value holds of all doubles that its parts are or have within
them. -/
lemma forall_within_iff {v : Json} {P : Binary64 → Prop} :
    (∀ x, Within (.number (.float x)) v → P x) ↔
    ∀ u ∈ v.children, ∀ x, u = .number (.float x) ∨ Within (.number (.float x)) u → P x := by
  constructor
  · intro h u hu x hx
    exact h x (Relation.TransGen.tail' (Relation.reflTransGen_iff_eq_or_transGen.mpr hx) hu)
  · intro h x hx
    obtain ⟨u, hreach, hu⟩ := Relation.TransGen.tail'_iff.mp hx
    exact h u hu x (Relation.reflTransGen_iff_eq_or_transGen.mp hreach)

/-- There is no name in a value exactly if the value, if it is a double, and all doubles within it
are finite. -/
lemma looseNames_eq_nil_iff {v : Json} : v.looseNames = [] ↔
    ∀ x, v = .number (.float x) ∨ Within (.number (.float x)) v → x.isFinite = true := by
  induction v using induction_children with
  | h v ih =>
    have hown : (match v with | .number (.float x) => x.looseNames | _ => []) = [] ↔
        ∀ x, v = .number (.float x) → x.isFinite = true := by
      split
      · rename_i y
        cases y <;> simp [Binary64.looseNames, Binary64.isFinite]
      · rename_i hother
        simpa using fun x hx => absurd hx (hother x)
    have hparts : v.children.flatMap looseNames = [] ↔ ∀ x, Within (.number (.float x)) v →
        x.isFinite = true := by
      rw [List.flatMap_eq_nil_iff, forall_within_iff]
      exact forall₂_congr ih
    rw [looseNames_eq, List.append_eq_nil_iff, hown, hparts]
    simp only [or_imp, forall_and]

end Json

/-- The literal of a text shows no name. -/
lemma Literal.shows_ofText (s : String) : Shows (ofText s).written.toList [] := by
  unfold ofText
  simp only
  split
  · exact shows_int _
  · split
    · exact Binary64.shows_floatText _
    · exact shows_quoted s

/-- The names in a literal are those of the doubles within its value that are not finite. -/
lemma Literal.shows_written {v : Json} {l : Literal} (h : Literal.ofValue? (.int 0) v = some l) :
    Shows l.written.toList (v.children.flatMap Json.looseNames) := by
  have hl : (ofJson? v).getD (.int 0) = l := by
    unfold ofValue? at h
    simp only at h
    split_ifs at h
    exact Option.some.inj h
  subst hl
  cases v with
  | null => exact shows_int 0
  | bool b => exact Binary64.shows_floatText (if b then Binary64.one else Binary64.zero false)
  | number n =>
    cases n with
    | int n => exact shows_int n
    | float x => exact Binary64.shows_floatText x
  | string s =>
    rw [ofJson?]
    split_ifs
    · exact shows_int 0
    · rw [Option.getD_some]
      exact shows_ofText s
  | array items =>
    have hshows := (Json.array items).shows_expression
    rw [Json.looseNames_eq] at hshows
    exact hshows
  | object fields =>
    have hshows := (Json.object fields).shows_expression
    rw [Json.looseNames_eq] at hshows
    exact hshows

/-- A value as a literal is written is its literal, written. -/
lemma Json.literalText?_zero (v : Json) :
    literalText? "0" v = (Literal.ofValue? (.int 0) v).map Literal.written := by
  unfold literalText? Literal.ofValue?
  cases Literal.ofJson? v with
  | none => rw [Option.getD_none, if_pos Literal.isWritable_zero]; rfl
  | some l => rw [Option.getD_some, Option.map_if]

/-- **Which names a literal has.** Every value without an integer that is too long has a literal,
and the literal is read as a sequence of tokens. Outside of its texts it has no names but constants
and the `float` of calls exactly if no double that stands within the value, at any depth, is
infinite or no number; otherwise it has the names of these doubles. The declaration of a variable
has the names of the object and of the variable besides. -/
theorem Json.freeNames_literal {v : Json} (hv : v.isWritable = true) :
    ∃ l ts, Literal.ofValue? (.int 0) v = some l ∧ literalText? "0" v = some l.written ∧
      tokens l.written.toList = some ts ∧
      (∀ name remark, IsIdentifier name → (∀ r ∈ remark, IsOneLine r) →
        tokens (assignText name (.literal l) remark).toList =
          some (.name "self" :: .sign "." :: .name name :: .sign "=" :: ts)) ∧
      (∀ w ∈ freeNames ts, w = "nan" ∨ w = "inf") ∧
      (freeNames ts = [] ↔ ∀ x, Within (.number (.float x)) v → x.isFinite = true) := by
  obtain ⟨l, hl⟩ : ∃ l, Literal.ofValue? (.int 0) v = some l := by
    rw [← Option.ne_none_iff_exists', ne_eq, Literal.ofValue?_eq_none_iff Literal.isWritable_zero,
      hv]
    decide
  obtain ⟨ts, hlexes, hnames⟩ := Literal.shows_written hl
  have hnames := hnames []
  rw [List.append_nil, freeNames, List.append_nil] at hnames
  refine ⟨l, ts, hl, by rw [literalText?_zero, hl, Option.map_some], hlexes.tokens_eq,
    fun name remark hname hremark =>
      tokens_assignText hname (show Lexes (Rhs.literal l).text.toList ts from hlexes) hremark,
    ?_, ?_⟩
  · intro w hw
    obtain ⟨u, -, hw⟩ := List.mem_flatMap.mp (hnames ▸ hw)
    exact mem_of_mem_looseNames hw
  · rw [hnames, List.flatMap_eq_nil_iff, forall_within_iff]
    exact forall₂_congr fun u _ => looseNames_eq_nil_iff

/-- An object with a text that looks like code, and with an infinite double two levels below it. -/
def Json.nestedInfinity : Json :=
  .object [("it's", .string "'); nan #"),
    ("limits", .array [.null, .object [("low", .number (.float (.infinite true)))]])]

/-- The text in `nestedInfinity` shows no name, and the infinite double shows its own. -/
theorem Json.freeNames_literal_nestedInfinity :
    nestedInfinity.isWritable = true ∧ ∃ l ts, Literal.ofValue? (.int 0) nestedInfinity = some l ∧
      literalText? "0" nestedInfinity = some l.written ∧ tokens l.written.toList = some ts ∧
      (∀ name remark, IsIdentifier name → (∀ r ∈ remark, IsOneLine r) →
        tokens (assignText name (.literal l) remark).toList =
          some (.name "self" :: .sign "." :: .name name :: .sign "=" :: ts)) ∧
      (∀ w ∈ freeNames ts, w = "nan" ∨ w = "inf") ∧
      (freeNames ts = [] ↔ ∀ x, Within (.number (.float x)) nestedInfinity → x.isFinite = true) :=
  ⟨rfl, freeNames_literal rfl⟩

/-- The literal of a list with a double that is no number has a name that nothing in the program
has. -/
theorem Json.freeNames_literal_nanList :
    literalText? "0" (.array [.number (.float .nan)]) = some "[nan]" ∧
      tokens "[nan]".toList = some [.sign "[", .name "nan", .sign "]"] ∧
      freeNames [.sign "[", .name "nan", .sign "]"] = ["nan"] := by
  decide

end LogicGraph
