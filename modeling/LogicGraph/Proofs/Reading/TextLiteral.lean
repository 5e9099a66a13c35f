import Mathlib.Algebra.Group.Nat.Defs
import Mathlib.Tactic.Common
import LogicGraph.Proofs.Text.Sealed
import LogicGraph.Text.Stem

set_option relaxedAutoImplicit false
set_option autoImplicit false

/-!
# Reading text literals

The generated language has text literals between two quotes or between two groups of three quotes.
This module reads such a literal by the rules of the language, from its opening quote on: it says
which text the literal denotes and where it ends. A quoted text is then read as the text itself, up
to its last character.

## Main definitions

* `LogicGraph.Text.escapeSequence?` — what a backslash stands for together with what follows it.
* `LogicGraph.Text.textFrom?` — the rest of a text literal.
* `LogicGraph.Text.textLiteral?` — a text literal.

## Main results

* `LogicGraph.Text.textFrom?_escape_append` — what is written for a character is read as the
  character.
* `LogicGraph.Text.textLiteral?_quoted_append` — a quoted text is read as the text.

## Implementation notes

A reader gives up where the language does, and in three more places: at a character that is called
by its name, at a code point that is no character, and at a carriage return, which is a line end in
the language. So whatever it reads is read by the language in the same way. An escape sequence takes
more than one character, and the number of those still to be passed over is kept while the reader
goes on; so it is structural.
-/

namespace LogicGraph.Text

/-! ## Escape sequences -/

/-- The value of a hexadecimal digit. -/
def hexDigit? (c : Char) : Option Nat :=
  if '0' ≤ c ∧ c ≤ '9' then some (c.toNat - '0'.toNat)
  else if 'a' ≤ c ∧ c ≤ 'f' then some (c.toNat - 'a'.toNat + 10)
  else if 'A' ≤ c ∧ c ≤ 'F' then some (c.toNat - 'A'.toNat + 10)
  else none

/-- The number that exactly `width` hexadecimal digits spell behind the number `n`, and the rest of
the text. -/
def hexNumber? : Nat → Nat → List Char → Option (Nat × List Char)
  | 0, n, cs => some (n, cs)
  | _ + 1, _, [] => none
  | width + 1, n, c :: cs => (hexDigit? c).bind fun d => hexNumber? width (16 * n + d) cs

/-- The number that at most `width` octal digits spell behind the number `n`, and the rest of the
text. -/
def octalNumber : Nat → Nat → List Char → Nat × List Char
  | width + 1, n, c :: cs =>
    if '0' ≤ c ∧ c ≤ '7' then octalNumber width (8 * n + (c.toNat - '0'.toNat)) cs else (n, c :: cs)
  | _, n, cs => (n, cs)

/-- The character with the given code point. -/
def charOf? (n : Nat) : Option Char :=
  if n.isValidChar then some (Char.ofNat n) else none

/-- The characters that stand for one character behind a backslash, and what they stand for. -/
def escapeLetters : List (Char × Char) :=
  [('\\', '\\'), ('\'', '\''), ('"', '"'), ('a', '\x07'), ('b', '\x08'), ('f', '\x0c'), ('n', '\n'),
    ('r', '\r'),
   ('t', '\t'), ('v', '\x0b')]

/-- The letters in front of a code point behind a backslash, and how many hexadecimal digits follow
them. -/
def codePointWidths : List (Char × Nat) :=
  [('x', 2), ('u', 4), ('U', 8)]

/-- What a backslash stands for together with the text behind it, and the rest of the text. A line
end behind a backslash does not count, and a backslash that starts no sequence stands for itself. -/
def escapeSequence? : List Char → Option (List Char × List Char)
  | [] => none
  | c :: cs =>
    match escapeLetters.lookup c, codePointWidths.lookup c with
    | some d, _ => some ([d], cs)
    | none,
        some width => (hexNumber? width 0 cs).bind fun (n, rest) => (charOf? n).map fun d =>
          ([d], rest)
    | none, none =>
      if c = '\n' then some ([], cs)
      else if c = '\r' ∨ c = 'N' then none
      else if '0' ≤ c ∧ c ≤ '7' then
        let (n, rest) := octalNumber 3 0 (c :: cs)
        (charOf? n).map fun d => ([d], rest)
      else some (['\\', c], cs)

/-! ## Text literals -/

/-- The quotes at the end of a text literal. -/
def closingQuotes (mark : Char) (isTriple : Bool) : List Char :=
  if isTriple then [mark, mark, mark] else [mark]

/-- The text that is left of a text literal after its opening quotes, and what stands behind its
closing quotes; `skip` many characters have been read already. Only a literal in triple quotes goes
over more than one line. -/
def textFrom? (mark : Char) (isTriple : Bool) : Nat → List Char → Option (List Char × List Char)
  | _, [] => none
  | skip + 1, _ :: cs => textFrom? mark isTriple skip cs
  | 0, c :: cs =>
    match afterStem? (closingQuotes mark isTriple) (c :: cs) with
    | some rest => some ([], rest)
    | none =>
      if c = '\\' then
        (escapeSequence? cs).bind fun (ds, rest) =>
          (textFrom? mark isTriple (cs.length - rest.length) cs).map fun (text, behind) =>
            (ds ++ text, behind)
      else if c = '\x00' ∨ c = '\r' ∨ (c = '\n' ∧ isTriple = false) then none
      else (textFrom? mark isTriple 0 cs).map fun (text, behind) => (c :: text, behind)

/-- The text of a text literal that stands in front of a text, and the rest of the text. -/
def textLiteral? : List Char → Option (List Char × List Char)
  | [] => none
  | mark :: cs =>
    if mark = '\'' ∨ mark = '"' then
      match afterStem? [mark, mark] cs with
      | some cs => textFrom? mark true 0 cs
      | none => textFrom? mark false 0 cs
    else none

/-! ## Code points -/

/-- A hexadecimal digit is read as its value. -/
lemma hexDigit?_digitChar : ∀ d < 16, hexDigit? (Nat.digitChar d) = some d := by
  decide

/-- Digits are read one after another. -/
lemma hexNumber?_append {cs : List Char} {m n : Nat} (h : hexNumber? cs.length n cs = some (m, []))
    (width : Nat) (rest : List Char) :
    hexNumber? (cs.length + width) n (cs ++ rest) = hexNumber? width m rest := by
  induction cs generalizing n with
  | nil =>
    cases h
    rw [List.length_nil, Nat.zero_add, List.nil_append]
  | cons c cs ih =>
    rw [List.length_cons, hexNumber?] at h
    rw [List.length_cons, Nat.succ_add, List.cons_append, hexNumber?]
    cases hd : hexDigit? c with
    | none => simp [hd] at h
    | some d =>
      rw [hd, Option.bind_some] at h
      rw [Option.bind_some, ih h]

/-- The digits of a number spell it. -/
lemma hexNumber?_toDigits (n k : Nat) :
    hexNumber? (Nat.toDigits 16 n).length k (Nat.toDigits 16 n) =
      some (16 ^ (Nat.toDigits 16 n).length * k + n, []) := by
  induction n using Nat.strongRecOn with
  | ind n ih =>
    rw [Nat.toDigits_eq_if (by decide)]
    split_ifs with hn
    · simp [hexNumber?, hexDigit?_digitChar n hn]
    · have hmod : n % 16 < 16 := Nat.mod_lt n (by decide)
      rw [List.length_append, hexNumber?_append (ih (n / 16) (by omega)), List.length_singleton,
        hexNumber?, hexDigit?_digitChar _ hmod, Option.bind_some, hexNumber?, Nat.pow_succ]
      congr 2
      have hsplit := Nat.div_add_mod n 16
      rw [Nat.mul_add, Nat.mul_comm (16 ^ _) 16, Nat.mul_assoc]
      omega

/-- Zeros in front of the digits of a number do not change it. -/
lemma hexNumber?_replicate (k : Nat) :
    hexNumber? (List.replicate k '0').length 0 (List.replicate k '0') = some (0, []) := by
  induction k with
  | zero => rfl
  | succ k ih =>
    rw [List.replicate_succ, List.length_cons, hexNumber?]
    exact ih

/-- The padded digits of a number spell it, if it has room in them. -/
lemma hexNumber?_hexPadded {width n : Nat} (hwidth : 0 < width) (hn : n < 16 ^ width)
    (rest : List Char) :
    hexNumber? width 0 (hexPadded width n ++ rest) = some (n, rest) := by
  have hlength : (Nat.toDigits 16 n).length ≤ width :=
    (Nat.length_toDigits_le_iff (by decide) hwidth).mpr hn
  have hzeros :=
    hexNumber?_append (hexNumber?_replicate (width - (Nat.toDigits 16 n).length))
      (Nat.toDigits 16 n).length
    (Nat.toDigits 16 n ++ rest)
  have hdigits := hexNumber?_append (hexNumber?_toDigits n 0) 0 rest
  rw [List.length_replicate, Nat.sub_add_cancel hlength] at hzeros
  rw [Nat.mul_zero, Nat.zero_add] at hdigits
  rw [hexPadded, List.append_assoc, hzeros]
  exact hdigits

/-- A character is found by its number. -/
lemma charOf?_toNat (c : Char) : charOf? c.toNat = some c := by
  have hvalid : c.toNat.isValidChar := c.valid
  rw [charOf?, if_pos hvalid, Char.ofNat_toNat]

/-- The escape of a code point is read as its character. -/
lemma escapeSequence?_codePoint (c : Char) :
    ∃ cs, codePointEscape c = '\\' :: cs ∧
      ∀ rest, escapeSequence? (cs ++ rest) = some ([c], rest) := by
  have hread : ∀ {letter width}, escapeLetters.lookup letter = none →
      codePointWidths.lookup letter = some width →
      0 < width → c.toNat < 16 ^ width → ∀ rest,
      escapeSequence? (letter :: hexPadded width c.toNat ++ rest) = some ([c], rest) := by
    intro letter width hletter hlookup hwidth hc rest
    rw [List.cons_append, escapeSequence?, hletter, hlookup]
    simp only [hexNumber?_hexPadded hwidth hc, Option.bind_some, charOf?_toNat, Option.map_some]
  unfold codePointEscape
  split_ifs with h₁ h₂
  · exact ⟨_, rfl, hread rfl rfl (by decide) h₁⟩
  · exact ⟨_, rfl, hread rfl rfl (by decide) h₂⟩
  · have hmax : c.toNat < 0x110000 := by
      rcases c.valid with h | h
      · exact Nat.lt_trans h (by decide)
      · exact h.2
    exact ⟨_, rfl, hread rfl rfl (by decide) (Nat.lt_trans hmax (by decide))⟩

/-! ## Quoted texts -/

/-- Characters that have been read are passed over. -/
lemma textFrom?_length_append (mark : Char) (isTriple : Bool) (cs rest : List Char) :
    textFrom? mark isTriple cs.length (cs ++ rest) = textFrom? mark isTriple 0 rest := by
  induction cs with
  | nil => rfl
  | cons c cs ih =>
    rw [List.length_cons, List.cons_append, textFrom?]
    exact ih

/-- What a reader makes of characters that stand for the given ones. -/
abbrev inFront (ds : List Char) (read : List Char × List Char) : List Char × List Char :=
  (ds ++ read.1, read.2)

/-- Closing quotes are not read where another character stands. -/
lemma afterStem?_closingQuotes {mark c : Char} (hc : c ≠ mark) (isTriple : Bool) (cs : List Char) :
    afterStem? (closingQuotes mark isTriple) (c :: cs) = none := by
  cases isTriple <;> simp [closingQuotes, afterStem?, Ne.symm hc]

/-- An escape sequence within a text literal. -/
lemma textFrom?_backslash {mark : Char} {isTriple : Bool} (hmark : mark ≠ '\\') {cs ds : List Char}
    (h : ∀ rest, escapeSequence? (cs ++ rest) = some (ds, rest)) (rest : List Char) :
    textFrom? mark isTriple 0 ('\\' :: cs ++ rest) = (textFrom? mark isTriple 0 rest).map
      (inFront ds) := by
  have hskip : (cs ++ rest).length - rest.length = cs.length := by
    rw [List.length_append, Nat.add_sub_cancel]
  rw [List.cons_append, textFrom?, afterStem?_closingQuotes hmark.symm]
  simp only [if_true, h, Option.bind_some, hskip, textFrom?_length_append]

/-- A character that stands for itself within a text literal. -/
lemma textFrom?_cons {mark c : Char} {isTriple : Bool} (hmark : c ≠ mark)
    (hc : c ∉ ['\\', '\x00', '\r', '\n']) (rest : List Char) :
    textFrom? mark isTriple 0 (c :: rest) = (textFrom? mark isTriple 0 rest).map (inFront [c]) := by
  simp only [List.mem_cons, List.not_mem_nil, or_false, not_or] at hc
  rw [textFrom?, afterStem?_closingQuotes hmark]
  simp only [hc, if_false, false_and, or_self]
  rfl

/-- **What is written for a character is read as the character.** -/
lemma textFrom?_escape_append {mark : Char} (hmark : mark ∈ ['\'', '"']) (c : Char)
    (rest : List Char) :
    textFrom? mark false 0 (escape mark c ++ rest) = (textFrom? mark false 0 rest).map
      (inFront [c]) := by
  have hb : mark ≠ '\\' := by
    rintro rfl
    exact absurd hmark (by decide)
  have hletter : ∀ {letter d}, escapeLetters.lookup letter = some d →
      textFrom? mark false 0 (['\\', letter] ++ rest) = (textFrom? mark false 0 rest).map
        (inFront [d]) := by
    intro letter d hlookup
    have hread : ∀ rest, escapeSequence? ([letter] ++ rest) = some ([d], rest) := fun rest => by
      rw [List.singleton_append, escapeSequence?, hlookup]
    exact textFrom?_backslash hb hread rest
  unfold escape
  split_ifs with h₁ h₂ h₃ h₄ h₅
  · refine hletter ?_
    rcases h₁ with rfl | rfl
    · rcases List.mem_pair.mp hmark with rfl | rfl <;> rfl
    · rfl
  · rw [h₂]
    exact hletter rfl
  · rw [h₃]
    exact hletter rfl
  · rw [h₄]
    exact hletter rfl
  · have hnull : c ≠ '\x00' := by
      rintro rfl
      exact absurd h₅ (by decide)
    rw [not_or] at h₁
    refine textFrom?_cons h₁.1 ?_ rest
    simp [h₁.2, hnull, h₂, h₃]
  · obtain ⟨cs, hcs, hread⟩ := escapeSequence?_codePoint c
    rw [hcs]
    exact textFrom?_backslash hb hread rest

/-- The characters of a quoted text are read as the text. -/
lemma textFrom?_flatMap_escape {mark : Char} (hmark : mark ∈ ['\'', '"']) (cs rest : List Char) :
    textFrom? mark false 0 (cs.flatMap (escape mark) ++ mark :: rest) = some (cs, rest) := by
  induction cs with
  | nil => simp [textFrom?, closingQuotes, afterStem?]
  | cons c cs ih =>
    rw [List.flatMap_cons, List.append_assoc, textFrom?_escape_append hmark, ih]
    rfl

/-- What is written for a character does not start with the mark. -/
lemma head?_escape_ne {mark : Char} (hmark : mark ∈ ['\'', '"']) (c : Char) :
    (escape mark c).head? ≠ some mark := by
  have hb : '\\' ≠ mark := by
    rintro rfl
    exact absurd hmark (by decide)
  unfold escape
  split_ifs with h₁ h₂ h₃ h₄ h₅
  · simpa using hb
  · simpa using hb
  · simpa using hb
  · simpa using hb
  · simpa using fun h => h₁ (.inl h)
  · obtain ⟨cs, hcs, -⟩ := escapeSequence?_codePoint c
    rw [hcs]
    simpa using hb

/-- **A quoted text is read as the text**, and nothing behind it is read. Only the empty text could
be taken for the start of triple quotes, if another quote stood behind it. -/
lemma textLiteral?_quoted_append {s : String} {rest : List Char}
    (h : s = "" → rest.head? ≠ some '\'') :
    textLiteral? ((quoted s).toList ++ rest) = some (s.toList, rest) := by
  have hmark := quoteMark_mem s.toList
  have hnotTriple : afterStem? [quoteMark s.toList, quoteMark s.toList]
      (s.toList.flatMap (escape (quoteMark s.toList)) ++ quoteMark s.toList :: rest) = none := by
    cases hs : s.toList with
    | nil =>
      have hrest := h (String.toList_eq_nil_iff.mp hs)
      cases rest with
      | nil => rfl
      | cons c cs =>
        have hne : '\'' ≠ c := by simpa [eq_comm] using hrest
        simp [quoteMark, afterStem?, hne]
    | cons c cs =>
      rw [hs] at hmark
      have hhead := head?_escape_ne hmark c
      generalize quoteMark (c :: cs) = mark at hhead
      rw [List.flatMap_cons]
      cases hescape : escape mark c with
      | nil =>
        exfalso
        revert hescape
        unfold escape codePointEscape
        split_ifs <;> simp
      | cons d ds =>
        rw [hescape] at hhead
        simp only [List.head?_cons, ne_eq, Option.some.injEq] at hhead
        simp [afterStem?, Ne.symm hhead]
  rw [quoted, String.toList_ofList, quotedChars, List.append_assoc, List.cons_append, textLiteral?,
    if_pos (List.mem_pair.mp hmark), List.singleton_append, hnotTriple]
  exact textFrom?_flatMap_escape hmark s.toList rest

end LogicGraph.Text
