import Mathlib.Data.List.Basic
import Mathlib.Tactic.Common
import LogicGraph.Program.Literal
import LogicGraph.Text.Identifier

set_option relaxedAutoImplicit false
set_option autoImplicit false

/-!
# Texts that stay in their place

Text of the user goes into a program between quotes, behind a comment sign, or as an identifier.
This module states when a piece of text cannot leave its place: it has no line end, and a reader
that follows the quotes is outside of all quotes at its end and has met only a few harmless
characters outside of them.

## Main definitions

* `LogicGraph.Text.IsOneLine` — a text without line ends.
* `LogicGraph.Text.IsClean` — a text without control characters.
* `LogicGraph.Text.QuoteState` — where a reader is: outside quotes, inside, or behind a backslash.
* `LogicGraph.Text.IsSealed` — a text that starts and ends outside quotes, with only numerals,
  brackets and the fixed words of literals outside.
* `LogicGraph.Text.Composes` — properties that literals have because their parts do.

## Main results

* `LogicGraph.Text.isOneLine_oneLine` — a text folded onto one line has no line end.
* `LogicGraph.Text.isSealed_quotedChars` — a quoted text is sealed.
* `LogicGraph.Literal.isClean_written`, `LogicGraph.Literal.isSealed_written` — every literal is
  clean and sealed.
-/

namespace LogicGraph.Text

/-! ## One line -/

/-- A text without line ends. -/
def IsOneLine (s : String) : Prop :=
  ∀ c ∈ s.toList, c ≠ '\n' ∧ c ≠ '\r'

/-- It is decidable whether a text has one line. -/
instance (s : String) : Decidable (IsOneLine s) :=
  inferInstanceAs (Decidable (∀ c ∈ s.toList, c ≠ '\n' ∧ c ≠ '\r'))

/-- Two texts make one line together if both are on one line. -/
@[simp] lemma isOneLine_append {s t : String} : IsOneLine (s ++ t) ↔ IsOneLine s ∧ IsOneLine t := by
  simp only [IsOneLine, String.toList_append, List.forall_mem_append]

/-- A text of given characters is on one line if none of them is a line end. -/
@[simp] lemma isOneLine_ofList {cs : List Char} :
    IsOneLine (String.ofList cs) ↔ ∀ c ∈ cs, c ≠ '\n' ∧ c ≠ '\r' := by
  rw [IsOneLine, String.toList_ofList]

/-- What is kept when texts are put together holds of a join if it holds of the separator and of all
parts. -/
lemma intercalate_of_append {P : List Char → Prop} (hnil : P [])
    (happend : ∀ {cs ds}, P cs → P ds → P (cs ++ ds)) {sep : String} {parts : List String}
    (hsep : P sep.toList) (hparts : ∀ s ∈ parts, P s.toList) :
    P (sep.intercalate parts).toList := by
  induction parts with
  | nil => exact hnil
  | cons s rest ih =>
    rw [List.forall_mem_cons] at hparts
    cases rest with
    | nil => exact hparts.1
    | cons t rest =>
      rw [String.intercalate_cons_cons, String.toList_append, String.toList_append]
      exact happend (happend hparts.1 hsep) (ih hparts.2)

/-! ## Control characters -/

/-- The control characters of ASCII in front of the space: the null character, the line ends and
others. -/
def isControl (c : Char) : Bool :=
  decide (c.toNat < 32)

/-- A class of characters has no control characters if none of the 32 is in it. -/
lemma isControl_eq_false {p : Char → Bool} (hp : ∀ n < 32, p (Char.ofNat n) = false) {c : Char}
    (h : p c = true) :
    isControl c = false := by
  rw [Bool.eq_false_iff]
  intro hc
  have hnot := hp c.toNat (of_decide_eq_true hc)
  rw [Char.ofNat_toNat, h] at hnot
  cases hnot

/-- A text without control characters. -/
def IsClean (s : String) : Prop :=
  ∀ c ∈ s.toList, isControl c = false

/-- It is decidable whether a text is clean. -/
instance (s : String) : Decidable (IsClean s) :=
  inferInstanceAs (Decidable (∀ c ∈ s.toList, isControl c = false))

/-- A text is clean if both of its parts are. -/
@[simp] lemma isClean_append {s t : String} : IsClean (s ++ t) ↔ IsClean s ∧ IsClean t := by
  simp only [IsClean, String.toList_append, List.forall_mem_append]

/-- A text is clean if none of its characters is a control character. -/
@[simp] lemma isClean_ofList {cs : List Char} :
    IsClean (String.ofList cs) ↔ ∀ c ∈ cs, isControl c = false := by
  rw [IsClean, String.toList_ofList]

/-- A join of clean texts with a clean separator is clean. -/
lemma isClean_intercalate {sep : String} {parts : List String} (hsep : IsClean sep)
    (hparts : ∀ s ∈ parts, IsClean s) :
    IsClean (sep.intercalate parts) :=
  intercalate_of_append (P := fun cs => ∀ c ∈ cs, isControl c = false) (by simp)
    (fun hc hd => List.forall_mem_append.mpr ⟨hc, hd⟩) hsep hparts

/-- The line ends are control characters. -/
lemma IsClean.isOneLine {s : String} (h : IsClean s) : IsOneLine s := by
  intro c hc
  constructor <;> rintro rfl <;> exact absurd (h _ hc) (by decide)

/-- A text folded onto one line has no line end. -/
lemma isOneLine_oneLine (s : String) : IsOneLine (oneLine s) := by
  intro c hc
  constructor
  · rintro rfl
    exact not_mem_oneLine_of_isBlank (by decide) (by decide) hc
  · rintro rfl
    exact not_mem_oneLine_of_isBlank (by decide) (by decide) hc

/-! ## Quotes -/

/-- Where a reader of program text is. -/
inductive QuoteState where
  /-- Outside quotes. -/
  | bare
  /-- Behind an opening mark. -/
  | inside (mark : Char)
  /-- Behind a backslash behind an opening mark. -/
  | escaped (mark : Char)
  deriving DecidableEq

/-- Where a reader is after one more character. -/
def QuoteState.next : QuoteState → Char → QuoteState
  | bare, c => if c = '\'' ∨ c = '"' then inside c else bare
  | inside mark, c => if c = mark then bare else if c = '\\' then escaped mark else inside mark
  | escaped mark, _ => inside mark

/-- The characters that are read outside quotes; the marks themselves do not count. -/
def bareChars : QuoteState → List Char → List Char
  | _, [] => []
  | s, c :: cs => (if s = .bare ∧ s.next c = .bare then [c] else []) ++ bareChars (s.next c) cs

/-- The characters of numerals, brackets and the words for the values that have no other literal. -/
def isLiteralChar (c : Char) : Bool :=
  c.isDigit || "+-.,: ()[]\x7b\x7dNTFaefilnorstu".toList.contains c

/-- A text that a reader leaves outside quotes, with only harmless characters outside them. -/
def IsSealed (cs : List Char) : Prop :=
  cs.foldl QuoteState.next .bare = .bare ∧ ∀ c ∈ bareChars .bare cs, isLiteralChar c = true

/-- The characters outside quotes in two texts, one behind the other. -/
lemma bareChars_append (s : QuoteState) (cs ds : List Char) :
    bareChars s (cs ++ ds) = bareChars s cs ++ bareChars (cs.foldl QuoteState.next s) ds := by
  induction cs generalizing s with
  | nil => rfl
  | cons c cs ih =>
    rw [List.cons_append, bareChars, bareChars, ih, List.foldl_cons, List.append_assoc]

/-- A sealed text behind a sealed text. -/
lemma IsSealed.append {cs ds : List Char} (hc : IsSealed cs) (hd : IsSealed ds) :
    IsSealed (cs ++ ds) := by
  refine ⟨?_, ?_⟩
  · rw [List.foldl_append, hc.1, hd.1]
  · intro c h
    rw [bareChars_append, hc.1, List.mem_append] at h
    exact h.elim (hc.2 c) (hd.2 c)

/-- A text of harmless characters is sealed. -/
lemma isSealed_of_forall {cs : List Char} (h : ∀ c ∈ cs, isLiteralChar c = true) : IsSealed cs := by
  induction cs with
  | nil => exact ⟨rfl, by simp [bareChars]⟩
  | cons c cs ih =>
    have hc := h c List.mem_cons_self
    have hquote : ¬ (c = '\'' ∨ c = '"') := by
      rintro (rfl | rfl) <;> exact absurd hc (by decide)
    have hnext : QuoteState.bare.next c = .bare := by simp [QuoteState.next, hquote]
    obtain ⟨hstate, hbare⟩ := ih fun d hd => h d (List.mem_cons_of_mem _ hd)
    refine ⟨?_, ?_⟩
    · rw [List.foldl_cons, hnext, hstate]
    · intro d hd
      simp only [bareChars, hnext, and_self, if_true, List.singleton_append, List.mem_cons] at hd
      rcases hd with rfl | hd
      · exact hc
      · exact hbare d hd

/-! ## Quoted texts -/

/-- Characters that a reader passes without leaving the quotes. -/
def StaysInside (mark : Char) (cs : List Char) : Prop :=
  cs.foldl QuoteState.next (.inside mark) = .inside mark ∧ bareChars (.inside mark) cs = []

/-- Characters inside quotes behind characters inside quotes. -/
lemma StaysInside.append {mark : Char} {cs ds : List Char} (hc : StaysInside mark cs)
    (hd : StaysInside mark ds) : StaysInside mark (cs ++ ds) := by
  refine ⟨?_, ?_⟩
  · rw [List.foldl_append, hc.1, hd.1]
  · rw [bareChars_append, hc.1, hc.2, hd.2, List.append_nil]

/-- A character that is neither the mark nor a backslash stays inside. -/
lemma staysInside_singleton {mark c : Char} (hm : c ≠ mark) (hb : c ≠ '\\') :
    StaysInside mark [c] := by
  simp [StaysInside, bareChars, QuoteState.next, hm, hb]

/-- Characters none of which is the mark or a backslash stay inside. -/
lemma staysInside_of_forall {mark : Char} {cs : List Char} (h : ∀ c ∈ cs, c ≠ mark ∧ c ≠ '\\') :
    StaysInside mark cs := by
  induction cs with
  | nil => exact ⟨rfl, rfl⟩
  | cons c cs ih =>
    obtain ⟨hm, hb⟩ := h c List.mem_cons_self
    exact (staysInside_singleton hm hb).append (ih fun d hd => h d (List.mem_cons_of_mem _ hd))

/-- A backslash and any character behind it stay inside. -/
lemma staysInside_escape {mark : Char} (hm : mark ≠ '\\') (c : Char) :
    StaysInside mark ['\\', c] := by
  simp [StaysInside, bareChars, QuoteState.next, hm.symm]

/-- The digits of a number are characters of digits. -/
lemma exists_digitChar_of_mem_toDigits {b n : Nat} (hb : 1 < b) {c : Char}
    (h : c ∈ Nat.toDigits b n) :
    ∃ k, c = Nat.digitChar k := by
  induction n using Nat.strongRecOn with
  | ind n ih =>
    rw [Nat.toDigits_eq_if hb] at h
    split at h
    · exact ⟨n, by simpa using h⟩
    · rcases List.mem_append.mp h with h | h
      · exact ih (n / b) (Nat.div_lt_self (by omega) hb) h
      · exact ⟨n % b, by simpa using h⟩

/-- What zeros and the characters of digits have, hexadecimal digits have. -/
lemma exists_digitChar_of_mem_hexPadded {width n : Nat} {c : Char} (h : c ∈ hexPadded width n) :
    ∃ k, c = Nat.digitChar k := by
  rcases List.mem_append.mp h with h | h
  · exact ⟨0, (List.mem_replicate.mp h).2⟩
  · exact exists_digitChar_of_mem_toDigits (by decide) h

/-- A hexadecimal digit is neither a quote nor a backslash. -/
lemma ne_of_mem_hexPadded {width n : Nat} {c d : Char} (h : c ∈ hexPadded width n)
    (hd : d ∈ ['\'', '"', '\\']) :
    c ≠ d := by
  obtain ⟨k, rfl⟩ := exists_digitChar_of_mem_hexPadded h
  apply Nat.digitChar_ne
  revert hd
  revert d
  decide

/-- Digits are no control characters. -/
lemma isControl_digitChar (k : Nat) : isControl (Nat.digitChar k) = false := by
  have hdigits : ∀ k < 16, isControl (Nat.digitChar k) = false := by decide
  rcases Nat.lt_or_ge k 16 with hk | hk
  · exact hdigits k hk
  · rw [Nat.digitChar_eq_star.mpr hk]
    decide

/-- The escape of a code point is a backslash, a letter and hexadecimal digits. -/
lemma codePointEscape_eq (c : Char) :
    ∃ letter width, letter ∈ ['x', 'u', 'U'] ∧
      codePointEscape c = '\\' :: letter :: hexPadded width c.toNat := by
  unfold codePointEscape
  split_ifs
  · exact ⟨'x', 2, by decide, rfl⟩
  · exact ⟨'u', 4, by decide, rfl⟩
  · exact ⟨'U', 8, by decide, rfl⟩

/-- The mark of a quoted text is one of the two quotes. -/
lemma quoteMark_mem (cs : List Char) : quoteMark cs ∈ ['\'', '"'] := by
  unfold quoteMark
  split_ifs <;> decide

/-- What is written for a character stays inside the quotes. -/
lemma staysInside_escape_char {mark : Char} (hm : mark ∈ ['\'', '"']) (c : Char) :
    StaysInside mark (escape mark c) := by
  have hb : mark ≠ '\\' := by
    rintro rfl
    exact absurd hm (by decide)
  unfold escape
  split_ifs with h₁ h₂ h₃ h₄ h₅
  · exact staysInside_escape hb c
  · exact staysInside_escape hb 'n'
  · exact staysInside_escape hb 'r'
  · exact staysInside_escape hb 't'
  · exact staysInside_singleton (fun h => h₁ (.inl h)) fun h => h₁ (.inr h)
  · obtain ⟨letter, width, -, heq⟩ := codePointEscape_eq c
    rw [heq]
    refine (staysInside_escape hb letter).append (staysInside_of_forall fun d hd => ⟨?_, ?_⟩)
    · exact ne_of_mem_hexPadded hd (by rcases List.mem_pair.mp hm with rfl | rfl <;> decide)
    · exact ne_of_mem_hexPadded hd (by decide)

/-- A reader leaves a quoted text outside quotes, and meets no character outside of them. -/
lemma closed_quotedChars (cs : List Char) :
    (quotedChars cs).foldl QuoteState.next .bare = .bare ∧
    bareChars .bare (quotedChars cs) = [] := by
  have hm := quoteMark_mem cs
  have hbody : StaysInside (quoteMark cs) (cs.flatMap (escape (quoteMark cs))) := by
    generalize quoteMark cs = mark at hm
    induction cs with
    | nil => exact ⟨rfl, rfl⟩
    | cons c cs ih => exact (staysInside_escape_char hm c).append ih
  have hopen : QuoteState.bare.next (quoteMark cs) = .inside (quoteMark cs) := by
    rcases List.mem_pair.mp hm with h | h <;> simp [QuoteState.next, h]
  have hclose : (QuoteState.inside (quoteMark cs)).next (quoteMark cs) = .bare := by
    simp [QuoteState.next]
  refine ⟨?_, ?_⟩
  · rw [quotedChars, List.cons_append, List.foldl_cons, hopen, List.foldl_append, hbody.1,
      List.foldl_cons, hclose, List.foldl_nil]
  · rw [quotedChars, List.cons_append, bareChars, hopen, bareChars_append, hbody.1, hbody.2]
    simp [bareChars]

/-- A quoted text is sealed. -/
lemma isSealed_quotedChars (cs : List Char) : IsSealed (quotedChars cs) := by
  obtain ⟨hstate, hbare⟩ := closed_quotedChars cs
  exact ⟨hstate, by simp [hbare]⟩

/-- The literal of a text is sealed. -/
lemma isSealed_quoted (s : String) : IsSealed (quoted s).toList := by
  rw [quoted, String.toList_ofList]
  exact isSealed_quotedChars s.toList

/-- What is written for a character is clean. -/
lemma isControl_of_mem_escape {mark c d : Char} (hm : mark ∈ ['\'', '"']) (hd : d ∈ escape mark c) :
    isControl d = false := by
  unfold escape at hd
  split_ifs at hd with h₁ h₂ h₃ h₄ h₅
  · rcases List.mem_pair.mp hd with rfl | rfl
    · decide
    · rcases h₁ with rfl | rfl
      · rcases List.mem_pair.mp hm with rfl | rfl <;> decide
      · decide
  · rcases List.mem_pair.mp hd with rfl | rfl <;> decide
  · rcases List.mem_pair.mp hd with rfl | rfl <;> decide
  · rcases List.mem_pair.mp hd with rfl | rfl <;> decide
  · rw [List.mem_singleton] at hd
    exact hd ▸ isControl_eq_false (by decide) h₅
  · obtain ⟨letter, width, hl, heq⟩ := codePointEscape_eq c
    rw [heq, List.mem_cons, List.mem_cons] at hd
    rcases hd with rfl | rfl | hd
    · decide
    · clear heq
      revert hl
      revert d
      decide
    · obtain ⟨k, rfl⟩ := exists_digitChar_of_mem_hexPadded hd
      exact isControl_digitChar k

/-- A quoted text is clean. -/
lemma isClean_quoted (s : String) : IsClean (quoted s) := by
  have hm := quoteMark_mem s.toList
  have hmark : isControl (quoteMark s.toList) = false := by
    rcases List.mem_pair.mp hm with h | h <;> rw [h] <;> decide
  rw [quoted, isClean_ofList, quotedChars]
  intro c hc
  simp only [List.cons_append, List.mem_cons, List.mem_append, List.mem_flatMap, List.not_mem_nil,
    or_false] at hc
  rcases hc with rfl | ⟨d, -, hd⟩ | rfl
  · exact hmark
  · exact isControl_of_mem_escape hm hd
  · exact hmark

/-! ## Numerals -/

/-- The characters of numerals, and of the names of the doubles that are not finite. -/
def isNumeralChar (c : Char) : Bool :=
  c.isDigit || "+-.aefin".toList.contains c

/-- A character of a numeral is harmless. -/
lemma isLiteralChar_of_isNumeralChar {c : Char} (h : isNumeralChar c = true) :
    isLiteralChar c = true := by
  rw [isNumeralChar, Bool.or_eq_true] at h
  rcases h with h | h
  · simp [isLiteralChar, h]
  · have hfixed : ∀ d ∈ "+-.aefin".toList, isLiteralChar d = true := by decide
    exact hfixed c (by simpa using h)

/-- The decimal digits of a number are characters of numerals. -/
lemma isNumeralChar_of_mem_toDigits {n : Nat} {c : Char} (h : c ∈ Nat.toDigits 10 n) :
    isNumeralChar c = true := by
  have hdigit : c.isDigit = true := Nat.isDigit_of_mem_toDigits (by decide) (by decide) h
  simp [isNumeralChar, hdigit]

/-- The characters of an integer are characters of numerals. -/
lemma isNumeralChar_of_mem_int {n : Int} {c : Char} (h : c ∈ (toString n).toList) :
    isNumeralChar c = true := by
  rw [Int.toString_eq_repr, Int.repr_eq_if] at h
  split at h
  · rw [Nat.toList_repr] at h
    exact isNumeralChar_of_mem_toDigits h
  · rw [String.toList_append, List.mem_append] at h
    rcases h with h | h
    · revert h
      revert c
      decide
    · rw [Nat.toList_repr] at h
      exact isNumeralChar_of_mem_toDigits h

end LogicGraph.Text

namespace LogicGraph

open Text

namespace Decimal

/-- The digits of a decimal are characters of numerals. -/
lemma isNumeralChar_of_mem_digitChars {t : Decimal} {c : Char} (h : c ∈ t.digitChars) :
    isNumeralChar c = true :=
  isNumeralChar_of_mem_toDigits h

/-- A decimal written out in full has only characters of numerals. -/
lemma isNumeralChar_of_mem_positional {t : Decimal} {c : Char} (h : c ∈ t.positional) :
    isNumeralChar c = true := by
  have hzero : isNumeralChar '0' = true := by decide
  have hpoint : isNumeralChar '.' = true := by decide
  unfold positional at h
  simp only at h
  split_ifs at h with h₁ h₂
  · simp only [List.mem_cons, List.mem_append, List.mem_replicate] at h
    rcases h with rfl | rfl | ⟨-, rfl⟩ | h
    · exact hzero
    · exact hpoint
    · exact hzero
    · exact isNumeralChar_of_mem_digitChars h
  · simp only [List.mem_cons, List.mem_append, List.mem_replicate, List.not_mem_nil, or_false] at h
    rcases h with (h | ⟨-, rfl⟩) | rfl | rfl
    · exact isNumeralChar_of_mem_digitChars h
    · exact hzero
    · exact hpoint
    · exact hzero
  · simp only [List.mem_cons, List.mem_append] at h
    rcases h with h | rfl | h
    · exact isNumeralChar_of_mem_digitChars (List.mem_of_mem_take h)
    · exact hpoint
    · exact isNumeralChar_of_mem_digitChars (List.mem_of_mem_drop h)

/-- The exponent of a decimal has only characters of numerals. -/
lemma isNumeralChar_of_mem_exponentChars {e : Int} {c : Char} (h : c ∈ exponentChars e) :
    isNumeralChar c = true := by
  rcases List.mem_cons.mp h with rfl | h
  · split_ifs <;> decide
  · split_ifs at h
    · rcases List.mem_cons.mp h with rfl | h
      · decide
      · exact isNumeralChar_of_mem_toDigits h
    · exact isNumeralChar_of_mem_toDigits h

/-- A decimal in scientific form has only characters of numerals. -/
lemma isNumeralChar_of_mem_scientific {t : Decimal} {c : Char} (h : c ∈ t.scientific) :
    isNumeralChar c = true := by
  have hdigits : ∀ d ∈ t.digitChars, isNumeralChar d = true :=
    fun _ => isNumeralChar_of_mem_digitChars
  unfold scientific at h
  simp only at h
  split at h
  · simp at h
  · rename_i d heq
    rw [heq] at hdigits
    simp only [List.mem_cons] at h
    rcases h with rfl | rfl | h
    · exact hdigits _ List.mem_cons_self
    · decide
    · exact isNumeralChar_of_mem_exponentChars h
  · rename_i d rest _ heq
    rw [heq] at hdigits
    simp only [List.mem_cons, List.mem_append] at h
    rcases h with rfl | rfl | h | rfl | h
    · exact hdigits _ List.mem_cons_self
    · decide
    · exact hdigits _ (List.mem_cons_of_mem _ h)
    · decide
    · exact isNumeralChar_of_mem_exponentChars h

/-- The written form of a decimal has only characters of numerals. -/
lemma isNumeralChar_of_mem_chars {t : Decimal} {c : Char} (h : c ∈ t.chars) :
    isNumeralChar c = true := by
  unfold chars at h
  simp only at h
  split_ifs at h
  · exact isNumeralChar_of_mem_positional h
  · exact isNumeralChar_of_mem_scientific h

end Decimal

/-- The written form of a double has only characters of numerals. -/
lemma Binary64.isNumeralChar_of_mem_text {x : Binary64} {c : Char} (h : c ∈ x.text.toList) :
    isNumeralChar c = true := by
  have hfixed : ∀ w ∈ ["nan", "inf", "-inf", "-", "", "0.0"], ∀ d ∈ w.toList, isNumeralChar d =
      true := by decide
  cases x with
  | nan => exact hfixed "nan" (by decide) c h
  | infinite negative =>
    cases negative
    · exact hfixed "inf" (by decide) c h
    · exact hfixed "-inf" (by decide) c h
  | finite negative m e =>
    have htext : (finite negative m e).text = (if negative then "-" else "") ++
        (if m = 0 then "0.0" else String.ofList (Decimal.shortest m e).chars) := by
      by_cases hm : m = 0 <;> simp only [text, hm, if_true, if_false]
    rw [htext, String.toList_append, List.mem_append] at h
    rcases h with h | h
    · split_ifs at h
      · exact hfixed "-" (by decide) c h
      · exact hfixed "" (by decide) c h
    · split_ifs at h
      · exact hfixed "0.0" (by decide) c h
      · rw [String.toList_ofList] at h
        exact Decimal.isNumeralChar_of_mem_chars h

/-! ## Literals -/

/-- What stands between the parts of a literal. -/
def Text.isSeparator (c : Char) : Bool :=
  ",: ()[]\x7b\x7d".toList.contains c

/-- A separator is harmless. -/
lemma Text.isLiteralChar_of_isSeparator {c : Char} (h : isSeparator c = true) :
    isLiteralChar c = true := by
  have hfixed : ∀ d ∈ ",: ()[]\x7b\x7d".toList, isLiteralChar d = true := by decide
  exact hfixed c (by simpa [isSeparator] using h)

/-- The words that stand in literals outside quotes. -/
def Text.literalWords : List String :=
  ["None", "True", "False", "float"]

/-- A property that numerals, words and quoted texts have, and that is kept when texts are put
together with a separator between them. -/
structure Text.Composes (P : List Char → Prop) : Prop where
  /-- Texts that have it can be put together. -/
  join : ∀ {cs ds c}, P cs → isSeparator c = true → P ds → P (cs ++ c :: ds)
  /-- Numerals have it. -/
  numeral : ∀ {cs}, (∀ c ∈ cs, isNumeralChar c = true) → P cs
  /-- Words have it. -/
  word : ∀ w ∈ literalWords, P w.toList
  /-- Quoted texts have it. -/
  quoted : ∀ s, P (quoted s).toList

/-- What harmless and quoted texts have composes, if it is kept when texts are put together. -/
lemma Text.composes_of_append {P : List Char → Prop}
    (happend : ∀ {cs ds}, P cs → P ds → P (cs ++ ds))
    (hharmless : ∀ {cs}, (∀ c ∈ cs, isLiteralChar c = true) → P cs)
    (hquoted : ∀ s, P (Text.quoted s).toList) :
    Composes P where
  join := by
    intro cs ds c hcs hc hds
    have hone : ∀ d ∈ [c], isLiteralChar d = true :=
      List.forall_mem_singleton.mpr (isLiteralChar_of_isSeparator hc)
    exact happend hcs (happend (hharmless hone) hds)
  numeral h := hharmless fun c hc => isLiteralChar_of_isNumeralChar (h c hc)
  word w hw := by
    have hfixed : ∀ w ∈ literalWords, ∀ c ∈ w.toList, isLiteralChar c = true := by decide
    exact hharmless (hfixed w hw)
  quoted := hquoted

/-- Being clean composes. -/
lemma Text.composes_isClean : Composes fun cs => ∀ c ∈ cs, isControl c = false :=
  composes_of_append (fun hc hd => List.forall_mem_append.mpr ⟨hc, hd⟩)
    (fun h c hc => isControl_eq_false (by decide) (h c hc)) isClean_quoted

/-- Being sealed composes. -/
lemma Text.composes_isSealed : Composes IsSealed :=
  composes_of_append IsSealed.append isSealed_of_forall isSealed_quoted

namespace Text.Composes

variable {P : List Char → Prop}

/-- The empty text. -/
lemma nil (hP : Composes P) : P [] :=
  hP.numeral (by simp)

/-- A text between separators. -/
lemma between (hP : Composes P) {cs : List Char} {c d : Char} (hcs : P cs)
    (hc : isSeparator c = true) (hd : isSeparator d = true) : P (c :: (cs ++ [d])) :=
  hP.join hP.nil hc (hP.join hcs hd hP.nil)

/-- A text behind another one with a separator and a space between them. -/
lemma spaced (hP : Composes P) {cs ds : List Char} {c : Char} (hcs : P cs)
    (hc : isSeparator c = true) (hds : P ds) :
    P (cs ++ c :: ' ' :: ds) :=
  hP.join hcs hc (hP.join hP.nil (by decide) hds)

/-- A join of texts with commas. -/
lemma intercalate (hP : Composes P) {parts : List String} (hparts : ∀ s ∈ parts, P s.toList) :
    P (", ".intercalate parts).toList := by
  induction parts with
  | nil => exact hP.nil
  | cons s rest ih =>
    rw [List.forall_mem_cons] at hparts
    cases rest with
    | nil => exact hparts.1
    | cons t rest =>
      rw [String.intercalate_cons_cons, String.toList_append, String.toList_append,
        List.append_assoc]
      exact hP.spaced (c := ',') hparts.1 (by decide) (ih hparts.2)

mutual

/-- What composes holds of a value written as an expression. -/
lemma expression (hP : Composes P) (v : Json) : P v.expression.toList := by
  cases v with
  | null => exact hP.word "None" (by decide)
  | bool b =>
    cases b
    · exact hP.word "False" (by decide)
    · exact hP.word "True" (by decide)
  | number n =>
    cases n with
    | int n => exact hP.numeral fun c hc => isNumeralChar_of_mem_int hc
    | float x => exact hP.numeral fun c hc => Binary64.isNumeralChar_of_mem_text hc
  | string s => exact hP.quoted s
  | array items =>
    rw [Json.expression, String.toList_append, String.toList_append]
    exact hP.between (hP.intercalate (hP.itemExpressions items)) (c := '[') (d := ']') (by decide)
      (by decide)
  | object fields =>
    rw [Json.expression, String.toList_append, String.toList_append]
    exact hP.between (hP.intercalate (hP.fieldExpressions fields)) (c := '\x7b') (d := '\x7d')
      (by decide) (by decide)

/-- What composes holds of the items of a list, written as expressions. -/
lemma itemExpressions (hP : Composes P) (vs : List Json) :
    ∀ s ∈ Json.itemExpressions vs, P s.toList := by
  cases vs with
  | nil => simp [Json.itemExpressions]
  | cons v vs =>
    rw [Json.itemExpressions, List.forall_mem_cons]
    exact ⟨hP.expression v, hP.itemExpressions vs⟩

/-- What composes holds of the fields of an object, written as pairs of expressions. -/
lemma fieldExpressions (hP : Composes P) (vs : List (String × Json)) :
    ∀ s ∈ Json.fieldExpressions vs, P s.toList := by
  match vs with
  | [] => simp [Json.fieldExpressions]
  | (k, v) :: vs =>
    rw [Json.fieldExpressions, List.forall_mem_cons, String.toList_append, String.toList_append,
      List.append_assoc]
    exact ⟨hP.spaced (c := ':') (hP.quoted k) (by decide) (hP.expression v), hP.fieldExpressions vs⟩

end

/-- What composes holds of a double written as a literal; the name of one that is not finite stands
between quotes. -/
lemma floatText (hP : Composes P) (x : Binary64) : P (Literal.floatText x).toList := by
  have hnamed : ∀ name, P ("float(" ++ Text.quoted name ++ ")").toList := by
    intro name
    rw [String.toList_append, String.toList_append]
    have hopen := hP.join (c := '(') (hP.word "float" (by decide)) (by decide) (hP.quoted name)
    exact hP.join (c := ')') hopen (by decide) hP.nil
  cases x with
  | nan => exact hnamed "nan"
  | infinite negative =>
    cases negative
    · exact hnamed "inf"
    · exact hnamed "-inf"
  | finite negative m e => exact hP.numeral fun c hc => Binary64.isNumeralChar_of_mem_text hc

/-- What composes holds of every literal. -/
lemma written (hP : Composes P) (l : Literal) : P l.written.toList := by
  cases l with
  | int n => exact hP.numeral fun c hc => isNumeralChar_of_mem_int hc
  | float x => exact hP.floatText x
  | text s => exact hP.quoted s
  | list items => exact hP.expression (.array items)
  | dict fields => exact hP.expression (.object fields)

end Text.Composes

namespace Literal

/-- **A literal is clean**, whatever value it is the literal of. -/
lemma isClean_written (l : Literal) : IsClean l.written :=
  composes_isClean.written l

/-- **A literal is sealed**, whatever value it is the literal of. -/
lemma isSealed_written (l : Literal) : IsSealed l.written.toList :=
  composes_isSealed.written l

end Literal

end LogicGraph
