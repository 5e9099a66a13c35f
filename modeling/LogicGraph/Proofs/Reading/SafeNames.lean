import Mathlib.Data.Set.Image
import LogicGraph.Proofs.Reading.Operations

set_option relaxedAutoImplicit false
set_option autoImplicit false

/-!
# Identifiers are the safe names

The names of the generated language that are in lower case are exactly the identifiers that texts
are made into, and making an identifier of such a name changes nothing. So the identifier for a text
is the text itself as soon as the text can serve as a name, and no text is changed twice.

## Main definitions

* `LogicGraph.Text.safeNames` — the names of the generated language that are in lower case.
* `LogicGraph.Text.RetractsOnto` — a function of a text and a fallback that takes its values in a
  set of texts and leaves these texts as they are.
* `LogicGraph.Text.identifierBy` — the identifier for a text, for any way to put texts into lower
  case.
* `LogicGraph.Text.IsLowerCase` — the ways to put texts into lower case by the rules for its
  characters.

## Main results

* `LogicGraph.Text.mem_safeNames` — the safe names are the identifiers.
* `LogicGraph.Text.retractsOnto_identifierBy` — it is enough that plain texts are in lower case.
* `LogicGraph.Text.IsLowerCase.identifierBy_eq` — all ways to put texts into lower case give the
  same identifiers.
* `LogicGraph.Text.retractsOnto_identifier` — making identifiers is a retraction onto the safe
  names.

## Design

What is done to a text after it is in lower case makes an identifier of every text that is not
empty: each step keeps what the steps before it have brought about. Of lower case one fact is
needed, that it leaves alone the texts with characters of identifiers only. In particular, a text
may get longer or shorter in lower case, or vanish, and what a letter becomes may depend on the
letters around it.
-/

namespace LogicGraph.Text

/-! ## Safe names -/

/-- The names of the generated language that are in lower case: a letter or an underscore, followed
by letters, digits and underscores, that is no word of the language. -/
def safeNames : Set String :=
  {s | (∃ c cs, s.toList = c :: cs ∧ (c.isLower = true ∨ c = '_') ∧
      ∀ d ∈ cs, d.isLower = true ∨ d.isDigit = true ∨ d = '_') ∧
    s ∉ Grammar.reservedWords}

/-- The characters of identifiers are lower-case letters, digits and the underscore. -/
lemma isIdentifierChar_iff {c : Char} :
    isIdentifierChar c = true ↔ c.isLower = true ∨ c.isDigit = true ∨ c = '_' := by
  simp [isIdentifierChar, or_assoc]

/-- A letter is no digit. -/
lemma isDigit_eq_false_of_isLower {c : Char} (h : c.isLower = true) : c.isDigit = false := by
  grind [Char.isLower, Char.isDigit]

/-- **The safe names are the identifiers.** The words of the language with a capital letter in them
are neither. -/
lemma mem_safeNames {s : String} : s ∈ safeNames ↔ IsIdentifier s := by
  constructor
  · rintro ⟨⟨c, cs, hcs, hc, hrest⟩, hword⟩
    rw [IsIdentifier, hcs]
    refine ⟨List.cons_ne_nil c cs, ?_, ?_, ?_⟩
    · rw [List.forall_mem_cons]
      exact ⟨isIdentifierChar_iff.mpr (hc.imp_right .inr),
        fun d hd => isIdentifierChar_iff.mpr (hrest d hd)⟩
    · intro d hd
      obtain rfl : c = d := by simpa using hd
      rcases hc with hc | rfl
      · exact isDigit_eq_false_of_isLower hc
      · decide
    · intro hkeyword
      exact hword (List.mem_append_right ["None", "True", "False"] hkeyword)
  · intro h
    refine ⟨?_, IsIdentifier.not_mem_reservedWords h⟩
    obtain ⟨hne, hchars, hhead, -⟩ := h
    obtain ⟨c, cs, hcs⟩ := List.exists_cons_of_ne_nil hne
    rw [hcs] at hchars hhead
    obtain ⟨hc, hrest⟩ := List.forall_mem_cons.mp hchars
    refine ⟨c, cs, hcs, ?_, fun d hd => isIdentifierChar_iff.mp (hrest d hd)⟩
    have hdigit : c.isDigit = false := hhead c rfl
    simpa [hdigit] using isIdentifierChar_iff.mp hc

/-! ## Replacement and guards -/

/-- The character itself if it may stand in an identifier, and else an underscore. -/
def safeChar (c : Char) : Char :=
  if isIdentifierChar c then c else '_'

/-- A character of identifiers stays as it is. -/
lemma safeChar_eq_self {c : Char} (h : isIdentifierChar c = true) : safeChar c = c :=
  if_pos h

/-- Any other character becomes an underscore. -/
lemma safeChar_eq_underscore {c : Char} (h : isIdentifierChar c = false) : safeChar c = '_' :=
  if_neg (by rw [h]; decide)

/-- What is left of a character may stand in an identifier. -/
lemma isIdentifierChar_safeChar (c : Char) : isIdentifierChar (safeChar c) = true := by
  cases h : isIdentifierChar c with
  | true => rw [safeChar_eq_self h, h]
  | false =>
    rw [safeChar_eq_underscore h]
    decide

/-- What becomes of a text that is in lower case: other characters are replaced, then come the
guards against a leading digit and against keywords. -/
def guarded (s : String) : String :=
  guardKeyword (String.ofList (guardDigit (s.toList.map safeChar)))

/-- A text that is not empty becomes an identifier. -/
lemma isIdentifier_guarded {s : String} (h : s ≠ "") : IsIdentifier (guarded s) := by
  have hne : s.toList.map safeChar ≠ [] := by simpa using h
  have hchars : ∀ c ∈ s.toList.map safeChar, isIdentifierChar c = true := by
    intro c hc
    obtain ⟨d, -, rfl⟩ := List.mem_map.mp hc
    exact isIdentifierChar_safeChar d
  exact (isWord_guardDigit hne hchars).isIdentifier_guardKeyword

/-- The guard against a leading digit does nothing to a text that is not led by one. -/
lemma guardDigit_eq_self {cs : List Char} (h : ∀ c ∈ cs.head?, c.isDigit = false) :
    guardDigit cs = cs := by
  cases cs with
  | nil => rfl
  | cons c cs =>
    have hc : c.isDigit = false := h c rfl
    rw [guardDigit, hc]
    rfl

/-- An identifier stays as it is: there is nothing to replace and no guard sets in. -/
lemma guarded_eq_self {s : String} (h : IsIdentifier s) : guarded s = s := by
  obtain ⟨-, hchars, hhead, hkeyword⟩ := h
  have hmap : s.toList.map safeChar = s.toList := by
    conv_rhs => rw [← List.map_id s.toList]
    exact List.map_congr_left fun c hc => safeChar_eq_self (hchars c hc)
  rw [guarded, hmap, guardDigit_eq_self hhead, String.ofList_toList, guardKeyword, if_neg hkeyword]

/-! ## Retractions -/

/-- A function of a text and a fallback, either of which may be absent, that retracts texts onto a
set of them. -/
structure RetractsOnto (f : Option String → Option String → String) (names : Set String) :
    Prop where
  /-- All values are in the set. -/
  mem : ∀ raw fallback, f raw fallback ∈ names
  /-- The texts in the set stay as they are, whatever the fallback. -/
  fixed : ∀ s ∈ names, ∀ fallback, f (some s) fallback = s
  /-- A second time changes nothing, with the same fallback or another one. -/
  idempotent : ∀ raw fallback fallback', f (some (f raw fallback)) fallback' = f raw fallback
  /-- The values are all texts in the set, whatever the fallback. -/
  range_eq : ∀ fallback, Set.range (fun raw => f raw fallback) = names

/-- Values in a set of texts that stay as they are make a retraction. -/
lemma RetractsOnto.of_fixed {f : Option String → Option String → String} {names : Set String}
    (hmem : ∀ raw fallback, f raw fallback ∈ names)
    (hfixed : ∀ s ∈ names, ∀ fallback, f (some s) fallback = s) :
    RetractsOnto f names where
  mem := hmem
  fixed := hfixed
  idempotent := fun raw fallback => hfixed _ (hmem raw fallback)
  range_eq := by
    intro fallback
    ext s
    constructor
    · rintro ⟨raw, rfl⟩
      exact hmem raw fallback
    · intro hs
      exact ⟨some s, hfixed s hs fallback⟩

/-- The identifier for a text, from the fallback when nothing is left of the text; `lower` puts
texts into lower case. A text that is absent counts as empty. -/
def identifierBy (lower : String → String) (raw fallback : Option String) : String :=
  if guarded (lower (raw.getD "")) ≠ "" then guarded (lower (raw.getD ""))
  else if guarded (lower (fallback.getD "")) ≠ "" then guarded (lower (fallback.getD ""))
  else lastResort

/-- The identifier for a text is one, whatever lower case does. -/
lemma isIdentifier_identifierBy (lower : String → String) (raw fallback : Option String) :
    IsIdentifier (identifierBy lower raw fallback) := by
  have hguarded : ∀ s, guarded s ≠ "" → IsIdentifier (guarded s) := by
    intro s hs
    refine isIdentifier_guarded ?_
    rintro rfl
    exact hs (by decide)
  exact isIdentifier_orLastResort (hguarded _) (hguarded _)

/-- A function that leaves the texts of lower-case letters, digits and underscores as they are. -/
def KeepsPlainTexts (lower : String → String) : Prop :=
  ∀ s : String, (∀ c ∈ s.toList, isIdentifierChar c = true) → lower s = s

/-- An identifier is the identifier for itself, if plain texts are in lower case. -/
lemma KeepsPlainTexts.identifierBy_eq_self {lower : String → String}
    (hlower : KeepsPlainTexts lower) {s : String} (h : IsIdentifier s) (fallback : Option String) :
    identifierBy lower (some s) fallback = s := by
  have hself : guarded (lower s) = s := by rw [hlower s h.2.1, guarded_eq_self h]
  have hne : s ≠ "" := by
    rintro rfl
    exact h.1 rfl
  rw [identifierBy, Option.getD_some, hself, if_pos hne]

/-- **Making identifiers is a retraction** if plain texts are in lower case. -/
lemma retractsOnto_identifierBy {lower : String → String} (hlower : KeepsPlainTexts lower) :
    RetractsOnto (identifierBy lower) safeNames :=
  .of_fixed (fun raw fallback => mem_safeNames.mpr (isIdentifier_identifierBy lower raw fallback))
    fun _ hs fallback => hlower.identifierBy_eq_self (mem_safeNames.mp hs) fallback

/-! ## Lower case -/

/-- What a character may become in lower case. -/
inductive LowersTo : Char → List Char → Prop
  /-- Of the characters of ASCII, the capital letters become small ones. -/
  | ascii {c : Char} (h : c.toNat < 128) : LowersTo c [c.toLower]
  /-- The dotted capital I becomes a small one and a combining dot. -/
  | dottedI : LowersTo '\u0130' ['i', '\u0307']
  /-- The Kelvin sign becomes a letter of ASCII. -/
  | kelvin : LowersTo '\u212A' ['k']
  /-- All others become one character outside ASCII; which one may depend on the characters
  around. -/
  | other {c d : Char} (hc : 128 ≤ c.toNat) (hdotted : c ≠ '\u0130') (hkelvin : c ≠ '\u212A')
      (hd : 128 ≤ d.toNat) :
    LowersTo c [d]

/-- A way to put texts into lower case, character by character. -/
def IsLowerCase (lower : String → String) : Prop :=
  ∀ s : String, ∃ parts, List.Forall₂ LowersTo s.toList parts ∧ (lower s).toList = parts.flatten

/-- The characters of identifiers and the capital letters are characters of ASCII. -/
lemma toNat_lt_of_isIdentifierChar_or_isUpper {c : Char}
    (h : isIdentifierChar c = true ∨ c.isUpper = true) :
    c.toNat < 128 := by
  simp only [isIdentifierChar_iff, Char.isLower, Char.isDigit, Char.isUpper, Bool.and_eq_true,
    decide_eq_true_eq, UInt32.le_iff_toNat_le] at h
  rcases h with (⟨-, h⟩ | ⟨-, h⟩ | rfl) | ⟨-, h⟩
  · exact h.trans_lt (by decide)
  · exact h.trans_lt (by decide)
  · decide
  · exact h.trans_lt (by decide)

/-- A character of identifiers is in lower case. -/
lemma toLower_eq_self {c : Char} (h : isIdentifierChar c = true) : c.toLower = c := by
  apply Char.toLower_eq_of_not_isUpper
  rcases isIdentifierChar_iff.mp h with h | h | rfl
  · exact Char.not_isUpper_of_isLower h
  · grind [Char.isDigit, Char.isUpper]
  · decide

/-- Replacement makes of the lower case of a character what the character contributes to an
identifier. -/
lemma LowersTo.map_safeChar {c : Char} {ds : List Char} (h : LowersTo c ds) :
    ds.map safeChar = identifierChars c := by
  cases h with
  | ascii hc =>
    rw [List.map_singleton, identifierChars]
    split_ifs with hchar hupper hdotted hkelvin
    · rw [toLower_eq_self hchar, safeChar_eq_self hchar]
    · rw [safeChar_eq_self (isIdentifierChar_iff.mpr (.inl (isLower_toLower hupper)))]
    · omega
    · omega
    · rw [Char.toLower_eq_of_not_isUpper hupper, safeChar_eq_underscore (by simpa using hchar)]
  | dottedI => decide
  | kelvin => decide
  | @other _ d hc hdotted hkelvin hd =>
    -- outside ASCII there is neither a character of identifiers nor a capital that `toLower` knows
    have houtside : ∀ {e : Char}, 128 ≤ e.toNat → isIdentifierChar e = false ∧
        e.isUpper = false := by
      intro e he
      simpa using mt toNat_lt_of_isIdentifierChar_or_isUpper (Nat.not_lt.mpr he)
    obtain ⟨hchar, hupper⟩ := houtside hc
    have hdotted' : c.toNat ≠ 0x130 := fun heq => hdotted (Char.toNat_inj.mp heq)
    have hkelvin' : c.toNat ≠ 0x212A := fun heq => hkelvin (Char.toNat_inj.mp heq)
    rw [List.map_singleton, safeChar_eq_underscore (houtside hd).1, identifierChars]
    simp [hchar, hupper, hdotted', hkelvin']

/-- The lower case of a character of identifiers is the character. -/
lemma LowersTo.eq_singleton {c : Char} {ds : List Char} (h : LowersTo c ds)
    (hc : isIdentifierChar c = true) :
    ds = [c] := by
  have hascii := toNat_lt_of_isIdentifierChar_or_isUpper (.inl hc)
  cases h with
  | ascii => rw [toLower_eq_self hc]
  | dottedI => exact absurd hascii (by decide)
  | kelvin => exact absurd hascii (by decide)
  | other houtside => omega

/-- Put together, the lower cases of characters of identifiers are these characters. -/
lemma flatten_eq_self {cs : List Char} {parts : List (List Char)}
    (h : List.Forall₂ LowersTo cs parts) (hcs : ∀ c ∈ cs, isIdentifierChar c = true) :
    parts.flatten = cs := by
  induction h with
  | nil => rfl
  | cons hc _ ih =>
    obtain ⟨hchar, hrest⟩ := List.forall_mem_cons.mp hcs
    rw [List.flatten_cons, hc.eq_singleton hchar, ih hrest, List.singleton_append]

/-- Put together, the lower cases of characters give what these contribute to an identifier. -/
lemma map_safeChar_flatten {cs : List Char} {parts : List (List Char)}
    (h : List.Forall₂ LowersTo cs parts) :
    parts.flatten.map safeChar = cs.flatMap identifierChars := by
  induction h with
  | nil => rfl
  | cons hc _ ih => rw [List.flatten_cons, List.map_append, hc.map_safeChar, ih, List.flatMap_cons]

namespace IsLowerCase

variable {lower : String → String}

/-- Plain texts are in lower case. -/
lemma keepsPlainTexts (h : IsLowerCase lower) : KeepsPlainTexts lower := by
  intro s hs
  obtain ⟨parts, hparts, heq⟩ := h s
  rw [← String.toList_inj, heq, flatten_eq_self hparts hs]

/-- What is done to the lower case of a text makes of it what the text itself gives. -/
lemma guarded_eq (h : IsLowerCase lower) (s : String) : guarded (lower s) = cleaned s := by
  obtain ⟨parts, hparts, heq⟩ := h s
  rw [guarded, heq, map_safeChar_flatten hparts, cleaned]

/-- **All ways to put texts into lower case give the same identifiers.** -/
lemma identifierBy_eq (h : IsLowerCase lower) (raw fallback : Option String) :
    identifierBy lower raw fallback = identifier (raw.getD "") (fallback.getD "") := by
  simp only [identifierBy, h.guarded_eq, identifier]

end IsLowerCase

/-- A lower case of a character; those outside ASCII that stay outside are left alone. -/
def lowerChars (c : Char) : List Char :=
  if c.toNat < 128 then [c.toLower]
  else if c = '\u0130' then ['i', '\u0307']
  else if c = '\u212A' then ['k']
  else [c]

/-- One way to put texts into lower case. -/
def lowerCase (s : String) : String :=
  String.ofList (s.toList.flatMap lowerChars)

/-- Characters are lowered by the rules. -/
lemma lowersTo_lowerChars (c : Char) : LowersTo c (lowerChars c) := by
  unfold lowerChars
  split_ifs with hascii hdotted hkelvin
  · exact .ascii hascii
  · exact hdotted ▸ .dottedI
  · exact hkelvin ▸ .kelvin
  · exact .other (by omega) hdotted hkelvin (by omega)

/-- Texts are put into lower case by the rules. -/
lemma isLowerCase_lowerCase : IsLowerCase lowerCase := by
  intro s
  refine ⟨s.toList.map lowerChars, ?_, ?_⟩
  · exact List.forall₂_map_right_iff.mpr (List.forall₂_same.mpr fun c _ => lowersTo_lowerChars c)
  · rw [lowerCase, String.toList_ofList, List.flatMap_def]

/-- **Making identifiers is a retraction onto the safe names**, for texts and fallbacks that may
both be absent. What lower case does to other characters than those of identifiers does not matter,
and by the rules of lower case the identifiers are those in use. -/
theorem retractsOnto_identifier :
    RetractsOnto (fun raw fallback => identifier (raw.getD "") (fallback.getD "")) safeNames ∧
    (∀ lower, KeepsPlainTexts lower → RetractsOnto (identifierBy lower) safeNames) ∧
    ∀ lower, IsLowerCase lower → KeepsPlainTexts lower ∧
      ∀ raw fallback, identifierBy lower raw fallback =
        identifier (raw.getD "") (fallback.getD "") := by
  refine ⟨?_, fun _ hlower => retractsOnto_identifierBy hlower,
    fun _ hlower => ⟨hlower.keepsPlainTexts, hlower.identifierBy_eq⟩⟩
  have hretracts := retractsOnto_identifierBy isLowerCase_lowerCase.keepsPlainTexts
  have heq : identifierBy lowerCase = fun raw fallback =>
    identifier (raw.getD "") (fallback.getD "") := by
    funext raw fallback
    exact isLowerCase_lowerCase.identifierBy_eq raw fallback
  rwa [heq] at hretracts

/-- The two capitals outside ASCII with a letter of ASCII in their lower case, behind a digit and a
blank, and a keyword in capitals: the identifiers for these texts are safe names, and the
identifiers for themselves. -/
theorem retractsOnto_identifier_foreignCapitals :
    IsLowerCase lowerCase ∧ KeepsPlainTexts lowerCase ∧
    identifierBy lowerCase none (some "1 \u0130\u212A") = "_1_i_k" ∧ "_1_i_k" ∈ safeNames ∧
    identifierBy lowerCase (some "_1_i_k") none = "_1_i_k" ∧
    identifier "IS" "" = "is_" ∧ identifier "is_" "\u212A" = "is_" := by
  obtain ⟨hprogram, hgeneral, hlower⟩ := retractsOnto_identifier
  obtain ⟨hkeeps, heq⟩ := hlower lowerCase isLowerCase_lowerCase
  have hfirst : identifierBy lowerCase none (some "1 \u0130\u212A") = "_1_i_k" :=
    (heq _ _).trans (by decide)
  have hsafe : "_1_i_k" ∈ safeNames :=
    hfirst ▸ (hgeneral lowerCase hkeeps).mem none (some "1 \u0130\u212A")
  have hkeyword : identifier "IS" "" = "is_" := by decide
  have hagain := hprogram.idempotent (some "IS") none (some "\u212A")
  simp only [Option.getD_some, Option.getD_none, hkeyword] at hagain
  exact ⟨isLowerCase_lowerCase, hkeeps, hfirst, hsafe,
    (hgeneral lowerCase hkeeps).fixed _ hsafe none, hkeyword, hagain⟩

end LogicGraph.Text
