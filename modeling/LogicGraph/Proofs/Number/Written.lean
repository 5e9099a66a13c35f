import Mathlib.Data.List.Basic
import Mathlib.Tactic.Common
import LogicGraph.Number.Shortest
import LogicGraph.Proofs.Number.Numeral

set_option relaxedAutoImplicit false
set_option autoImplicit false

/-!
# Written numbers

An integer is written as a sign and digits. A decimal is written with a fraction, with an exponent
or with both, and the digits on the two sides of the point are all its digits. Both kinds of
numerals are read back as what has been written, and a numeral with a point or an exponent is never
taken for an integer.

## Main definitions

* `LogicGraph.Decimal.HasNumeral` — a numeral of a decimal.

## Main results

* `LogicGraph.Decimal.hasNumeral_chars` — the written form of a decimal is a numeral of it, up to
  zeros at its end.
* `LogicGraph.Numeral.readInt_toString` — an integer is read back.
* `LogicGraph.Numeral.decimal?_of_hasNumeral` — a decimal is read back as its double.
* `LogicGraph.Numeral.readInt_ne_ok_of_hasNumeral` — a decimal is no integer.
-/

namespace LogicGraph

/-- Characters of a class are read up to the first one of another class. -/
lemma takeWhile_append_of_head? {p : Char → Bool} {cs rest : List Char} (hcs : ∀ c ∈ cs, p c = true)
    (hrest : ∀ c ∈ rest.head?, p c = false) :
    (cs ++ rest).takeWhile p = cs ∧ (cs ++ rest).dropWhile p = rest := by
  rw [List.takeWhile_append_of_pos hcs, List.dropWhile_append_of_pos hcs]
  cases rest with
  | nil => exact ⟨List.append_nil cs, rfl⟩
  | cons c rest =>
    have hc := hrest c rfl
    rw [List.takeWhile_cons_of_neg (by simp [hc]), List.dropWhile_cons_of_neg (by simp [hc])]
    exact ⟨List.append_nil cs, rfl⟩

/-- The minus sign of a negative number. -/
def signChars (isNegative : Bool) : List Char :=
  if isNegative then ['-'] else []

namespace Decimal

/-! ## Numerals of decimals -/

/-- The fraction of a numeral, if it has one. -/
def fractionChars : Option (List Char) → List Char
  | none => []
  | some ds => '.' :: ds

/-- The exponent of a numeral, if it has one. -/
def markedExponent : Option Int → List Char
  | none => []
  | some e => 'e' :: exponentChars e

/-- A numeral of a decimal: digits, and behind them a fraction, an exponent or both. -/
def HasNumeral (t : Decimal) (cs : List Char) : Prop :=
  ∃ (whole : List Char) (fraction : Option (List Char)) (exponent : Option Int),
    cs = whole ++ (fractionChars fraction ++ markedExponent exponent) ∧ whole ≠ [] ∧
      (∀ c ∈ whole ++ fraction.getD [], c.isDigit = true) ∧
      (fraction.isNone && exponent.isNone) = false ∧
      t = ⟨Nat.ofDigitChars 10 (whole ++ fraction.getD []) 0,
        exponent.getD 0 - (fraction.getD []).length⟩

/-- A numeral starts with a digit. -/
lemma HasNumeral.isDigit_of_mem_head? {t : Decimal} {cs : List Char} (h : t.HasNumeral cs) :
    ∀ c ∈ cs.head?, c.isDigit = true := by
  obtain ⟨whole, fraction, exponent, rfl, hne, hdigits, -⟩ := h
  rw [List.head?_append_of_ne_nil _ hne]
  exact fun c hc => hdigits c (List.mem_append_left _ (List.mem_of_mem_head? hc))

/-- The written exponent of a decimal is a sign and digits. -/
lemma exists_exponentChars (e : Int) :
    ∃ ds, exponentChars e = (if decide (e < 0) then '-' else '+') :: ds ∧ ds ≠ [] ∧
      (∀ d ∈ ds, d.isDigit = true) ∧
      (if decide (e < 0) then -(Nat.ofDigitChars 10 ds 0 : Int)
        else Nat.ofDigitChars 10 ds 0) = e := by
  obtain ⟨hne, hdigits, -⟩ := Numeral.isPlain_toDigits e.natAbs
  obtain ⟨ds, hds, hne, hdigits, hvalue⟩ : ∃ ds, exponentChars e =
      (if decide (e < 0) then '-' else '+') :: ds ∧ ds ≠ [] ∧
      (∀ d ∈ ds, d.isDigit = true) ∧ Nat.ofDigitChars 10 ds 0 = e.natAbs := by
    refine ⟨_, by simp only [exponentChars, decide_eq_true_eq]; rfl, ?_⟩
    split_ifs
    · exact ⟨List.cons_ne_nil _ _, List.forall_mem_cons.mpr ⟨by decide, hdigits⟩, by
        simp [Nat.ofDigitChars_cons]⟩
    · exact ⟨hne, hdigits, Nat.ofDigitChars_ten_toDigits⟩
  refine ⟨ds, hds, hne, hdigits, ?_⟩
  rw [hvalue]
  split_ifs with he <;> rw [decide_eq_true_eq] at he <;> omega

/-- Digits with a point between them are a numeral. -/
lemma hasNumeral_pointed (whole fraction : List Char) {n : Nat} {e : Int} (hne : whole ≠ [])
    (hwhole : ∀ c ∈ whole, c.isDigit = true) (hfraction : ∀ c ∈ fraction, c.isDigit = true)
    (hn : Nat.ofDigitChars 10 (whole ++ fraction) 0 = n) (he : -(fraction.length : Int) = e) :
    HasNumeral ⟨n, e⟩ (whole ++ '.' :: fraction) :=
  ⟨whole, some fraction, none, by
    simp [fractionChars, markedExponent], hne, List.forall_mem_append.mpr ⟨hwhole, hfraction⟩,
    rfl, by simp [hn, he]⟩

section

variable (t : Decimal)

/-- The digits of a decimal are digits. -/
lemma isDigit_of_mem_digitChars {c : Char} (h : c ∈ t.digitChars) : c.isDigit = true :=
  Nat.isDigit_of_mem_toDigits (by decide) (by decide) h

/-- The digits of a decimal are those of its number. -/
lemma ofDigitChars_digitChars : Nat.ofDigitChars 10 t.digitChars 0 = t.digits :=
  Nat.ofDigitChars_ten_toDigits

/-- Zeros behind the digits multiply by a power of ten. -/
lemma ofDigitChars_digitChars_append_replicate (k : Nat) :
    Nat.ofDigitChars 10 (t.digitChars ++ List.replicate k '0') 0 = t.digits * 10 ^ k := by
  rw [Nat.ofDigitChars_append, ofDigitChars_digitChars, Nat.ofDigitChars_replicate_zero,
    Nat.mul_comm]

/-- A decimal written out in full is a numeral of the decimal, with as many zeros at its end as are
written. -/
lemma hasNumeral_positional :
    ∃ k : Nat, HasNumeral ⟨t.digits * 10 ^ k, t.exponent - k⟩ t.positional := by
  have hisDigit : ∀ c ∈ t.digitChars, c.isDigit = true := fun c => t.isDigit_of_mem_digitChars
  have hzeros : ∀ k, ∀ c ∈ List.replicate k '0', c.isDigit = true := by
    intro k c hc
    rw [(List.mem_replicate.mp hc).2]
    decide
  unfold positional
  simp only
  split_ifs with h₁ h₂
  · refine ⟨0, hasNumeral_pointed ['0'] _ (List.cons_ne_nil _ _) (by decide)
      (List.forall_mem_append.mpr ⟨hzeros _, hisDigit⟩) ?_ ?_⟩
    · rw [Nat.ofDigitChars_append, Nat.ofDigitChars_append, Nat.ofDigitChars_replicate_zero]
      simpa [Nat.ofDigitChars_cons] using t.ofDigitChars_digitChars
    · rw [List.length_append, List.length_replicate]
      omega
  · refine ⟨t.exponent.toNat + 1,
      hasNumeral_pointed (t.digitChars ++ List.replicate t.exponent.toNat '0') ['0']
      (List.append_ne_nil_of_left_ne_nil Nat.toDigits_ne_nil _)
      (List.forall_mem_append.mpr ⟨hisDigit, hzeros _⟩)
      (by decide) ?_ ?_⟩
    · rw [List.append_assoc, ← List.replicate_succ', ofDigitChars_digitChars_append_replicate]
    · rw [List.length_singleton]
      omega
  · have hne : t.digitChars.take ((t.digitChars.length : Int) + t.exponent).toNat ≠ [] := by
      rw [← List.length_pos_iff, List.length_take]
      omega
    refine ⟨0, hasNumeral_pointed _ _ hne (fun c hc => hisDigit c (List.mem_of_mem_take hc))
      (fun c hc => hisDigit c (List.mem_of_mem_drop hc)) ?_ ?_⟩
    · rw [List.take_append_drop, ofDigitChars_digitChars, Nat.pow_zero, Nat.mul_one]
    · rw [List.length_drop]
      omega

/-- A decimal in scientific form is a numeral of the decimal. -/
lemma hasNumeral_scientific : HasNumeral t t.scientific := by
  have hisDigit : ∀ c ∈ t.digitChars, c.isDigit = true := fun c => t.isDigit_of_mem_digitChars
  have hvalue := t.ofDigitChars_digitChars
  unfold scientific
  simp only
  split
  · rename_i hds
    exact absurd hds Nat.toDigits_ne_nil
  · rename_i d hds
    rw [hds] at hisDigit hvalue ⊢
    refine ⟨[d], none, some _, rfl, List.cons_ne_nil _ _, hisDigit, rfl, ?_⟩
    simp [hvalue]
  · rename_i d ds _ hds
    rw [hds] at hisDigit hvalue ⊢
    refine ⟨[d], some ds, some _, rfl, List.cons_ne_nil _ _, hisDigit, rfl, ?_⟩
    have hexponent : ((d :: ds).length : Int) + t.exponent - 1 - ds.length = t.exponent := by
      rw [List.length_cons]
      omega
    rw [Option.getD_some, Option.getD_some, List.singleton_append, hvalue, hexponent]

/-- **The written form of a decimal is a numeral of it**, with some zeros at its end. -/
lemma hasNumeral_chars : ∃ k : Nat, HasNumeral ⟨t.digits * 10 ^ k, t.exponent - k⟩ t.chars := by
  unfold chars
  simp only
  split_ifs
  · exact t.hasNumeral_positional
  · exact ⟨0, by simpa using t.hasNumeral_scientific⟩

end

end Decimal

/-! ## Reading numbers back -/

/-- An integer is written as its sign and its digits. -/
lemma toList_toString_int (n : Int) :
    (toString n).toList = signChars (decide (n < 0)) ++ Nat.toDigits 10 n.natAbs := by
  rw [Int.toString_eq_repr, Int.repr_eq_if]
  split_ifs with hn
  · rw [Nat.toList_repr, decide_eq_false (by omega), show n.toNat = n.natAbs by omega]
    rfl
  · rw [String.toList_append, Nat.toList_repr, decide_eq_true (by omega),
      show (-n).toNat = n.natAbs by omega]
    rfl

namespace Numeral

/-- A minus sign in front of a digit is read as a sign. -/
lemma sign_signChars_append (isNegative : Bool) {cs : List Char}
    (hcs : ∀ c ∈ cs.head?, c.isDigit = true) :
    sign (signChars isNegative ++ cs) = (isNegative, cs) := by
  cases isNegative with
  | true => rfl
  | false =>
    show sign cs = (false, cs)
    unfold sign
    split
    · exact absurd (hcs '-' rfl) (by decide)
    · exact absurd (hcs '+' rfl) (by decide)
    · rfl

/-- The values of digits from `0` to `9`. -/
def digitValues (cs : List Char) : List Nat :=
  cs.map fun c => c.toNat - '0'.toNat

/-- There are as many values as digits. -/
@[simp] lemma length_digitValues (cs : List Char) : (digitValues cs).length = cs.length :=
  List.length_map _

/-- There are no values exactly if there are no digits. -/
@[simp] lemma digitValues_eq_nil_iff {cs : List Char} : digitValues cs = [] ↔ cs = [] :=
  List.map_eq_nil_iff

/-- The values make the number that the digits spell. -/
@[simp] lemma ofDigits_digitValues (cs : List Char) :
    ofDigits (digitValues cs) = Nat.ofDigitChars 10 cs 0 := by
  rw [ofDigits, digitValues, Nat.ofDigitChars_eq_foldl, List.foldl_map]

/-- The values of two rows of digits make the number that both spell together. -/
@[simp] lemma ofDigits_digitValues_append (cs ds : List Char) :
    ofDigits (digitValues cs ++ digitValues ds) = Nat.ofDigitChars 10 (cs ++ ds) 0 := by
  rw [← ofDigits_digitValues, digitValues, digitValues, digitValues, List.map_append]

/-- Digits from `0` to `9` are all read. -/
lemma digitsInFront_of_isDigit {cs : List Char} (hcs : ∀ c ∈ cs, c.isDigit = true) :
    digitsInFront cs = (digitValues cs, []) := by
  refine (digitsInFront_eq_iff fun h => ?_).mpr ((forall₂_decimalDigit?_iff hcs).mpr rfl)
  exact absurd (hcs '_' h) (by decide)

/-- Digits are read as their values. -/
lemma allDigits?_of_isDigit {cs : List Char} (hne : cs ≠ []) (hcs : ∀ c ∈ cs, c.isDigit = true) :
    allDigits? cs = some (digitValues cs) :=
  allDigits?_eq_some_iff.mpr ⟨digitsInFront_of_isDigit hcs, by simpa using hne⟩

/-- An integer within the limit has no more digits than are read. -/
lemma length_toDigits_le {n : Int} (hn : withinLimit n = true) :
    (Nat.toDigits 10 n.natAbs).length ≤ digitLimit := by
  refine (spells_toDigits ?_).2.1
  rw [withinLimit, decide_eq_true_iff] at hn
  -- the bound is too large to be computed, so what it is must not be seen
  generalize digitLimit = limit at hn ⊢
  exact hn

/-- **An integer is read back from its numeral**, if it has one. -/
lemma readInt_toString {n : Int} (hn : withinLimit n = true) :
    readInt (toString n).toList = .ok n := by
  obtain ⟨hne, hdigits, -⟩ := isPlain_toDigits n.natAbs
  have hshort : ¬ digitLimit < (Nat.toDigits 10 n.natAbs).length :=
    Nat.not_lt.mpr (length_toDigits_le hn)
  have hvalue : (if decide (n < 0) then -(n.natAbs : Int) else n.natAbs) = n := by
    clear hn
    split_ifs with hneg <;> rw [decide_eq_true_eq] at hneg <;> omega
  rw [toList_toString_int, readInt, sign_signChars_append _ fun c hc =>
    hdigits c (List.mem_of_mem_head? hc)]
  simp only [digitsInFront_of_isDigit hdigits, allDigits?_of_isDigit hne hdigits,
    length_digitValues, hshort, if_false, ofDigits_digitValues, Nat.ofDigitChars_ten_toDigits,
    hvalue]

/-- What is no digit and no underscore is left over when digits are read. -/
lemma mem_digitsInFront_snd {c : Char} {cs : List Char} (hdigit : Text.decimalDigit? c = none)
    (hmark : c ≠ '_') (hc : c ∈ cs) :
    c ∈ (digitsInFront cs).2 := by
  have hother : ∀ {c' d}, Text.decimalDigit? c' = some d → c ≠ c' := by
    rintro c' d hd rfl
    cases hdigit.symm.trans hd
  fun_induction digitsInFront cs with
  | case1 => exact hc
  | case2 => exact hc
  | case3 c' d hd rest =>
    exact (List.mem_cons.mp hc).resolve_left (hother hd)
  | case4 c' d hd rest ds rest' _ hrest ih =>
    have hmem := (List.mem_cons.mp hc).resolve_left (hother hd)
    have hread := ih ((List.mem_cons.mp hmem).resolve_left hmark)
    rwa [hrest] at hread
  | case5 c' d hd rest _ ds rest' hrest ih =>
    have hread := ih ((List.mem_cons.mp hc).resolve_left (hother hd))
    rwa [hrest] at hread

/-- A text is no integer if a character behind its sign is no digit and no underscore. -/
lemma readInt_ne_ok_of_mem {isNegative : Bool} {cs body : List Char}
    (hsign : sign cs = (isNegative, body)) {c : Char} (hdigit : Text.decimalDigit? c = none)
    (hmark : c ≠ '_') (hc : c ∈ body) (n : Int) : readInt cs ≠ .ok n := by
  have hall : allDigits? body = none := by
    rw [Option.eq_none_iff_forall_ne_some]
    intro ds hds
    have hleft := mem_digitsInFront_snd hdigit hmark hc
    rw [(allDigits?_eq_some_iff.mp hds).1] at hleft
    cases hleft
  intro h
  simp only [readInt, hsign, hall] at h
  split_ifs at h

/-! ## Reading decimals back -/

section

variable {t : Decimal} {cs : List Char}

/-- **A decimal is no integer.** Its numeral has a point or an exponent mark. -/
lemma readInt_ne_ok_of_hasNumeral (h : t.HasNumeral cs) (isNegative : Bool) (n : Int) :
    readInt (signChars isNegative ++ cs) ≠ .ok n := by
  have hsign := sign_signChars_append isNegative h.isDigit_of_mem_head?
  obtain ⟨whole, fraction, exponent, rfl, -, -, hparts, -⟩ := h
  cases fraction with
  | some ds =>
    exact readInt_ne_ok_of_mem hsign (c := '.') (by decide) (by decide)
      (by simp [Decimal.fractionChars]) n
  | none =>
    cases exponent with
    | some e =>
      exact readInt_ne_ok_of_mem hsign (c := 'e') (by decide) (by decide)
        (by simp [Decimal.markedExponent]) n
    | none => cases hparts

/-- The written exponent of a decimal is read back. -/
lemma exponent?_exponentChars (e : Int) : exponent? (Decimal.exponentChars e) = some e := by
  obtain ⟨ds, hds, hne, hdigits, hvalue⟩ := Decimal.exists_exponentChars e
  have hsign : sign ((if decide (e < 0) then '-' else '+') :: ds) = (decide (e < 0), ds) := by
    cases decide (e < 0) <;> rfl
  simp only [exponent?, hds, hsign, allDigits?_of_isDigit hne hdigits, Option.map_some,
    ofDigits_digitValues, hvalue]

/-- Digits that may be missing are read as their values. -/
lemma optionalDigits?_of_isDigit (hcs : ∀ c ∈ cs, c.isDigit = true) :
    optionalDigits? cs = some (digitValues cs) := by
  unfold optionalDigits?
  split_ifs with hnil
  · rw [hnil]
    rfl
  · exact allDigits?_of_isDigit hnil hcs

/-- A numeral is cut at its exponent mark. -/
lemma cut_at_mark {whole : List Char} {fraction : Option (List Char)}
    (hdigits : ∀ c ∈ whole ++ fraction.getD [], c.isDigit = true) (exponent : Option Int)
    {p : Char → Bool} (hp : p = fun c => !(c == 'e' || c == 'E')) :
    ((whole ++ Decimal.fractionChars fraction) ++ Decimal.markedExponent exponent).takeWhile p =
        whole ++ Decimal.fractionChars fraction ∧
      ((whole ++ Decimal.fractionChars fraction) ++ Decimal.markedExponent exponent).dropWhile p =
        Decimal.markedExponent exponent := by
  obtain ⟨hwhole, hbehind⟩ := List.forall_mem_append.mp hdigits
  have hdigit : ∀ c : Char, c.isDigit = true → p c = true := by
    intro c hc
    rw [hp]
    by_contra hmark
    simp only [Bool.not_eq_true', Bool.or_eq_false_iff, not_and_or, Bool.not_eq_false,
      beq_iff_eq] at hmark
    rcases hmark with rfl | rfl <;> exact absurd hc (by decide)
  refine takeWhile_append_of_head?
    (List.forall_mem_append.mpr ⟨fun c hc => hdigit c (hwhole c hc), ?_⟩) ?_
  · cases fraction with
    | none => exact fun _ h => absurd h List.not_mem_nil
    | some ds =>
      exact List.forall_mem_cons.mpr ⟨by rw [hp]; decide, fun c hc => hdigit c (hbehind c hc)⟩
  · cases exponent with
    | none => exact fun _ h => nomatch h
    | some e =>
      rintro c ⟨⟩
      rw [hp]
      decide

/-- What stands in front of the exponent mark is cut at its point. -/
lemma cut_at_point {whole : List Char} (hwhole : ∀ c ∈ whole, c.isDigit = true)
    (fraction : Option (List Char)) :
    (whole ++ Decimal.fractionChars fraction).takeWhile (· ≠ '.') = whole ∧
      (whole ++ Decimal.fractionChars fraction).dropWhile (· ≠ '.') =
        Decimal.fractionChars fraction := by
  refine takeWhile_append_of_head? ?_ ?_
  · intro c hc
    rw [decide_eq_true_eq]
    rintro rfl
    exact absurd (hwhole '.' hc) (by decide)
  · cases fraction with
    | none => exact fun _ h => nomatch h
    | some ds =>
      rintro c ⟨⟩
      decide

/-- **A decimal is read back from its numeral** as the double nearest to it. -/
lemma decimal?_of_hasNumeral (h : t.HasNumeral cs) (isNegative : Bool) :
    decimal? isNegative cs = some (Binary64.ofDecimal isNegative t.digits t.exponent) := by
  obtain ⟨whole, fraction, exponent, rfl, hne, hdigits, -, rfl⟩ := h
  obtain ⟨hwhole, hbehind⟩ := List.forall_mem_append.mp hdigits
  obtain ⟨hmantissa, hmarked⟩ := cut_at_mark hdigits exponent rfl
  obtain ⟨hfront, hpoint⟩ := cut_at_point hwhole fraction
  rw [← List.append_assoc]
  simp only [decimal?, hmantissa, hmarked, hfront, hpoint, optionalDigits?_of_isDigit hwhole]
  cases fraction with
  | none =>
    cases exponent with
    | none => simp [Decimal.fractionChars, Decimal.markedExponent, hne]
    | some e => simp [Decimal.fractionChars, Decimal.markedExponent, hne, exponent?_exponentChars]
  | some ds =>
    have hds : optionalDigits? ds = some (digitValues ds) := optionalDigits?_of_isDigit hbehind
    cases exponent with
    | none => simp [Decimal.fractionChars, Decimal.markedExponent, hne, hds]
    | some e =>
      simp [Decimal.fractionChars, Decimal.markedExponent, hne, hds, exponent?_exponentChars]

end

end Numeral

end LogicGraph
