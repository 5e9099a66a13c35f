import Mathlib.Data.List.Forall2
import Mathlib.Data.Nat.Digits.Defs
import Mathlib.Tactic.Common
import LogicGraph.Number.Numeral

set_option relaxedAutoImplicit false
set_option autoImplicit false

/-!
# What numerals spell

A number has many numerals: digits of any script will do, and zeros may stand in front. Among them
one is plain, and it is the one that is written. A numeral that is read has no more digits than one
that is written may have.

## Main definitions

* `LogicGraph.Numeral.Spells` — digits of any script that spell a number.
* `LogicGraph.Numeral.IsPlain` — digits from `0` to `9`, without a zero in front.

## Main results

* `LogicGraph.Numeral.readInt_eq_ok_iff` — what is read of characters that look like digits.
* `LogicGraph.Numeral.exists_spells_iff` — which characters spell a number.
* `LogicGraph.Numeral.isPlain_iff_of_spells` — the plain numeral of a number is the one that is
  written.
* `LogicGraph.Numeral.withinLimit_of_readInt` — what has been read can be written.
-/

namespace LogicGraph.Numeral

/-- A text of digits, of any script and not too many, that spell the number. -/
def Spells (cs : List Char) (k : Nat) : Prop :=
  cs ≠ [] ∧ cs.length ≤ digitLimit ∧
    ∃ ds, List.Forall₂ (fun c d => Text.decimalDigit? c = some d) cs ds ∧ ofDigits ds = k

/-- A text of digits from `0` to `9` that has no zero in front, unless it is a single zero. -/
def IsPlain (cs : List Char) : Prop :=
  cs ≠ [] ∧ (∀ c ∈ cs, c.isDigit = true) ∧ (cs.head? = some '0' → cs = ['0'])

/-! ## Reading -/

/-- A digit in front of digits is one more of them. -/
lemma digitsInFront_cons {c : Char} {cs : List Char} {d : Nat} (hd : Text.decimalDigit? c = some d)
    (hcs : '_' ∉ cs) :
    digitsInFront (c :: cs) = (d :: (digitsInFront cs).1, (digitsInFront cs).2) := by
  rw [digitsInFront, hd]
  cases cs with
  | nil => rfl
  | cons c' rest =>
    have hc' : c' ≠ '_' := fun h => hcs (h ▸ List.mem_cons_self)
    simp [hc']

/-- Without underscores, digits are read up to the end exactly if all characters are digits. -/
lemma digitsInFront_eq_iff {cs : List Char} {ds : List Nat} (hcs : '_' ∉ cs) :
    digitsInFront cs = (ds, []) ↔
      List.Forall₂ (fun c d => Text.decimalDigit? c = some d) cs ds := by
  induction cs generalizing ds with
  | nil => simp [digitsInFront, eq_comm]
  | cons c rest ih =>
    have hrest : '_' ∉ rest := fun h => hcs (List.mem_cons_of_mem c h)
    cases hd : Text.decimalDigit? c with
    | none =>
      have hleft : digitsInFront (c :: rest) = ([], c :: rest) := by rw [digitsInFront, hd]
      simp [hleft, List.forall₂_cons_left_iff, hd]
    | some d =>
      rw [digitsInFront_cons hd hrest, Prod.mk.injEq, List.forall₂_cons_left_iff]
      constructor
      · rintro ⟨rfl, hend⟩
        exact ⟨d, _, hd, (ih hrest).mp (Prod.ext rfl hend), rfl⟩
      · rintro ⟨d', ds', hd', hds', rfl⟩
        cases hd.symm.trans hd'
        rw [(ih hrest).mpr hds']
        exact ⟨rfl, rfl⟩

/-- The marks of a numeral are no digits. -/
lemma not_isDigitLike_of_isMark {c : Char} (h : c = '_' ∨ c = '+' ∨ c = '-') :
    Text.isDigitLike c = false := by
  rcases h with rfl | rfl | rfl <;> decide

/-- Characters that look like digits have no sign in front. -/
lemma sign_of_isDigitLike {cs : List Char} (hcs : ∀ c ∈ cs, Text.isDigitLike c = true) :
    sign cs = (false, cs) := by
  unfold sign
  split
  · rename_i rest
    have := hcs '-' List.mem_cons_self
    rw [not_isDigitLike_of_isMark (by simp)] at this
    cases this
  · rename_i rest
    have := hcs '+' List.mem_cons_self
    rw [not_isDigitLike_of_isMark (by simp)] at this
    cases this
  · rfl

/-- All of a text is digits if it is not empty and digits are read up to its end. -/
lemma allDigits?_eq_some_iff {cs : List Char} {ds : List Nat} :
    allDigits? cs = some ds ↔ digitsInFront cs = (ds, []) ∧ ds ≠ [] := by
  unfold allDigits?
  split
  · rename_i rest h
    rw [h]
    constructor
    · rintro ⟨⟩
    · rintro ⟨heq, hne⟩
      cases heq
      exact absurd rfl hne
  · rename_i ds' hne h
    rw [h, Option.some.injEq, Prod.mk.injEq]
    exact ⟨fun heq => ⟨⟨heq, rfl⟩, heq ▸ fun hnil => hne (hnil ▸ rfl)⟩, fun heq => heq.1.1⟩
  · rename_i h
    simp [h]

/-- **Of characters that look like digits, an integer is read exactly if they spell it.** -/
lemma readInt_eq_ok_iff {cs : List Char} (hne : cs ≠ []) (hcs : ∀ c ∈ cs, Text.isDigitLike c = true)
    {n : Int} :
    readInt cs = .ok n ↔ ∃ k : Nat, Spells cs k ∧ n = k := by
  have hmark : '_' ∉ cs := by
    intro hmem
    have := hcs '_' hmem
    rw [not_isDigitLike_of_isMark (.inl rfl)] at this
    cases this
  unfold readInt
  simp only [sign_of_isDigitLike hcs]
  cases hall : allDigits? cs with
  | none =>
    have hfails : ¬ ∃ k : Nat, Spells cs k ∧ n = k := by
      rintro ⟨k, ⟨-, -, ds, hds, -⟩, -⟩
      have hnil : ds ≠ [] := by
        rintro rfl
        exact hne (List.forall₂_nil_right_iff.mp hds)
      rw [allDigits?_eq_some_iff.mpr ⟨(digitsInFront_eq_iff hmark).mpr hds, hnil⟩] at hall
      cases hall
    split_ifs <;> simpa using hfails
  | some ds =>
    obtain ⟨hfront, -⟩ := allDigits?_eq_some_iff.mp hall
    have hds := (digitsInFront_eq_iff hmark).mp hfront
    rw [hfront]
    have hspells : ∀ k : Nat, Spells cs k ↔ ds.length ≤ digitLimit ∧ ofDigits ds = k := by
      intro k
      rw [Spells, hds.length_eq]
      refine ⟨?_, fun h => ⟨hne, h.1, ds, hds, h.2⟩⟩
      rintro ⟨-, hlength, ds', hds', hk⟩
      obtain rfl : ds' = ds := by
        have := (digitsInFront_eq_iff hmark).mpr hds'
        rw [hfront] at this
        cases this
        rfl
      exact ⟨hlength, hk⟩
    simp only [hspells, Bool.false_eq_true, if_false]
    split_ifs with hlong
    · simp [Nat.not_le.mpr hlong]
    · simp [Nat.not_lt.mp hlong, eq_comm]

/-- What spells a number is made of digits. -/
lemma Spells.isDigitLike {cs : List Char} {k : Nat} (h : Spells cs k) :
    ∀ c ∈ cs, Text.isDigitLike c = true := by
  obtain ⟨-, -, ds, hds, -⟩ := h
  clear * - hds
  induction hds with
  | nil => simp
  | cons hd _ ih => exact List.forall_mem_cons.mpr ⟨Text.isDigitLike_of_decimalDigit? hd, ih⟩

/-- **Characters spell a number exactly if they are digits and not too many.** -/
lemma exists_spells_iff {cs : List Char} (hne : cs ≠ []) :
    (∃ k, Spells cs k) ↔ cs.length ≤ digitLimit ∧ ∀ c ∈ cs, Text.decimalDigit? c ≠ none := by
  have hdigits : (∃ ds, List.Forall₂ (fun c d => Text.decimalDigit? c = some d) cs ds) ↔
      ∀ c ∈ cs, Text.decimalDigit? c ≠ none := by
    clear hne
    induction cs with
    | nil => simp
    | cons c rest ih =>
      rw [List.forall_mem_cons, ← ih, Option.ne_none_iff_exists']
      simp only [List.forall₂_cons_left_iff]
      constructor
      · rintro ⟨_, d, ds, hd, hds, -⟩
        exact ⟨⟨d, hd⟩, ds, hds⟩
      · rintro ⟨⟨d, hd⟩, ds, hds⟩
        exact ⟨_, d, ds, hd, hds, rfl⟩
  rw [← hdigits]
  constructor
  · rintro ⟨k, -, hlength, ds, hds, -⟩
    exact ⟨hlength, ds, hds⟩
  · rintro ⟨hlength, ds, hds⟩
    exact ⟨_, hne, hlength, ds, hds, rfl⟩

/-! ## Plain numerals -/

/-- An ASCII digit is less than ten. -/
lemma toNat_sub_lt_of_isDigit {c : Char} (h : c.isDigit = true) : c.toNat - '0'.toNat < 10 := by
  rw [Char.isDigit_iff_toNat] at h
  simp only [Char.reduceToNat] at h ⊢
  omega

/-- An ASCII digit is the character of its value. -/
lemma digitChar_toNat_sub {c : Char} (h : c.isDigit = true) :
    (c.toNat - '0'.toNat).digitChar = c := by
  apply Char.toNat_inj.mp
  rw [Nat.toNat_digitChar_of_lt_ten (toNat_sub_lt_of_isDigit h)]
  rw [Char.isDigit_iff_toNat] at h
  simp only [Char.reduceToNat] at h ⊢
  omega

/-- The value of an ASCII digit is its distance from zero. -/
lemma decimalDigit?_of_isDigit {c : Char} (h : c.isDigit = true) :
    Text.decimalDigit? c = some (c.toNat - '0'.toNat) := by
  rw [Char.isDigit_iff_toNat] at h
  simp only [Char.reduceToNat] at h
  rw [Text.decimalDigit?, Text.decimalZeros, List.find?_cons_of_pos]
  · rfl
  · simp only [Bool.and_eq_true, decide_eq_true_eq]
    omega

/-- The digits of a number, put behind those of a positive one. -/
lemma toDigits_ofDigitChars {cs : List Char} (hcs : ∀ c ∈ cs, c.isDigit = true) {acc : Nat}
    (hacc : 0 < acc) :
    Nat.toDigits 10 (Nat.ofDigitChars 10 cs acc) = Nat.toDigits 10 acc ++ cs := by
  induction cs generalizing acc with
  | nil => simp
  | cons c rest ih =>
    obtain ⟨hc, hrest⟩ := List.forall_mem_cons.mp hcs
    have hlt := toNat_sub_lt_of_isDigit hc
    rw [Nat.ofDigitChars_cons, ih hrest (by omega),
      ← Nat.toDigits_append_toDigits (by decide) hacc hlt, Nat.toDigits_of_lt_base hlt,
      digitChar_toNat_sub hc, List.append_assoc, List.singleton_append]

/-- A plain numeral is what is written of the number that it spells. -/
lemma IsPlain.eq_toDigits {cs : List Char} (h : IsPlain cs) :
    cs = Nat.toDigits 10 (Nat.ofDigitChars 10 cs 0) := by
  obtain ⟨hne, hdigits, hzero⟩ := h
  cases cs with
  | nil => exact absurd rfl hne
  | cons c rest =>
    obtain ⟨hc, hrest⟩ := List.forall_mem_cons.mp hdigits
    by_cases hc0 : c = '0'
    · obtain rfl : rest = [] := by simpa [hc0] using hzero
      subst hc0
      rfl
    · have hpos : 0 < c.toNat - '0'.toNat := by
        rw [Nat.pos_iff_ne_zero]
        intro h0
        apply hc0
        rw [← digitChar_toNat_sub hc, h0]
        rfl
      rw [Nat.ofDigitChars_cons, Nat.mul_zero, Nat.zero_add, toDigits_ofDigitChars hrest hpos,
        Nat.toDigits_of_lt_base (toNat_sub_lt_of_isDigit hc), digitChar_toNat_sub hc,
        List.singleton_append]

/-- Different numbers have different digits. -/
lemma toDigits_injective {m n : Nat} (h : Nat.toDigits 10 m = Nat.toDigits 10 n) : m = n := by
  rw [← Nat.ofDigitChars_ten_toDigits (n := m), h, Nat.ofDigitChars_ten_toDigits]

/-- What is written of a number is plain. -/
lemma isPlain_toDigits (n : Nat) : IsPlain (Nat.toDigits 10 n) := by
  refine ⟨Nat.toDigits_ne_nil, fun c hc => Nat.isDigit_of_mem_toDigits (by decide) (by decide) hc,
    ?_⟩
  induction n using Nat.strong_induction_on with
  | _ n ih =>
    intro hhead
    rcases Nat.lt_or_ge n 10 with hlt | hge
    · rw [Nat.toDigits_of_lt_base hlt] at hhead ⊢
      simpa using hhead
    · -- the first digit is that of the tenth part, which is not zero
      exfalso
      rw [Nat.toDigits_of_base_le (by decide) hge,
        List.head?_append_of_ne_nil _ Nat.toDigits_ne_nil] at hhead
      have htenth := ih (n / 10) (by omega) hhead
      have : n / 10 = 0 := toDigits_injective htenth
      omega

/-- Digits from `0` to `9` spell what they spell to everyone. -/
lemma forall₂_decimalDigit?_iff {cs : List Char} (hcs : ∀ c ∈ cs, c.isDigit = true)
    {ds : List Nat} :
    List.Forall₂ (fun c d => Text.decimalDigit? c = some d) cs ds ↔ ds = cs.map fun c =>
      c.toNat - '0'.toNat := by
  induction cs generalizing ds with
  | nil => simp
  | cons c rest ih =>
    obtain ⟨hc, hrest⟩ := List.forall_mem_cons.mp hcs
    simp only [List.forall₂_cons_left_iff, decimalDigit?_of_isDigit hc, ih hrest, Option.some.injEq,
      List.map_cons]
    constructor
    · rintro ⟨d, ds', rfl, rfl, rfl⟩
      rfl
    · rintro rfl
      exact ⟨_, _, rfl, rfl, rfl⟩

/-- ASCII digits spell the number that they are the digits of, if they are not too many. -/
lemma spells_iff_of_isDigit {cs : List Char} (hcs : ∀ c ∈ cs, c.isDigit = true) {k : Nat} :
    Spells cs k ↔ cs ≠ [] ∧ cs.length ≤ digitLimit ∧ Nat.ofDigitChars 10 cs 0 = k := by
  simp only [Spells, forall₂_decimalDigit?_iff hcs, exists_eq_left, ofDigits,
    Nat.ofDigitChars_eq_foldl, List.foldl_map]

/-- **The plain numeral of a number is the one that is written.** -/
lemma isPlain_iff_of_spells {cs : List Char} {k : Nat} (h : Spells cs k) :
    IsPlain cs ↔ cs = Nat.toDigits 10 k := by
  constructor
  · intro hplain
    rw [← ((spells_iff_of_isDigit hplain.2.1).mp h).2.2]
    exact hplain.eq_toDigits
  · rintro rfl
    exact isPlain_toDigits k

/-- What is written of a number spells it, if it is not too long. -/
lemma spells_toDigits {k : Nat} (hk : k < 10 ^ digitLimit) : Spells (Nat.toDigits 10 k) k := by
  rw [spells_iff_of_isDigit (isPlain_toDigits k).2.1]
  exact ⟨Nat.toDigits_ne_nil, Nat.toDigits_length 10 k digitLimit (by decide) hk,
    Nat.ofDigitChars_ten_toDigits⟩

/-! ## The limit -/

/-- Digits are less than ten. -/
lemma lt_ten_of_mem_digitsInFront (cs : List Char) : ∀ d ∈ (digitsInFront cs).1, d < 10 := by
  fun_induction digitsInFront cs with
  | case1 | case2 => simp
  | case3 c d hd rest _ hrest => simpa using Text.decimalDigit?_lt hd
  | case4 c d hd rest ds _ hne hrest ih | case5 c d hd rest ds _ _ hrest ih =>
    rw [hrest] at ih
    exact List.forall_mem_cons.mpr ⟨Text.decimalDigit?_lt hd, ih⟩

/-- A number is less than the power of ten that its digits leave room for. -/
lemma foldl_lt_pow {ds : List Nat} (h : ∀ d ∈ ds, d < 10) (acc : Nat) :
    ds.foldl (fun n d => 10 * n + d) acc < 10 ^ ds.length * (acc + 1) := by
  induction ds generalizing acc with
  | nil => simp
  | cons d rest ih =>
    obtain ⟨hd, hrest⟩ := List.forall_mem_cons.mp h
    calc (d :: rest).foldl (fun n d => 10 * n + d) acc
        < 10 ^ rest.length * (10 * acc + d + 1) := ih hrest _
      _ ≤ 10 ^ rest.length * (10 * (acc + 1)) := Nat.mul_le_mul_left _ (by omega)
      _ = 10 ^ (d :: rest).length * (acc + 1) := by
        rw [List.length_cons, Nat.pow_succ, Nat.mul_assoc]

/-- **What has been read can be written.** -/
lemma withinLimit_of_readInt {cs : List Char} {n : Int} (h : readInt cs = .ok n) :
    withinLimit n = true := by
  obtain ⟨negative, body, hsign⟩ : ∃ negative body, sign cs = (negative, body) := ⟨_, _, rfl⟩
  simp only [readInt, hsign] at h
  split at h
  · cases h
  · rename_i hlong
    split at h
    · cases h
    · rename_i ds hall
      have hfront := (allDigits?_eq_some_iff.mp hall).1
      have hlt : ofDigits ds < 10 ^ digitLimit := by
        rw [hfront] at hlong
        have hdigits : ∀ d ∈ ds, d < 10 := by
          have := lt_ten_of_mem_digitsInFront body
          rwa [hfront] at this
        calc ofDigits ds < 10 ^ ds.length * (0 + 1) := foldl_lt_pow hdigits 0
          _ = 10 ^ ds.length := by rw [Nat.zero_add, Nat.mul_one]
          _ ≤ 10 ^ digitLimit := Nat.pow_le_pow_right (by decide) (Nat.not_lt.mp hlong)
      have habs : n.natAbs = ofDigits ds := by
        rw [← Except.ok.inj h]
        cases negative <;> simp
      rw [withinLimit, habs, decide_eq_true_iff]
      -- the bound is too large to be computed, so what it is must not be seen
      generalize digitLimit = limit at hlt ⊢
      exact hlt

/-- The least integer that is too long to be written. -/
lemma withinLimit_pow_digitLimit : withinLimit (10 ^ digitLimit) = false := by
  rw [withinLimit, decide_eq_false_iff_not, Int.natAbs_pow]
  generalize digitLimit = limit
  exact Nat.lt_irrefl _

end LogicGraph.Numeral
