import LogicGraph.Number.Shortest
import LogicGraph.Proofs.Number.Rounding

set_option relaxedAutoImplicit false
set_option autoImplicit false

/-!
# The shortest decimal reads back

A finite double is written with the fewest digits that read back as the double. The search for them
looks at grids of one to seventeen digits, and this module shows that the last of these is fine
enough: the decimal that is found always reads back.

## Main definitions

* `LogicGraph.Decimal.Hits` — a decimal that reads back as a given double.

## Main results

* `LogicGraph.Decimal.leadingExponent_bounds` — the exponent of the leading digit of a fraction.
* `LogicGraph.Decimal.hits_of_close` — decimals of seventeen digits close to a double read back as
  the double.
* `LogicGraph.Decimal.hits_shortest` — the shortest decimal of a double reads back as the double.

## Design

Seventeen digits suffice since `2 ^ 53 < 10 ^ 16`: half a unit of the seventeenth digit of a number
`v` is at most `v / (2 * 10 ^ 16)`, and a fraction that is less than `v / 2 ^ 54` away from a double
`v` is rounded to it.
-/

namespace LogicGraph.Decimal

open Binary64

/-! ## The leading digit -/

/-- The quotient of two numbers is at most their fraction, and less than one below it. -/
lemma cast_div_bounds {n d : Nat} (hd : 0 < d) :
    ((n / d : Nat) : ℚ) ≤ n / d ∧ (n / d : ℚ) < (n / d : Nat) + 1 := by
  have hdq : (0 : ℚ) < d := by exact_mod_cast hd
  rw [le_div_iff₀ hdq, div_lt_iff₀ hdq]
  refine ⟨by exact_mod_cast Nat.div_mul_le_self n d, ?_⟩
  exact_mod_cast Nat.lt_mul_of_div_lt (Nat.lt_succ_self (n / d)) hd

/-- The number of digits of a quotient of at least one, as bounds of the fraction. -/
lemma exists_digitCount_div {n d : Nat} (hd : 0 < d) (hle : d ≤ n) :
    ∃ k : Nat, digitCount (n / d) = k + 1 ∧ (10 : ℚ) ^ k ≤ n / d ∧ (n / d : ℚ) < 10 ^ (k + 1) := by
  obtain ⟨hpos, hlower, hupper⟩ := digitCount_bounds (Nat.div_pos hle hd).ne'
  obtain ⟨hfloor, hceil⟩ := cast_div_bounds (n := n) hd
  refine ⟨digitCount (n / d) - 1, by omega, ?_, ?_⟩
  · exact le_trans (by exact_mod_cast hlower) hfloor
  · refine lt_of_lt_of_le hceil ?_
    rw [Nat.sub_add_cancel hpos]
    exact_mod_cast hupper

/-- The exponent of the leading digit of a positive fraction. -/
lemma leadingExponent_bounds {n d : Nat} (hn : n ≠ 0) (hd : d ≠ 0) :
    (10 : ℚ) ^ leadingExponent n d ≤ n / d ∧ (n / d : ℚ) < 10 ^ (leadingExponent n d + 1) := by
  have hnq : (0 : ℚ) < n := by exact_mod_cast Nat.pos_of_ne_zero hn
  have hdq : (0 : ℚ) < d := by exact_mod_cast Nat.pos_of_ne_zero hd
  unfold leadingExponent
  simp only
  split_ifs with hle hexact
  · obtain ⟨k, hk, hlower, hupper⟩ := exists_digitCount_div (Nat.pos_of_ne_zero hd) hle
    rw [hk, Nat.cast_succ, add_sub_cancel_right, ← Nat.cast_succ, zpow_natCast, zpow_natCast]
    exact ⟨hlower, hupper⟩
  all_goals
    obtain ⟨k, hk, hlower, hupper⟩ :=
      exists_digitCount_div (Nat.pos_of_ne_zero hn) (not_le.mp hle).le
    rw [hk, Nat.add_sub_cancel, Nat.pow_eq] at hexact
    rw [hk, Nat.add_sub_cancel]
    rw [div_lt_iff₀ hnq] at hupper
    rw [le_div_iff₀ hnq] at hlower
  · have hvalue : (n / d : ℚ) = 10 ^ (-(k : Int)) := by
      rw [← hexact, Nat.cast_mul, Nat.cast_pow, Nat.cast_ofNat, zpow_neg, zpow_natCast]
      field_simp
    rw [hvalue]
    exact ⟨le_rfl, zpow_lt_zpow_right₀ (by norm_num) (by omega)⟩
  · have hlower' : (10 : ℚ) ^ k * n < d := by
      refine lt_of_le_of_ne hlower fun h => hexact ?_
      rw [mul_comm] at h
      exact_mod_cast h
    rw [show -(k : Int) - 1 = -((k + 1 : Nat) : Int) by
      omega, show -((k + 1 : Nat) : Int) + 1 = -(k : Int) by
        omega, zpow_neg, zpow_natCast, zpow_neg, zpow_natCast]
    constructor
    · rw [inv_le_comm₀ (by positivity) (by positivity), inv_div, div_le_iff₀ hnq]
      exact hupper.le
    · rw [lt_inv_comm₀ (by positivity) (by positivity), inv_div, lt_div_iff₀ hnq]
      exact hlower'

/-! ## The search -/

/-- The fraction is divided by a power of ten. -/
lemma fraction_overPower (n d : Nat) (q : Int) : fraction (overPower n d q) = n / d / 10 ^ q :=
  fraction_div_zpow 10 n d q

/-- The denominator stays positive. -/
lemma overPower_snd_pos {d : Nat} (hd : 0 < d) (n : Nat) (q : Int) : 0 < (overPower n d q).2 := by
  unfold overPower
  split_ifs
  · exact hd
  · exact Nat.mul_pos hd (pow_pos (by decide) _)

/-- A decimal that reads back as the given double. -/
def Hits (x : Binary64) (t : Decimal) : Prop :=
  ofDecimal false t.digits t.exponent = x

/-- A neighbour that is taken reads back. -/
lemma hits_of_neighbour? {x : Binary64} {n d : Nat} {q : Int} {t : Decimal}
    (h : neighbour? x n d q = some t) : Hits x t := by
  unfold neighbour? at h
  simp only at h
  split_ifs at h with hboth hlow hhigh
  · obtain ⟨⟨-, hlow⟩, hhigh⟩ := hboth
    rw [← Option.some.inj h]
    -- Rounding gives one of the two neighbours.
    unfold Hits roundDiv
    simp only
    split_ifs <;> assumption
  · rw [← Option.some.inj h]
    exact hlow.2
  · rw [← Option.some.inj h]
    exact hhigh

/-- The search reads back if it comes to a grid with a neighbour that does. -/
lemma hits_search {x : Binary64} {n d : Nat} {lead : Int} {i fuel : Nat} (precision : Nat)
    (hi : i < fuel) (h : neighbour? x n d (lead - (precision + i : Nat) + 1) ≠ none) :
    Hits x (search x n d lead fuel precision) := by
  induction fuel generalizing precision i with
  | zero => exact absurd hi (Nat.not_lt_zero i)
  | succ fuel ih =>
    rw [search]
    split
    · rename_i hit heq
      exact hits_of_neighbour? heq
    · rename_i heq
      cases i with
      | zero => exact absurd heq h
      | succ i =>
        exact ih _ (Nat.lt_of_succ_lt_succ hi)
          (by rwa [show precision + 1 + i = precision + (i + 1) by omega])

/-- A decimal reads back without the zeros at its end as it does with them. -/
lemma Hits.stripZeros {x : Binary64} {t : Decimal} (h : Hits x t) (fuel : Nat) :
    Hits x (stripZeros fuel t) := by
  induction fuel generalizing t with
  | zero => exact h
  | succ fuel ih =>
    rw [Decimal.stripZeros]
    split_ifs with hten
    · refine ih ?_
      have hstrip := ofDecimal_mul_pow false (t.digits / 10) (t.exponent + 1) 1
      rw [pow_one, Nat.div_mul_cancel (Nat.dvd_of_mod_eq_zero hten), Nat.cast_one,
        add_sub_cancel_right] at hstrip
      exact hstrip.symm.trans h
    · exact h

/-! ## Seventeen digits -/

/-- The doubles lie between these powers of ten. -/
lemma zpow_bounds_of_isNormal {m : Nat} {e : Int} (hx : IsNormal m e) :
    (10 : ℚ) ^ (-324 : Int) < m * 2 ^ e ∧ (m * 2 ^ e : ℚ) < 10 ^ (309 : Int) := by
  have hm : (1 : ℚ) ≤ m := by exact_mod_cast hx.pos
  have hm53 : (m : ℚ) < 2 ^ 53 := by exact_mod_cast hx.lt
  constructor
  · have hpow : (2 : Nat) ^ 1074 < 10 ^ 324 := by decide +kernel
    calc (10 : ℚ) ^ (-324 : Int) < 2 ^ (-1074 : Int) := by
          rw [zpow_neg, zpow_neg, inv_lt_inv₀ (by positivity) (by positivity)]
          exact_mod_cast hpow
      _ ≤ 2 ^ e := zpow_le_zpow_right₀ one_le_two hx.min_le
      _ ≤ m * 2 ^ e := le_mul_of_one_le_left (by positivity) hm
  · have hpow : (2 : Nat) ^ 53 * 2 ^ 971 < 10 ^ 309 := by decide +kernel
    calc (m * 2 ^ e : ℚ) < 2 ^ 53 * 2 ^ e := mul_lt_mul_of_pos_right hm53 (by positivity)
      _ ≤ 2 ^ 53 * 2 ^ (971 : Int) :=
        mul_le_mul_of_nonneg_left (zpow_le_zpow_right₀ one_le_two hx.le_max) (by positivity)
      _ < 10 ^ (309 : Int) := by exact_mod_cast hpow

/-- Powers of ten multiply. -/
lemma ten_zpow_natCast_add (k : Nat) (q : Int) : (10 : ℚ) ^ (k + q) = 10 ^ k * 10 ^ q := by
  rw [zpow_add₀ (by norm_num), zpow_natCast]

/-- Powers of ten are in the order of their exponents. -/
lemma lt_of_ten_zpow_lt {j k : Int} (h : (10 : ℚ) ^ j < 10 ^ k) : j < k :=
  (zpow_lt_zpow_iff_right₀ (by norm_num)).mp h

/-- A decimal of seventeen digits that is at most half a unit of its last digit away from a double
reads back as the double. -/
lemma hits_of_close {m c : Nat} {e q : Int} {t : ℚ} (hx : IsNormal m e)
    (ht : t * 10 ^ q = m * 2 ^ e) (hlower : 10 ^ 16 ≤ t) (hupper : t < 10 ^ 17) (hc : 10 ^ 16 ≤ c)
    (hc' : c ≤ 10 ^ 17) (hclose : |(c : ℚ) - t| ≤ 1 / 2) :
    Hits (.finite false m e) ⟨c, q⟩ := by
  have hgrid : (0 : ℚ) < 10 ^ q := by positivity
  have hunit : (0 : ℚ) < 2 ^ e := by positivity
  obtain ⟨hmin, hmax⟩ := zpow_bounds_of_isNormal hx
  have hq : q < 293 := by
    have hlt : (10 : ℚ) ^ ((16 : Nat) + q) < 10 ^ (309 : Int) := by
      rw [ten_zpow_natCast_add]
      exact lt_of_le_of_lt (mul_le_mul_of_nonneg_right hlower hgrid.le) (ht ▸ hmax)
    have := lt_of_ten_zpow_lt hlt
    omega
  have hq' : -341 < q := by
    have hlt : (10 : ℚ) ^ (-324 : Int) < 10 ^ ((17 : Nat) + q) := by
      rw [ten_zpow_natCast_add]
      exact lt_trans (ht ▸ hmin) (mul_lt_mul_of_pos_right hupper hgrid)
    have := lt_of_ten_zpow_lt hlt
    omega
  have hcount : digitCount c = 17 ∨ digitCount c = 18 := by
    rcases hc'.lt_or_eq with h | rfl
    · exact .inl (digitCount_eq hc h)
    · exact .inr (digitCount_eq le_rfl (Nat.pow_lt_pow_right (by decide) (by decide)))
  have hc0 : c ≠ 0 := (lt_of_lt_of_le (pow_pos (by decide) 16) hc).ne'
  obtain ⟨n, d, hd, hvalue⟩ := exists_fraction_eq c q
  rw [Hits, ofDecimal_eq_ofRatio false hc0 (by omega) (by omega) hd hvalue]
  refine ofRatio_eq_of_near false hx hd ?_
  -- Both sides in units of the double.
  have hratio : (0 : ℚ) < 10 ^ q / 2 ^ e := div_pos hgrid hunit
  have hm : (m : ℚ) = t * (10 ^ q / 2 ^ e) := by
    rw [← mul_div_assoc, ht, mul_div_cancel_right₀ _ hunit.ne']
  have hdiff : (n / d / 2 ^ e : ℚ) - m = (c - t) * (10 ^ q / 2 ^ e) := by
    rw [hvalue, hm]
    ring
  rw [hdiff, abs_mul, abs_of_pos hratio, hm, mul_div_right_comm]
  refine mul_lt_mul_of_pos_right (lt_of_le_of_lt hclose ?_) hratio
  rw [div_lt_div_iff₀ two_pos (by positivity)]
  linarith

/-- **Seventeen digits suffice**: one of the two neighbours on the grid is at most half a unit
away. -/
lemma neighbour?_ne_none {m n d : Nat} {e : Int} (hx : IsNormal m e) (hn : n ≠ 0) (hd : 0 < d)
    (h : (n / d : ℚ) = m * 2 ^ e) :
    neighbour? (.finite false m e) n d (leadingExponent n d - 16) ≠ none := by
  obtain ⟨q, hq⟩ : ∃ q, leadingExponent n d = (16 : Nat) + q := ⟨leadingExponent n d - 16, by omega⟩
  obtain ⟨hlead, hlead'⟩ := leadingExponent_bounds hn hd.ne'
  obtain ⟨hfloor, hceil⟩ := cast_div_bounds (n := (overPower n d q).1) (overPower_snd_pos hd n q)
  have hgrid : (0 : ℚ) < 10 ^ q := by positivity
  have hfraction := fraction_overPower n d q
  rw [show ((overPower n d q).1 / (overPower n d q).2 : ℚ) = n / d / 10 ^ q from hfraction]
    at hfloor hceil
  rw [show leadingExponent n d - 16 = q by omega]
  rw [hq, show ((16 : Nat) : Int) + q + 1 = (17 : Nat) + q by omega, ten_zpow_natCast_add] at hlead'
  rw [hq, ten_zpow_natCast_add] at hlead
  have hlower : (10 : ℚ) ^ 16 ≤ n / d / 10 ^ q := (le_div_iff₀ hgrid).mpr hlead
  have hupper : (n / d / 10 ^ q : ℚ) < 10 ^ 17 := (div_lt_iff₀ hgrid).mpr hlead'
  have hvalue : (n / d / 10 ^ q : ℚ) * 10 ^ q = m * 2 ^ e := by rw [div_mul_cancel₀ _ hgrid.ne', h]
  unfold neighbour?
  simp only
  generalize (overPower n d q).1 / (overPower n d q).2 = low at hfloor hceil ⊢
  generalize (n / d / 10 ^ q : ℚ) = t at hfloor hceil hlower hupper hvalue
  have hlow : 10 ^ 16 ≤ low := by
    have : (10 : ℚ) ^ 16 < low + 1 := by linarith
    have : 10 ^ 16 < low + 1 := by exact_mod_cast this
    omega
  have hhigh : low + 1 ≤ 10 ^ 17 := by
    have : (low : ℚ) < 10 ^ 17 := by linarith
    have : low < 10 ^ 17 := by exact_mod_cast this
    omega
  have hhits : (low ≠ 0 ∧ ofDecimal false low q = .finite false m e) ∨
      ofDecimal false (low + 1) q = .finite false m e := by
    rcases le_total (t - low) (1 / 2) with hnear | hnear
    · refine .inl ⟨by omega, hits_of_close hx hvalue hlower hupper hlow (by omega) ?_⟩
      rw [abs_sub_comm, abs_of_nonneg (by linarith)]
      exact hnear
    · refine .inr (hits_of_close hx hvalue hlower hupper (by omega) hhigh ?_)
      rw [Nat.cast_succ, abs_of_nonneg (by linarith)]
      linarith
  rcases hhits with h | h
  · by_cases h' : ofDecimal false (low + 1) q = .finite false m e <;> simp [h, h']
  · by_cases h' : low ≠ 0 ∧ ofDecimal false low q = .finite false m e <;> simp [h, h']

/-- The fraction of a mantissa and an exponent. -/
lemma fraction_ratio (m : Nat) (e : Int) : fraction (ratio m e) = m * 2 ^ e :=
  fraction_mul_zpow 2 m e

/-- **The shortest decimal of a double reads back as the double.** -/
lemma hits_shortest {m : Nat} {e : Int} (hx : IsNormal m e) :
    Hits (.finite false m e) (shortest m e) := by
  have hd : 0 < (ratio m e).2 := by
    unfold ratio
    split_ifs
    · exact Nat.two_pow_pos _
    · exact Nat.one_pos
  have hn : (ratio m e).1 ≠ 0 := by
    unfold ratio
    split_ifs
    · exact hx.pos.ne'
    · exact (Nat.mul_pos hx.pos (Nat.two_pow_pos _)).ne'
  have hlast := neighbour?_ne_none hx hn hd (fraction_ratio m e)
  exact (hits_search 1 (show 16 < _ by decide) (by convert hlast using 2; omega)).stripZeros 20

end LogicGraph.Decimal
