import Mathlib.Algebra.Order.Archimedean.Basic
import Mathlib.Algebra.Order.Field.Power
import Mathlib.Algebra.Order.Field.Rat
import Mathlib.Tactic.FieldSimp
import Mathlib.Tactic.Linarith
import Mathlib.Tactic.NormNum
import Mathlib.Tactic.Positivity
import Mathlib.Tactic.Ring
import LogicGraph.Number.Binary64

set_option relaxedAutoImplicit false
set_option autoImplicit false

/-!
# The double nearest to a fraction

A fraction is rounded at the exponent at which its leading bit is the 53rd of the mantissa. This
module says what that means for the value of the fraction: the double depends on nothing else, it is
in normal form, and a fraction that is close enough to a double is rounded to it.

## Main definitions

* `LogicGraph.Binary64.IsNormal` — a mantissa and an exponent in normal form.
* `LogicGraph.Binary64.IsCanonical` — the doubles that numbers are rounded to.

## Main results

* `LogicGraph.Binary64.ofRatio_congr` — the double nearest to a fraction depends on its value alone.
* `LogicGraph.Binary64.ofRatio_eq_of_near` — a fraction close to a double is rounded to it.
* `LogicGraph.Binary64.isCanonical_ofDecimal` — a decimal is rounded to a double in normal form.
* `LogicGraph.Binary64.ofDecimal_mul_pow` — zeros at the end of a decimal do not change its double.
-/

namespace LogicGraph.Binary64

/-! ## Fractions -/

/-- The fraction of two natural numbers. -/
abbrev fraction (s : Nat × Nat) : ℚ :=
  s.1 / s.2

/-- A power with a natural exponent is that power among the rationals. -/
lemma natCast_pow_toNat (b : Nat) {e : Int} (he : 0 ≤ e) :
    ((Nat.pow b e.toNat : Nat) : ℚ) = (b : ℚ) ^ e := by
  rw [Nat.pow_eq, Nat.cast_pow, ← zpow_natCast, Int.toNat_of_nonneg he]

/-- A number times a power with any exponent is a fraction. -/
lemma fraction_mul_zpow (b m : Nat) (e : Int) :
    fraction (if e < 0 then (m, Nat.pow b (-e).toNat) else (m * Nat.pow b e.toNat, 1)) =
      m * (b : ℚ) ^ e := by
  unfold fraction
  split_ifs with he
  · rw [natCast_pow_toNat b (by omega), zpow_neg, div_inv_eq_mul]
  · rw [Nat.cast_mul, natCast_pow_toNat b (by omega), Nat.cast_one, div_one]

/-- What a fraction is after it has been divided by a power. -/
lemma fraction_div_zpow (b n d : Nat) (e : Int) :
    fraction (if e < 0 then (n * Nat.pow b (-e).toNat, d) else (n, d * Nat.pow b e.toNat)) =
      n / d / (b : ℚ) ^ e := by
  unfold fraction
  split_ifs with he
  · rw [Nat.cast_mul, natCast_pow_toNat b (by omega), zpow_neg, mul_div_right_comm,
      ← div_eq_mul_inv]
  · rw [Nat.cast_mul, natCast_pow_toNat b (by omega), div_div]

/-- Scaling divides a fraction by a power of two. -/
lemma fraction_scaleRatio (n d : Nat) (e : Int) : fraction (scaleRatio n d e) = n / d / 2 ^ e :=
  fraction_div_zpow 2 n d e

/-- Scaling keeps the denominator positive. -/
lemma scaleRatio_snd_pos {d : Nat} (hd : 0 < d) (n : Nat) (e : Int) : 0 < (scaleRatio n d e).2 := by
  unfold scaleRatio
  split_ifs
  · exact hd
  · exact Nat.mul_pos hd (Nat.two_pow_pos _)

/-! ## Rounding to integers -/

/-- A quotient rounded to the nearest is at most half a unit away. -/
lemma abs_fraction_sub_roundDiv_le {n d : Nat} (hd : 0 < d) :
    |(n / d : ℚ) - roundDiv n d| ≤ 1 / 2 := by
  obtain ⟨hle, hge⟩ := roundDiv_bounds n d hd
  have hd' : (0 : ℚ) < d := by exact_mod_cast hd
  have hle' : (2 : ℚ) * n ≤ 2 * (roundDiv n d * d) + d := by exact_mod_cast hle
  have hge' : (2 : ℚ) * (roundDiv n d * d) ≤ 2 * n + d := by exact_mod_cast hge
  rw [abs_le, ← mul_le_mul_iff_left₀ hd', ← mul_le_mul_iff_left₀ (c := 1 / 2) hd', sub_mul,
    div_mul_cancel₀ _ hd'.ne']
  constructor <;> linarith

/-- A quotient that is less than half a unit away from an integer is rounded to it. -/
lemma roundDiv_eq_of_abs_lt {n d m : Nat} (hd : 0 < d) (h : |(n / d : ℚ) - m| < 1 / 2) :
    roundDiv n d = m := by
  have hnear := abs_fraction_sub_roundDiv_le (n := n) hd
  have habs : |(roundDiv n d : ℚ) - m| < 1 := by
    rw [abs_lt] at h ⊢
    rw [abs_le] at hnear
    constructor <;> linarith [h.1, h.2, hnear.1, hnear.2]
  have hint : |(roundDiv n d : Int) - m| < 1 := by exact_mod_cast habs
  rw [Int.abs_lt_one_iff] at hint
  omega

/-- Rounding does not depend on how a fraction is expanded. -/
lemma roundDiv_mul_right {k : Nat} (hk : 0 < k) (n d : Nat) :
    roundDiv (n * k) (d * k) = roundDiv n d := by
  unfold roundDiv
  simp only [Nat.mul_div_mul_right _ _ hk, Nat.mul_mod_mul_right, ← Nat.mul_assoc,
    Nat.mul_lt_mul_right hk]

/-- How a quotient is rounded depends on its value alone. -/
lemma roundDiv_congr {n d n' d' : Nat} (hd : 0 < d) (hd' : 0 < d') (h : (n / d : ℚ) = n' / d') :
    roundDiv n d = roundDiv n' d' := by
  have hcross : n * d' = n' * d := by
    rw [div_eq_div_iff (by exact_mod_cast hd.ne') (by exact_mod_cast hd'.ne')] at h
    exact_mod_cast h
  rw [← roundDiv_mul_right hd' n d, hcross, Nat.mul_comm d d', roundDiv_mul_right hd]

/-! ## Exponents -/

/-- A power of two that a number has reached is below every power that it has not reached. -/
lemma lt_of_two_zpow_le_of_lt {j k : Int} {v : ℚ} (hj : 2 ^ j ≤ v) (hk : v < 2 ^ k) : j < k :=
  (zpow_lt_zpow_iff_right₀ one_lt_two).mp (lt_of_le_of_lt hj hk)

/-- A number is not below the power of two of its logarithm. -/
lemma two_zpow_log2_le {n : Nat} (hn : n ≠ 0) : (2 : ℚ) ^ (n.log2 : Int) ≤ n := by
  rw [zpow_natCast]
  exact_mod_cast Nat.log2_self_le hn

/-- A number is below the next power of two. -/
lemma lt_two_zpow_log2 (n : Nat) : (n : ℚ) < 2 ^ ((n.log2 : Int) + 1) := by
  have hlt : n < 2 ^ (n.log2 + 1) := Nat.lt_log2_self
  rw [← Int.natCast_succ, zpow_natCast]
  exact_mod_cast hlt

/-- Powers of two multiply. -/
lemma two_zpow_natCast_add (k : Nat) (e : Int) : (2 : ℚ) ^ (k + e) = 2 ^ k * 2 ^ e := by
  rw [zpow_add₀ two_ne_zero, zpow_natCast]

/-- The lengths of two numbers tell the leading bit of their quotient up to one place. -/
lemma log2_sub_log2_bounds {n d : Nat} (hn : n ≠ 0) (hd : d ≠ 0) :
    (2 : ℚ) ^ ((n.log2 : Int) - d.log2 - 1) ≤ n / d ∧
    (n / d : ℚ) < 2 ^ ((n.log2 : Int) - d.log2 + 1) := by
  have hd' : (0 : ℚ) < d := by exact_mod_cast Nat.pos_of_ne_zero hd
  constructor
  · rw [le_div_iff₀ hd']
    calc (2 : ℚ) ^ ((n.log2 : Int) - d.log2 - 1) * d
        ≤ 2 ^ ((n.log2 : Int) - d.log2 - 1) * 2 ^ ((d.log2 : Int) + 1) := by
          gcongr
          exact (lt_two_zpow_log2 d).le
      _ = 2 ^ (n.log2 : Int) := by
        rw [← zpow_add₀ two_ne_zero]
        congr 1
        ring
      _ ≤ n := two_zpow_log2_le hn
  · rw [div_lt_iff₀ hd']
    calc (n : ℚ) < 2 ^ ((n.log2 : Int) + 1) := lt_two_zpow_log2 n
      _ = 2 ^ ((n.log2 : Int) - d.log2 + 1) * 2 ^ (d.log2 : Int) := by
        rw [← zpow_add₀ two_ne_zero]
        congr 1
        ring
      _ ≤ 2 ^ ((n.log2 : Int) - d.log2 + 1) * d := by
        gcongr
        exact two_zpow_log2_le hd

/-- Whether a fraction has fewer than 53 bits in units of a power of two. -/
lemma scaleRatio_lt_iff {d : Nat} (hd : 0 < d) (n : Nat) (e : Int) :
    (scaleRatio n d e).1 < (scaleRatio n d e).2 * Nat.pow 2 52 ↔
      (n / d : ℚ) < 2 ^ ((52 : Nat) + e) := by
  have hpos := scaleRatio_snd_pos hd n e
  have hvalue := fraction_scaleRatio n d e
  generalize scaleRatio n d e = s at hpos hvalue
  have hpos' : (0 : ℚ) < s.2 := by exact_mod_cast hpos
  rw [eq_div_iff (by positivity)] at hvalue
  rw [← hvalue, two_zpow_natCast_add, mul_lt_mul_iff_of_pos_right (by positivity), fraction,
    div_lt_iff₀ hpos', Nat.pow_eq]
  rw [← Nat.cast_lt (α := ℚ), Nat.cast_mul, mul_comm (s.2 : ℚ)]
  norm_num

/-- A fraction is rounded at the exponent at which its leading bit is the 53rd of the mantissa, or
at the least exponent. -/
lemma ratioExponent_eq {n d : Nat} (hn : n ≠ 0) (hd : d ≠ 0) {k : Int} (hle : 2 ^ k ≤ (n / d : ℚ))
    (hlt : (n / d : ℚ) < 2 ^ (k + 1)) : ratioExponent n d = max minExponent (k - 52) := by
  obtain ⟨hlower, hupper⟩ := log2_sub_log2_bounds hn hd
  have hk₁ := lt_of_two_zpow_le_of_lt hle hupper
  have hk₂ := lt_of_two_zpow_le_of_lt hlower hlt
  -- One comparison decides between the two places that are left.
  unfold ratioExponent
  simp only [scaleRatio_lt_iff (Nat.pos_of_ne_zero hd)]
  split_ifs with h
  · have := lt_of_two_zpow_le_of_lt hle h
    congr 1
    omega
  · have := lt_of_two_zpow_le_of_lt (not_lt.mp h) hlt
    congr 1
    omega

/-- The double nearest to a fraction depends on the value of the fraction alone. -/
lemma ofRatio_congr (negative : Bool) {n d n' d' : Nat} (hd : 0 < d) (hd' : 0 < d')
    (h : (n / d : ℚ) = n' / d') :
    ofRatio negative n d = ofRatio negative n' d' := by
  have hdq : (0 : ℚ) < d := by exact_mod_cast hd
  have hdq' : (0 : ℚ) < d' := by exact_mod_cast hd'
  by_cases hn : n = 0
  · have hn' : n' = 0 := by
      rw [hn, Nat.cast_zero, zero_div, eq_comm, div_eq_zero_iff] at h
      rcases h with h | h
      · exact_mod_cast h
      · exact absurd h hdq'.ne'
    rw [hn, hn', ofRatio_zero, ofRatio_zero]
  · have hn0 : (0 : ℚ) < n := by exact_mod_cast Nat.pos_of_ne_zero hn
    have hn' : n' ≠ 0 := by
      rintro rfl
      rw [Nat.cast_zero, zero_div] at h
      exact absurd h (div_pos hn0 hdq).ne'
    obtain ⟨k, hle, hlt⟩ := exists_mem_Ico_zpow (div_pos hn0 hdq) (one_lt_two (α := ℚ))
    have hexponent : ratioExponent n d = ratioExponent n' d' := by
      rw [ratioExponent_eq hn hd.ne' hle hlt]
      rw [h] at hle hlt
      rw [ratioExponent_eq hn' hd'.ne' hle hlt]
    have hvalue : fraction (scaleRatio n d (ratioExponent n d)) =
        fraction (scaleRatio n' d' (ratioExponent n d)) := by
      rw [fraction_scaleRatio, fraction_scaleRatio, h]
    rw [ofRatio, ofRatio, if_neg hn, if_neg hn']
    simp only
    rw [← hexponent,
      roundDiv_congr (scaleRatio_snd_pos hd n _) (scaleRatio_snd_pos hd' n' _) hvalue]

/-! ## Normal forms -/

/-- A mantissa and an exponent in normal form: the mantissa has 53 bits, or fewer when the exponent
is the least one. -/
structure IsNormal (m : Nat) (e : Int) : Prop where
  /-- The mantissa is not zero. -/
  pos : 0 < m
  /-- The mantissa has at most 53 bits. -/
  lt : m < 2 ^ 53
  /-- The exponent is not too small. -/
  min_le : minExponent ≤ e
  /-- The exponent is not too great. -/
  le_max : e ≤ maxExponent
  /-- The leading bit is the 53rd one, unless the exponent is the least one. -/
  leading : 2 ^ 52 ≤ m ∨ e = minExponent

/-- A rounded mantissa of 54 bits is carried to the next exponent. -/
lemma ofRounded_carry (negative : Bool) (e : Int) :
    ofRounded negative (2 ^ 53) e =
      if maxExponent < e + 1 then .infinite negative else .finite negative (2 ^ 52) (e + 1) := by
  have hpos : (2 : Nat) ^ 52 ≠ 0 := pow_ne_zero 52 two_ne_zero
  simp only [ofRounded, Nat.pow_eq, if_true, gt_iff_lt, hpos, if_false]

/-- A rounded mantissa of at most 53 bits is kept. -/
lemma ofRounded_of_lt (negative : Bool) {m : Nat} (hm : m < 2 ^ 53) (e : Int) :
    ofRounded negative m e =
      if maxExponent < e then .infinite negative
      else if m = 0 then zero negative else .finite negative m e := by
  simp only [ofRounded, Nat.pow_eq, hm.ne, if_false, gt_iff_lt]

/-- A rounded mantissa in normal form is not changed any more. -/
lemma ofRounded_of_isNormal (negative : Bool) {m : Nat} {e : Int} (h : IsNormal m e) :
    ofRounded negative m e = .finite negative m e := by
  rw [ofRounded_of_lt negative h.lt, if_neg (not_lt.mpr h.le_max), if_neg h.pos.ne']

/-- A fraction that is close to a multiple of the unit at which it is rounded. -/
lemma ofRatio_eq_ofRounded (negative : Bool) {n d m : Nat} {e : Int} (hn : n ≠ 0) (hd : 0 < d)
    (he : ratioExponent n d = e) (hnear : |(n / d / 2 ^ e : ℚ) - m| < 1 / 2) :
    ofRatio negative n d = ofRounded negative m e := by
  rw [← fraction_scaleRatio] at hnear
  rw [ofRatio, if_neg hn]
  simp only [he, roundDiv_eq_of_abs_lt (scaleRatio_snd_pos hd n e) hnear]

/-- The exponent at which a fraction is rounded, if its leading bit is known in units of a power of
two. -/
lemma ratioExponent_of_units {n d : Nat} (hn : n ≠ 0) (hd : 0 < d) {u : ℚ} {e : Int}
    (hu : (n / d : ℚ) = u * 2 ^ e) {k : Nat} (hle : 2 ^ k ≤ u) (hlt : u < 2 ^ (k + 1)) :
    ratioExponent n d = max minExponent (k + e - 52) := by
  have hunit : (0 : ℚ) < 2 ^ e := by positivity
  refine ratioExponent_eq hn hd.ne' ?_ ?_
  · rw [hu, two_zpow_natCast_add]
    exact mul_le_mul_of_nonneg_right hle hunit.le
  · rw [hu, show (k : Int) + e + 1 = (k + 1 : Nat) + e by push_cast; ring, two_zpow_natCast_add]
    exact mul_lt_mul_of_pos_right hlt hunit

/-- A fraction with fewer than 53 bits in the least units is rounded in these. -/
lemma ratioExponent_eq_minExponent {n d : Nat} (hn : n ≠ 0) (hd : 0 < d)
    (h : (n / d : ℚ) < 2 ^ ((52 : Nat) + minExponent)) :
    ratioExponent n d = minExponent := by
  have hpos : (0 : ℚ) < n / d := by
    have hn' : (0 : ℚ) < n := by exact_mod_cast Nat.pos_of_ne_zero hn
    have hd' : (0 : ℚ) < d := by exact_mod_cast hd
    positivity
  obtain ⟨k, hle, hlt⟩ := exists_mem_Ico_zpow hpos (one_lt_two (α := ℚ))
  have := lt_of_two_zpow_le_of_lt hle h
  rw [ratioExponent_eq hn hd.ne' hle hlt]
  omega

/-- **A fraction close to a double is rounded to it.** Below the least mantissa with 53 bits the
doubles are twice as close to each other, so the bound is a quarter of a unit there and more than
that elsewhere.

**Proof sketch.** Let `u` be the fraction in units of the double. If `u` has 53 bits, or if there is
no smaller unit, it is rounded in these units, to the mantissa. Otherwise the mantissa is `2 ^ 52`
and `u` lies below it; then it is rounded in units half as large, up to `2 ^ 53`, and that is
carried. -/
lemma ofRatio_eq_of_near (negative : Bool) {n d m : Nat} {e : Int} (hx : IsNormal m e) (hd : 0 < d)
    (hnear : |(n / d / 2 ^ e : ℚ) - m| < m / 2 ^ 54) :
    ofRatio negative n d = .finite negative m e := by
  have hunit : (0 : ℚ) < 2 ^ e := by positivity
  have hm53 : (m : ℚ) + 1 ≤ 2 ^ 53 := by exact_mod_cast hx.lt
  have hm1 : (1 : ℚ) ≤ m := by exact_mod_cast hx.pos
  have hmin := hx.min_le
  obtain ⟨u, hu⟩ : ∃ u : ℚ, (n / d : ℚ) / 2 ^ e = u := ⟨_, rfl⟩
  have hvalue : (n / d : ℚ) = u * 2 ^ e := by rw [← hu, div_mul_cancel₀ _ hunit.ne']
  rw [hu] at hnear
  obtain ⟨hlow, hhigh⟩ := abs_lt.mp hnear
  have hhalf : |u - m| < 1 / 2 := by
    refine lt_of_lt_of_le hnear ?_
    rw [div_le_div_iff₀ (by positivity) two_pos]
    linarith
  obtain ⟨hlow', hhigh'⟩ := abs_lt.mp hhalf
  have hn : n ≠ 0 := by
    rintro rfl
    have : u = 0 := by rw [← hu]; simp
    linarith
  by_cases hcase : 2 ^ 52 ≤ u ∨ e = minExponent
  · have hexponent : ratioExponent n d = e := by
      by_cases h52 : 2 ^ 52 ≤ u
      · rw [ratioExponent_of_units hn hd hvalue h52 (show u < 2 ^ 53 by linarith)]
        omega
      · obtain rfl := hcase.resolve_left h52
        refine ratioExponent_eq_minExponent hn hd ?_
        rw [hvalue, two_zpow_natCast_add]
        exact mul_lt_mul_of_pos_right (not_le.mp h52) hunit
    rw [ofRatio_eq_ofRounded negative hn hd hexponent (by rw [hu]; exact hhalf),
      ofRounded_of_isNormal negative hx]
  · rw [not_or, not_le] at hcase
    obtain ⟨hu52, he⟩ := hcase
    have hm : m = 2 ^ 52 := by
      have hge := hx.leading.resolve_right he
      have hlt : (m : ℚ) < 2 ^ 52 + 1 := by linarith
      have hlt' : m < 2 ^ 52 + 1 := by exact_mod_cast hlt
      omega
    subst hm
    push_cast at hlow hlow'
    have hexponent : ratioExponent n d = e - 1 := by
      rw [ratioExponent_of_units hn hd hvalue (k := 51) (by linarith) hu52]
      omega
    have hcarried : |(n / d / 2 ^ (e - 1) : ℚ) - (2 ^ 53 : Nat)| < 1 / 2 := by
      have hdouble : (n / d / 2 ^ (e - 1) : ℚ) = 2 * u := by
        rw [← hu, zpow_sub_one₀ two_ne_zero]
        field_simp
      rw [hdouble, abs_lt]
      push_cast
      constructor <;> linarith
    rw [ofRatio_eq_ofRounded negative hn hd hexponent hcarried, ofRounded_carry, sub_add_cancel,
      if_neg (not_lt.mpr hx.le_max)]

/-- The mantissa to which a fraction is rounded has at most 53 bits, or is the least one with more;
it has no fewer unless the exponent is the least one. -/
lemma roundDiv_scaleRatio_bounds {n d : Nat} (hn : n ≠ 0) (hd : 0 < d) {e : Int}
    (he : ratioExponent n d = e) :
    minExponent ≤ e ∧ roundDiv (scaleRatio n d e).1 (scaleRatio n d e).2 ≤ 2 ^ 53 ∧
      (2 ^ 52 ≤ roundDiv (scaleRatio n d e).1 (scaleRatio n d e).2 ∨ e = minExponent) := by
  have hnq : (0 : ℚ) < n := by exact_mod_cast Nat.pos_of_ne_zero hn
  have hdq : (0 : ℚ) < d := by exact_mod_cast hd
  have hunit : (0 : ℚ) < 2 ^ e := by positivity
  obtain ⟨k, hle, hlt⟩ := exists_mem_Ico_zpow (div_pos hnq hdq) (one_lt_two (α := ℚ))
  rw [ratioExponent_eq hn hd.ne' hle hlt] at he
  have hnear := abs_fraction_sub_roundDiv_le (n := (scaleRatio n d e).1) (scaleRatio_snd_pos hd n e)
  rw [show ((scaleRatio n d e).1 / (scaleRatio n d e).2 : ℚ) = n / d / 2 ^ e
    from fraction_scaleRatio n d e, abs_le] at hnear
  generalize roundDiv (scaleRatio n d e).1 (scaleRatio n d e).2 = r at hnear ⊢
  refine ⟨by omega, ?_, ?_⟩
  · have hupper : (n / d / 2 ^ e : ℚ) < 2 ^ 53 := by
      rw [div_lt_iff₀ hunit, ← two_zpow_natCast_add]
      exact lt_of_lt_of_le hlt (zpow_le_zpow_right₀ one_le_two (by omega))
    have hr : (r : ℚ) < 2 ^ 53 + 1 := by linarith
    have hr' : r < 2 ^ 53 + 1 := by exact_mod_cast hr
    omega
  · by_cases hmin : e = minExponent
    · exact .inr hmin
    · left
      have hlower : (2 : ℚ) ^ 52 ≤ n / d / 2 ^ e := by
        rw [le_div_iff₀ hunit, ← two_zpow_natCast_add]
        exact le_trans (zpow_le_zpow_right₀ one_le_two (by omega)) hle
      have hr : (2 : ℚ) ^ 52 < r + 1 := by linarith
      have hr' : 2 ^ 52 < r + 1 := by exact_mod_cast hr
      omega

/-- The zeros have the least exponent, and every other double is in normal form. -/
def IsCanonical : Binary64 → Prop
  | .finite _ m e => m = 0 ∧ e = minExponent ∨ IsNormal m e
  | _ => True

/-- **The double nearest to a fraction is in normal form.** -/
lemma isCanonical_ofRatio (negative : Bool) {d : Nat} (hd : 0 < d) (n : Nat) :
    IsCanonical (ofRatio negative n d) := by
  by_cases hn : n = 0
  · rw [hn, ofRatio_zero]
    exact .inl ⟨rfl, rfl⟩
  · obtain ⟨hmin, hupper, hlower⟩ := roundDiv_scaleRatio_bounds hn hd rfl
    rw [ofRatio, if_neg hn]
    simp only
    generalize roundDiv _ _ = r at hupper hlower ⊢
    generalize ratioExponent n d = e at hmin hlower ⊢
    rcases hupper.lt_or_eq with hlt | rfl
    · rw [ofRounded_of_lt negative hlt]
      split_ifs with hmax hzero
      · trivial
      · exact .inl ⟨rfl, rfl⟩
      · exact .inr ⟨Nat.pos_of_ne_zero hzero, hlt, hmin, not_lt.mp hmax, hlower⟩
    · rw [ofRounded_carry]
      split_ifs with hmax
      · trivial
      · exact .inr ⟨pow_pos two_pos 52, pow_lt_pow_right₀ one_lt_two (by decide), by
          omega, not_lt.mp hmax, .inl le_rfl⟩

/-- The double nearest to a decimal is in normal form. -/
lemma isCanonical_ofDecimal (negative : Bool) (digits : Nat) (exponent : Int) :
    IsCanonical (ofDecimal negative digits exponent) := by
  unfold ofDecimal
  simp only
  split_ifs
  · exact .inl ⟨rfl, rfl⟩
  · trivial
  · exact .inl ⟨rfl, rfl⟩
  · exact isCanonical_ofRatio negative (Nat.pow_pos (by decide)) digits
  · exact isCanonical_ofRatio negative Nat.one_pos _

/-! ## Decimals -/

/-- The number of digits of a number that is not zero. -/
lemma digitCount_bounds {n : Nat} (hn : n ≠ 0) :
    0 < digitCount n ∧ 10 ^ (digitCount n - 1) ≤ n ∧ n < 10 ^ digitCount n := by
  have hpos : 0 < digitCount n := List.length_pos_iff.mpr Nat.toDigits_ne_nil
  refine ⟨hpos, ?_, (Nat.length_toDigits_le_iff (by decide) hpos).mp le_rfl⟩
  by_contra hlt
  rcases Nat.eq_zero_or_pos (digitCount n - 1) with h | h
  · rw [h] at hlt
    omega
  · have hle : digitCount n ≤ digitCount n - 1 :=
      (Nat.length_toDigits_le_iff (by decide) h).mpr (not_le.mp hlt)
    omega

/-- Numbers with equal bounds have equally many digits. -/
lemma digitCount_eq {n k : Nat} (hle : 10 ^ k ≤ n) (hlt : n < 10 ^ (k + 1)) :
    digitCount n = k + 1 := by
  have hn : n ≠ 0 := (lt_of_lt_of_le (pow_pos (by decide) k) hle).ne'
  obtain ⟨hpos, hlower, hupper⟩ := digitCount_bounds hn
  have h₁ : k < digitCount n :=
    (Nat.pow_lt_pow_iff_right (by decide)).mp (lt_of_le_of_lt hle hupper)
  have h₂ : digitCount n - 1 < k + 1 :=
    (Nat.pow_lt_pow_iff_right (by decide)).mp (lt_of_le_of_lt hlower hlt)
  omega

/-- Every decimal is a fraction. -/
lemma exists_fraction_eq (digits : Nat) (exponent : Int) :
    ∃ n d : Nat, 0 < d ∧ (n / d : ℚ) = digits * 10 ^ exponent := by
  refine ⟨_, _, ?_, fraction_mul_zpow 10 digits exponent⟩
  split_ifs
  · exact pow_pos (by decide) _
  · exact Nat.one_pos

/-- The double nearest to a decimal that is not far beyond the range of doubles. -/
lemma ofDecimal_eq_ofRatio (negative : Bool) {digits n d : Nat} {exponent : Int}
    (hdigits : digits ≠ 0) (hle : digitCount digits + exponent ≤ 310)
    (hge : -330 ≤ digitCount digits + exponent) (hd : 0 < d)
    (h : (n / d : ℚ) = digits * 10 ^ exponent) :
    ofDecimal negative digits exponent = ofRatio negative n d := by
  have hrange : ¬ (digitCount digits : Int) + exponent > 310 ∧
      ¬ (digitCount digits : Int) + exponent < -330 := by omega
  simp only [ofDecimal, hdigits, hrange.1, hrange.2, if_false]
  have hvalue := fraction_mul_zpow 10 digits exponent
  split_ifs at hvalue ⊢ with he
  · exact ofRatio_congr negative (pow_pos (by decide) _) hd (hvalue.trans h.symm)
  · exact ofRatio_congr negative Nat.one_pos hd (hvalue.trans h.symm)

/-- Zeros at the end of a decimal do not change the double nearest to it. -/
lemma ofDecimal_mul_pow (negative : Bool) (digits : Nat) (exponent : Int) (k : Nat) :
    ofDecimal negative (digits * 10 ^ k) (exponent - k) = ofDecimal negative digits exponent := by
  by_cases hdigits : digits = 0
  · simp [ofDecimal, hdigits]
  have hpow : 0 < 10 ^ k := pow_pos (by decide) k
  have hdigits' : digits * 10 ^ k ≠ 0 := mul_ne_zero hdigits hpow.ne'
  have hcount : digitCount (digits * 10 ^ k) = digitCount digits + k := by
    obtain ⟨hpos, hlower, hupper⟩ := digitCount_bounds hdigits
    rw [digitCount_eq (k := digitCount digits - 1 + k)]
    · omega
    · rw [pow_add]
      exact Nat.mul_le_mul_right _ hlower
    · rw [show digitCount digits - 1 + k + 1 = digitCount digits + k by omega, pow_add]
      exact Nat.mul_lt_mul_of_pos_right hupper hpow
  have hmagnitude : (digitCount (digits * 10 ^ k) : Int) + (exponent - k) =
      digitCount digits + exponent := by
    rw [hcount]
    push_cast
    ring
  by_cases hle : (digitCount digits : Int) + exponent ≤ 310
  · by_cases hge : -330 ≤ (digitCount digits : Int) + exponent
    · obtain ⟨n, d, hd, h⟩ := exists_fraction_eq digits exponent
      rw [ofDecimal_eq_ofRatio negative hdigits hle hge hd h]
      refine ofDecimal_eq_ofRatio negative hdigits' (hmagnitude ▸ hle) (hmagnitude ▸ hge) hd ?_
      rw [h, Nat.cast_mul, Nat.cast_pow, Nat.cast_ofNat, zpow_sub₀ (by norm_num), zpow_natCast]
      field_simp
    · have hlow : ¬ (digitCount digits : Int) + exponent > 310 ∧
          (digitCount digits : Int) + exponent < -330 := by omega
      simp only [ofDecimal, hmagnitude, hdigits, hdigits', hlow, if_false, if_true]
  · simp only [ofDecimal, hmagnitude, hdigits, hdigits', gt_iff_lt, not_le.mp hle, if_false,
      if_true]

/-- A number with another sign. -/
def withSign (negative : Bool) : Binary64 → Binary64
  | .nan => .nan
  | .infinite _ => .infinite negative
  | .finite _ m e => .finite negative m e

/-- The sign of a rounded number can be put on afterwards. -/
lemma withSign_ofRounded (negative : Bool) (m : Nat) (e : Int) :
    (ofRounded false m e).withSign negative = ofRounded negative m e := by
  unfold ofRounded
  generalize (if m = Nat.pow 2 53 then (Nat.pow 2 52, e + 1) else (m, e)) = p
  simp only
  split_ifs <;> rfl

/-- The sign of a fraction can be put on afterwards. -/
lemma withSign_ofRatio (negative : Bool) (n d : Nat) :
    (ofRatio false n d).withSign negative = ofRatio negative n d := by
  unfold ofRatio
  split_ifs
  · rfl
  · exact withSign_ofRounded negative _ _

/-- The sign of a decimal only becomes the sign of the double nearest to it. -/
lemma withSign_ofDecimal (negative : Bool) (digits : Nat) (exponent : Int) :
    (ofDecimal false digits exponent).withSign negative = ofDecimal negative digits exponent := by
  unfold ofDecimal
  simp only
  split_ifs
  · rfl
  · rfl
  · rfl
  · exact withSign_ofRatio negative _ _
  · exact withSign_ofRatio negative _ _

end LogicGraph.Binary64
