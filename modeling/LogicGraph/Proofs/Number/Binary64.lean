import Mathlib.Tactic.Common
import LogicGraph.Number.Binary64

set_option relaxedAutoImplicit false
set_option autoImplicit false

/-!
# The doubles of integers

The double of an integer is its mantissa of 53 bits, rounded, with the exponent that its length asks
for. Only zero has the double zero, and the integers without a double are those that would be
rounded to a power of two beyond the greatest double.

## Main definitions

* `LogicGraph.Binary64.overflow` — the least natural number without a double.
* `LogicGraph.Binary64.exactLimit` — the bound of the natural numbers of at most 53 bits.

## Main results

* `LogicGraph.Binary64.isZero_of_ofInt?` — only zero has the double zero.
* `LogicGraph.Binary64.ofInt?_eq_none_iff` — which integers have no double.
* `LogicGraph.Binary64.equalsInt_ofNat` — a natural number of at most 53 bits is a double.
-/

namespace LogicGraph.Binary64

/-! ## Rounding -/

/-- A quotient of at least one is rounded to at least one. -/
lemma roundDiv_pos {n d : Nat} (hd : 0 < d) (h : d ≤ n) : 0 < roundDiv n d := by
  have hq : 0 < n / d := Nat.div_pos h hd
  unfold roundDiv
  simp only
  split_ifs <;> omega

/-- A quotient below an even number is rounded up to it exactly if it is at most half a unit away: a
tie goes to the even number. -/
lemma roundDiv_eq_iff_of_lt {n d k : Nat} (hlt : n < k * d) (heven : k % 2 = 0) :
    roundDiv n d = k ↔ 2 * (k * d) ≤ 2 * n + d := by
  have hd : 0 < d := Nat.pos_of_ne_zero (by rintro rfl; omega)
  constructor
  · intro h
    have hbound := (roundDiv_bounds n d hd).2
    rwa [h] at hbound
  · intro h
    have hq : n / d < k := (Nat.div_lt_iff_lt_mul hd).mpr hlt
    have hn := Nat.div_add_mod n d
    have hr := Nat.mod_lt n hd
    -- A quotient below `k - 1` would be more than half a unit away.
    have hpred : n / d + 1 = k := by
      by_contra hne
      have hstep : (n / d + 2) * d ≤ k * d := Nat.mul_le_mul_right d (by omega)
      rw [Nat.add_mul, Nat.mul_comm (n / d)] at hstep
      omega
    rw [← hpred, Nat.add_mul, Nat.mul_comm (n / d)] at h
    unfold roundDiv
    simp only
    split_ifs <;> omega

/-! ## Integers -/

/-- An integer is rounded at the exponent at which its leading bit is the 53rd of the mantissa. -/
lemma ratioExponent_one {n : Nat} (hn : n ≠ 0) : ratioExponent n 1 = (n.log2 : Int) - 52 := by
  have hleading : 2 ^ n.log2 ≤ n := Nat.log2_self_le hn
  have hfull : ¬ (scaleRatio n 1 ((n.log2 : Int) - 52)).1 <
      (scaleRatio n 1 ((n.log2 : Int) - 52)).2 * Nat.pow 2 52 := by
    unfold scaleRatio
    rw [Nat.not_lt]
    split_ifs with hneg
    · calc 1 * 2 ^ 52 = 2 ^ n.log2 * 2 ^ (-((n.log2 : Int) - 52)).toNat := by
            rw [Nat.one_mul, ← Nat.pow_add]
            congr 1
            omega
        _ ≤ n * 2 ^ (-((n.log2 : Int) - 52)).toNat := Nat.mul_le_mul_right _ hleading
    · calc 1 * 2 ^ ((n.log2 : Int) - 52).toNat * 2 ^ 52 = 2 ^ n.log2 := by
            rw [Nat.one_mul, ← Nat.pow_add]
            congr 1
            omega
        _ ≤ n := hleading
  unfold ratioExponent
  simp only [show Nat.log2 1 = 0 by decide, Int.ofNat_zero, Int.sub_zero]
  rw [if_neg hfull]
  simp only [minExponent]
  omega

/-- A positive integer is at least one unit of the exponent at which it is rounded. -/
lemma scaleRatio_ratioExponent_le {n : Nat} (hn : n ≠ 0) :
    0 < (scaleRatio n 1 (ratioExponent n 1)).2 ∧
      (scaleRatio n 1 (ratioExponent n 1)).2 ≤ (scaleRatio n 1 (ratioExponent n 1)).1 := by
  rw [ratioExponent_one hn]
  unfold scaleRatio
  split_ifs with hneg
  · exact ⟨Nat.one_pos, Nat.mul_pos (Nat.pos_of_ne_zero hn) (Nat.pow_pos (by decide))⟩
  · have hpow : 2 ^ ((n.log2 : Int) - 52).toNat ≤ n :=
      calc 2 ^ ((n.log2 : Int) - 52).toNat
          ≤ 2 ^ n.log2 := Nat.pow_le_pow_right (by decide) (by omega)
        _ ≤ n := Nat.log2_self_le hn
    have hpos : 0 < 2 ^ ((n.log2 : Int) - 52).toNat := Nat.pow_pos (by decide)
    simpa using And.intro hpos hpow

/-! ## Doubles of integers -/

/-- A rounded mantissa lies beyond the greatest double with its exponent: the exponent is too great,
or it becomes so as the mantissa has got one bit too many. -/
def Overflows (m : Nat) (e : Int) : Prop :=
  maxExponent < e ∨ e = maxExponent ∧ m = Nat.pow 2 53

/-- A rounded number is infinite if it overflows, and finite otherwise, with a mantissa that is zero
only if the number is. -/
lemma ofRounded_cases (negative : Bool) (m : Nat) (e : Int) :
    (Overflows m e ∧ ofRounded negative m e = .infinite negative) ∨
    (¬ Overflows m e ∧ ∃ k f, ofRounded negative m e = .finite negative k f ∧ (m ≠ 0 → k ≠ 0)) := by
  -- The mantissa and the exponent after the carry, if there is one.
  obtain ⟨k, f, hcarry, hover, hzero⟩ : ∃ k f,
      (if m = Nat.pow 2 53 then (Nat.pow 2 52, e + 1) else (m, e)) = (k, f) ∧
      (Overflows m e ↔ maxExponent < f) ∧ (m ≠ 0 → k ≠ 0) := by
    unfold Overflows
    split_ifs with hm
    · exact ⟨_, _, rfl, by omega, fun _ => by decide⟩
    · exact ⟨_, _, rfl, by simp [hm], id⟩
  rw [ofRounded, hcarry, hover]
  show (_ ∧ (if maxExponent < f then _ else if k = 0 then _ else _ : Binary64) = _) ∨ _
  by_cases hf : maxExponent < f
  · exact .inl ⟨hf, if_pos hf⟩
  · refine .inr ⟨hf, k, ?_⟩
    simp only [gt_iff_lt, hf, if_false]
    split_ifs with hk
    · exact ⟨minExponent, by rw [hk]; rfl, hzero⟩
    · exact ⟨f, rfl, hzero⟩

/-- The double nearest to an integer other than zero is not zero. -/
lemma isZero_ofRatio_one {negative : Bool} {n : Nat} (hn : n ≠ 0) :
    (ofRatio negative n 1).isZero = false := by
  obtain ⟨hpos, hle⟩ := scaleRatio_ratioExponent_le hn
  rw [ofRatio, if_neg hn]
  simp only
  rcases ofRounded_cases negative _ (ratioExponent n 1) with ⟨-, hinfinite⟩ | ⟨-, k, f, hfinite, hk⟩
  · rw [hinfinite]
    rfl
  · rw [hfinite]
    simpa [isZero] using hk (Nat.ne_of_gt (roundDiv_pos hpos hle))

/-- The double of an integer other than zero is not zero. -/
lemma isZero_of_ofInt? {i : Int} (hi : i ≠ 0) {x : Binary64} (h : ofInt? i = some x) :
    x.isZero = false := by
  unfold ofInt? at h
  split at h
  · rename_i negative m e heq
    obtain rfl := Option.some.inj h
    rw [← heq]
    exact isZero_ofRatio_one (Int.natAbs_ne_zero.mpr hi)
  · cases h

/-- The only zero among the doubles of natural numbers is the positive one. -/
lemma eq_zero_of_isZero_ofNat {n : Nat} (h : (ofNat n).isZero = true) : ofNat n = zero false := by
  by_cases hn : n = 0
  · rw [hn]
    exact ofRatio_zero false 1
  · rw [ofNat, isZero_ofRatio_one hn] at h
    cases h

/-! ## Integers without a double -/

/-- The least natural number without a double, `2 ^ 1024 - 2 ^ 970`. It lies half a unit above the
greatest double `(2 ^ 53 - 1) * 2 ^ 971` and half a unit below the next power of two, and a tie goes
to the even mantissa, which is that of the power. -/
def overflow : Nat := (Nat.pow 2 54 - 1) * Nat.pow 2 (maxExponent - 1).toNat

/-- The bound of the doubles is positive. -/
lemma overflow_pos : 0 < overflow := by
  have hpos : ∀ e, 0 < (Nat.pow 2 54 - 1) * Nat.pow 2 e :=
    fun e => Nat.mul_pos (by decide) (Nat.two_pow_pos e)
  exact hpos _

/-- A natural number is rounded beyond the greatest double exactly from `overflow` on. -/
lemma overflows_iff {n : Nat} (hn : n ≠ 0) :
    Overflows
      (roundDiv (scaleRatio n 1 (ratioExponent n 1)).1 (scaleRatio n 1 (ratioExponent n 1)).2)
      (ratioExponent n 1) ↔ overflow ≤ n := by
  have hleading : 2 ^ n.log2 ≤ n := Nat.log2_self_le hn
  have hlength : n < 2 ^ (n.log2 + 1) := Nat.lt_log2_self
  -- All powers below are multiples of half a unit of the greatest doubles.
  obtain ⟨e, he, hoverflow⟩ : ∃ e, e = 970 ∧ overflow = (Nat.pow 2 54 - 1) * Nat.pow 2 e :=
    ⟨(maxExponent - 1).toNat, rfl, rfl⟩
  rw [Nat.pow_eq, Nat.pow_eq] at hoverflow
  have hpower : ∀ k, 2 ^ (e + k) = 2 ^ e * 2 ^ k := Nat.pow_add 2 e
  have hpos : 0 < 2 ^ e := Nat.two_pow_pos e
  rw [ratioExponent_one hn, hoverflow, Overflows, maxExponent]
  rcases Nat.lt_trichotomy n.log2 1023 with hshort | hlong | hlonger
  · have hle : 2 ^ (n.log2 + 1) ≤ 2 ^ (e + 53) := Nat.pow_le_pow_right (by decide) (by omega)
    rw [hpower] at hle
    omega
  · have hunit : scaleRatio n 1 ((n.log2 : Int) - 52) = (n, 2 ^ (e + 1)) := by
      rw [hlong, scaleRatio, if_neg (by decide), Nat.one_mul,
        show (((1023 : Nat) : Int) - 52).toNat = e + 1 by omega]
      rfl
    have hlt : n < 2 ^ 53 * 2 ^ (e + 1) := by
      rw [hlong, show 1023 + 1 = e + 54 by omega, hpower] at hlength
      rw [hpower]
      omega
    rw [hunit]
    show _ ∨ _ ∧ roundDiv n (2 ^ (e + 1)) = 2 ^ 53 ↔ _
    rw [roundDiv_eq_iff_of_lt hlt (by decide), hpower]
    omega
  · have hle : 2 ^ (e + 54) ≤ 2 ^ n.log2 := Nat.pow_le_pow_right (by decide) (by omega)
    rw [hpower] at hle
    omega

/-- The double nearest to a natural number is infinite from `overflow` on, and finite below. -/
lemma ofRatio_one_cases (negative : Bool) (n : Nat) :
    (overflow ≤ n ∧ ofRatio negative n 1 = .infinite negative) ∨
    (¬ overflow ≤ n ∧ ∃ k f, ofRatio negative n 1 = .finite negative k f) := by
  by_cases hn : n = 0
  · rw [hn, ofRatio_zero]
    exact .inr ⟨Nat.not_le_of_gt overflow_pos, 0, minExponent, rfl⟩
  · rw [← overflows_iff hn, ofRatio, if_neg hn]
    rcases ofRounded_cases negative _ (ratioExponent n 1) with hinfinite | ⟨hover, k, f, hfinite, -⟩
    · exact .inl hinfinite
    · exact .inr ⟨hover, k, f, hfinite⟩

/-- **Which integers have no double.** -/
lemma ofInt?_eq_none_iff {i : Int} : ofInt? i = none ↔ overflow ≤ i.natAbs := by
  unfold ofInt?
  rcases ofRatio_one_cases (decide (i < 0)) i.natAbs with
    ⟨hover, hinfinite⟩ | ⟨hover, k, f, hfinite⟩
  · rw [hinfinite]
    exact iff_of_true rfl hover
  · rw [hfinite]
    exact iff_of_false (by simp) hover

/-! ## Integers that are doubles -/

/-- A double is only one integer. -/
lemma eq_of_equalsInt {x : Binary64} {i j : Int} (hi : x.equalsInt i = true)
    (hj : x.equalsInt j = true) : i = j := by
  cases x with
  | finite negative m e =>
    simp only [equalsInt] at hi hj
    by_cases he : e < 0
    · rw [if_pos he, beq_iff_eq] at hi hj
      have hpower : (Nat.pow 2 (-e).toNat : Int) ≠ 0 :=
        Int.natCast_ne_zero.mpr (Nat.ne_of_gt (Nat.two_pow_pos _))
      exact Int.eq_of_mul_eq_mul_right hpower (hi.symm.trans hj)
    · rw [if_neg he, beq_iff_eq] at hi hj
      exact hi.symm.trans hj
  | _ => cases hi

/-- The natural numbers of at most 53 bits are those below. -/
def exactLimit : Nat := Nat.pow 2 53

/-- **A natural number of at most 53 bits is a double.** The mantissa is the number itself, with
zeros behind. -/
lemma equalsInt_ofNat {n : Nat} (h : n < exactLimit) : (ofNat n).equalsInt n = true := by
  by_cases hn : n = 0
  · subst hn
    have hzero : ∀ e, (finite false 0 e).equalsInt (0 : Nat) = true := by simp [equalsInt]
    rw [ofNat, ofRatio_zero]
    exact hzero minExponent
  · have hlog : n.log2 < 53 := (Nat.log2_lt hn).mpr h
    obtain ⟨k, hk⟩ : ∃ k : Nat, (n.log2 : Int) - 52 = -k := ⟨52 - n.log2, by omega⟩
    have hlt : n * 2 ^ k < 2 ^ 53 :=
      calc n * 2 ^ k < 2 ^ (n.log2 + 1) * 2 ^ k :=
        Nat.mul_lt_mul_of_pos_right Nat.lt_log2_self (Nat.two_pow_pos k)
        _ = 2 ^ 53 := by
          rw [← Nat.pow_add]
          congr 1
          omega
    have hround : roundDiv (scaleRatio n 1 (-k)).1 (scaleRatio n 1 (-k)).2 = n * 2 ^ k := by
      have hwhole : ∀ m, roundDiv m 1 = m := by simp [roundDiv, Nat.mod_one]
      unfold scaleRatio
      split_ifs with hneg
      · simp [hwhole]
      · obtain rfl : k = 0 := by omega
        simp [hwhole]
    have hpos : n * 2 ^ k ≠ 0 := Nat.mul_ne_zero hn (Nat.ne_of_gt (Nat.two_pow_pos k))
    have hdouble : ofNat n = .finite false (n * 2 ^ k) (-k) := by
      have hcarry : (if n * 2 ^ k = Nat.pow 2 53 then (Nat.pow 2 52, -(k : Int) + 1)
          else (n * 2 ^ k, -(k : Int))) =
          (n * 2 ^ k, -(k : Int)) := if_neg (Nat.ne_of_lt hlt)
      rw [ofNat, ofRatio, if_neg hn, ratioExponent_one hn, hk]
      simp only [hround, ofRounded, hcarry]
      rw [if_neg (by simp only [maxExponent]; omega), if_neg hpos]
    simp only [hdouble, equalsInt, Bool.false_eq_true, if_false]
    split_ifs with hneg
    · simp
    · obtain rfl : k = 0 := by omega
      simp

end LogicGraph.Binary64
