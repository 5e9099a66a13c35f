/-!
# Double-precision numbers

The numbers of a graph document are exact integers and double-precision numbers. A finite double is
kept as a sign, a mantissa and a power of two, so that reading and writing decimals is exact
arithmetic on natural numbers. Nothing is ever computed with a double: it is only read, written and
compared.

## Main definitions

* `LogicGraph.Binary64` — the numbers, with one NaN and two infinities.
* `LogicGraph.Binary64.ofRatio` — the double nearest to a fraction, a tie going to the even
  mantissa.
* `LogicGraph.Binary64.ofDecimal` — the double nearest to a decimal.
* `LogicGraph.Binary64.ofInt?` — the double nearest to an integer, if the integer is in range.

## Implementation notes

Finite results are in normal form: the mantissa has 53 bits, or fewer when the exponent is the least
one. Zero has the least exponent. Two finite doubles are then equal as numbers only if they are
equal, the two zeros apart.
-/

namespace LogicGraph

/-- A double-precision number; `finite` stands for `± mantissa * 2 ^ exponent`. -/
inductive Binary64 where
  /-- No number. -/
  | nan
  /-- An infinity. -/
  | infinite (negative : Bool)
  /-- The number `± mantissa * 2 ^ exponent`. -/
  | finite (negative : Bool) (mantissa : Nat) (exponent : Int)
  deriving DecidableEq, Repr

namespace Binary64

/-- The least exponent of a double. -/
def minExponent : Int := -1074

/-- The greatest exponent of a double with a 53-bit mantissa. -/
def maxExponent : Int := 971

/-- The zero of either sign. -/
def zero (negative : Bool) : Binary64 := .finite negative 0 minExponent

/-- Zero stands for any double. -/
instance : Inhabited Binary64 := ⟨zero false⟩

/-- The number one. -/
def one : Binary64 := .finite false (Nat.pow 2 52) (-52)

/-- The quotient of two natural numbers rounded to the nearest, a tie going to the even one. -/
def roundDiv (n d : Nat) : Nat :=
  let q := n / d
  let r := n % d
  if 2 * r < d then q
  else if d < 2 * r then q + 1
  else if q % 2 = 0 then q
  else q + 1

/-- The fraction `n / d` divided by `2 ^ e`, as a fraction again. -/
def scaleRatio (n d : Nat) (e : Int) : Nat × Nat :=
  if e < 0 then (n * Nat.pow 2 (-e).toNat, d) else (n, d * Nat.pow 2 e.toNat)

/-- The exponent at which the fraction `n / d` has a 53-bit mantissa, or the least exponent when
that is greater. -/
def ratioExponent (n d : Nat) : Int :=
  let e := (n.log2 : Int) - (d.log2 : Int) - 52
  let s := scaleRatio n d e
  max minExponent (if s.1 < s.2 * Nat.pow 2 52 then e - 1 else e)

/-- The double `± m * 2 ^ e` for a rounded mantissa, which may have got one bit too many by the
rounding; what lies beyond the greatest double is infinite. -/
def ofRounded (negative : Bool) (m : Nat) (e : Int) : Binary64 :=
  let (m, e) := if m = Nat.pow 2 53 then (Nat.pow 2 52, e + 1) else (m, e)
  if e > maxExponent then .infinite negative
  else if m = 0 then zero negative
  else .finite negative m e

/-- The double nearest to `± n / d` for a positive `d`; a tie goes to the even mantissa, and what
lies beyond the greatest double is infinite. -/
def ofRatio (negative : Bool) (n d : Nat) : Binary64 :=
  if n = 0 then zero negative
  else
    let e := ratioExponent n d
    let s := scaleRatio n d e
    ofRounded negative (roundDiv s.1 s.2) e

/-- The number of decimal digits of a natural number. -/
def digitCount (n : Nat) : Nat :=
  (Nat.toDigits 10 n).length

/-- The double nearest to `± digits * 10 ^ exponent`. Decimals far beyond the range of doubles are
decided by their number of digits alone, so a huge exponent costs nothing. -/
def ofDecimal (negative : Bool) (digits : Nat) (exponent : Int) : Binary64 :=
  let magnitude := (digitCount digits : Int) + exponent
  if digits = 0 then zero negative
  else if magnitude > 310 then .infinite negative
  else if magnitude < -330 then zero negative
  else if exponent < 0 then ofRatio negative digits (Nat.pow 10 (-exponent).toNat)
  else ofRatio negative (digits * Nat.pow 10 exponent.toNat) 1

/-- The double nearest to an integer, or nothing when that is infinite. -/
def ofInt? (n : Int) : Option Binary64 :=
  match ofRatio (decide (n < 0)) n.natAbs 1 with
  | .finite negative m e => some (.finite negative m e)
  | _ => none

/-- The double nearest to a natural number. -/
def ofNat (n : Nat) : Binary64 := ofRatio false n 1

/-- Whether the number is one of the two zeros. -/
def isZero : Binary64 → Bool
  | .finite _ m _ => m == 0
  | _ => false

/-- Whether the number equals an integer. -/
def equalsInt (x : Binary64) (n : Int) : Bool :=
  match x with
  | .finite negative m e =>
    let signed : Int := if negative then -(m : Int) else m
    if e < 0 then signed == n * Nat.pow 2 (-e).toNat else signed * Nat.pow 2 e.toNat == n
  | _ => false

/-- Whether two doubles are the same number; the two zeros are, and a NaN is taken to be itself. -/
def sameAs (x y : Binary64) : Bool :=
  x == y || (x.isZero && y.isZero)

/-- A fraction of zero is zero. -/
theorem ofRatio_zero (negative : Bool) (d : Nat) : ofRatio negative 0 d = zero negative := by
  simp [ofRatio]

/-- A quotient rounded to the nearest is within half a unit of the fraction. -/
theorem roundDiv_bounds (n d : Nat) (h : 0 < d) :
    2 * n ≤ 2 * (roundDiv n d * d) + d ∧ 2 * (roundDiv n d * d) ≤ 2 * n + d := by
  have hn := Nat.div_add_mod n d
  have hr := Nat.mod_lt n h
  rw [Nat.mul_comm] at hn
  unfold roundDiv
  simp only
  split
  · constructor <;> omega
  · split
    · rw [Nat.add_mul]; constructor <;> omega
    · split
      · constructor <;> omega
      · rw [Nat.add_mul]; constructor <;> omega

end Binary64

end LogicGraph
