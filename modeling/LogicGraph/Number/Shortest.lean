import LogicGraph.Number.Binary64

/-!
# The shortest decimal of a double

A finite double is written with the fewest decimal digits that read back as the same double. Of
several decimals with that many digits, the one nearest to the double is taken.

## Main definitions

* `LogicGraph.Decimal` — a natural number of digits times a power of ten.
* `LogicGraph.Decimal.shortest` — the shortest decimal that reads back as `m * 2 ^ e`.
* `LogicGraph.Binary64.text` — the written form of a double.

## Implementation notes

For one digit, two digits and so on up to seventeen, the search looks at the two neighbours of the
double on the grid of decimals with that many digits. If any decimal of the grid reads back, then
one of the two neighbours does, so the first grid with a hit gives the fewest digits. Seventeen
digits always suffice.
-/

namespace LogicGraph

/-- The decimal `digits * 10 ^ exponent`. -/
structure Decimal where
  /-- The digits, as one natural number. -/
  digits : Nat
  /-- The power of ten. -/
  exponent : Int
  deriving DecidableEq, Repr

namespace Decimal

/-- The fraction `m * 2 ^ e`. -/
def ratio (m : Nat) (e : Int) : Nat × Nat :=
  if e < 0 then (m, Nat.pow 2 (-e).toNat) else (m * Nat.pow 2 e.toNat, 1)

/-- The exponent of the leading decimal digit of the positive fraction `n / d`. -/
def leadingExponent (n d : Nat) : Int :=
  if d ≤ n then (Binary64.digitCount (n / d) : Int) - 1
  else
    let j := Binary64.digitCount (d / n) - 1
    if n * Nat.pow 10 j = d then -(j : Int) else -(j : Int) - 1

/-- The fraction `n / d` divided by `10 ^ q`, as a fraction again. -/
def overPower (n d : Nat) (q : Int) : Nat × Nat :=
  if q < 0 then (n * Nat.pow 10 (-q).toNat, d) else (n, d * Nat.pow 10 q.toNat)

/-- The neighbour of `n / d` on the grid of multiples of `10 ^ q` that reads back as `x`, the nearer
one if both do, the even one if both do and are equally near. -/
def neighbour? (x : Binary64) (n d : Nat) (q : Int) : Option Decimal :=
  let s := overPower n d q
  let low := s.1 / s.2
  let lowHits := low ≠ 0 ∧ Binary64.ofDecimal false low q = x
  let highHits := Binary64.ofDecimal false (low + 1) q = x
  if lowHits ∧ highHits then some ⟨Binary64.roundDiv s.1 s.2, q⟩
  else if lowHits then some ⟨low, q⟩
  else if highHits then some ⟨low + 1, q⟩
  else none

/-- The first hit on the grids of `precision`, `precision + 1`, … digits; the value rounded to the
last grid when `fuel` grids bring none. -/
def search (x : Binary64) (n d : Nat) (lead : Int) : Nat → Nat → Decimal
  | 0, precision =>
    let s := overPower n d (lead - precision + 1)
    ⟨Binary64.roundDiv s.1 s.2, lead - precision + 1⟩
  | fuel + 1, precision =>
    match neighbour? x n d (lead - precision + 1) with
    | some hit => hit
    | none => search x n d lead fuel (precision + 1)

/-- The decimal without the zeros at its end; `fuel` bounds how many are taken off. -/
def stripZeros : Nat → Decimal → Decimal
  | 0, t => t
  | fuel + 1, t =>
    if t.digits % 10 = 0 then stripZeros fuel ⟨t.digits / 10, t.exponent + 1⟩ else t

/-- The shortest decimal that reads back as the positive double `m * 2 ^ e`. -/
def shortest (m : Nat) (e : Int) : Decimal :=
  let r := ratio m e
  stripZeros 20 (search (.finite false m e) r.1 r.2 (leadingExponent r.1 r.2) 17 1)

/-- The digits of a positive decimal. -/
def digitChars (t : Decimal) : List Char :=
  Nat.toDigits 10 t.digits

/-- A decimal written out in full, with at least one digit on each side of the point. -/
def positional (t : Decimal) : List Char :=
  let ds := t.digitChars
  let point := (ds.length : Int) + t.exponent
  if point ≤ 0 then '0' :: '.' :: (List.replicate (-point).toNat '0' ++ ds)
  else if t.exponent ≥ 0 then ds ++ List.replicate t.exponent.toNat '0' ++ ['.', '0']
  else ds.take point.toNat ++ '.' :: ds.drop point.toNat

/-- The exponent of a decimal in scientific form: a sign and at least two digits. -/
def exponentChars (e : Int) : List Char :=
  let ds := Nat.toDigits 10 e.natAbs
  (if e < 0 then '-' else '+') :: (if ds.length < 2 then '0' :: ds else ds)

/-- A decimal in scientific form, with a point only if more than one digit is there. -/
def scientific (t : Decimal) : List Char :=
  let ds := t.digitChars
  let e := (ds.length : Int) + t.exponent - 1
  match ds with
  | [] => []
  | [d] => d :: 'e' :: exponentChars e
  | d :: rest => d :: '.' :: (rest ++ 'e' :: exponentChars e)

/-- The written form of a positive decimal: in full when its leading digit stands between the fourth
place behind the point and the sixteenth in front of it, in scientific form otherwise. -/
def chars (t : Decimal) : List Char :=
  let lead := (t.digitChars.length : Int) + t.exponent - 1
  if -4 ≤ lead ∧ lead < 16 then t.positional else t.scientific

end Decimal

namespace Binary64

/-- The written form of a double. -/
def text : Binary64 → String
  | .nan => "nan"
  | .infinite negative => if negative then "-inf" else "inf"
  | .finite negative m e =>
    let sign := if negative then "-" else ""
    if m = 0 then sign ++ "0.0" else sign ++ String.ofList (Decimal.shortest m e).chars

end Binary64

end LogicGraph
