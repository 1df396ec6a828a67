/-!
# Double-precision numbers

A finite double is kept as a sign, a mantissa and a power of two. Two directions are given, both in
exact integer arithmetic: `ofFraction?` rounds a fraction to the nearest double, and `shortest`
names the fewest decimal digits that round back to the same double.
-/

namespace FieldCrypt

/-- A finite double `± mantissa · 2 ^ exponent`. The mantissa is below `2 ^ 53`, and it is at least
`2 ^ 52` unless the exponent is the least one, `-1074`. -/
structure Binary64 where
  negative : Bool
  mantissa : Nat
  exponent : Int
  deriving DecidableEq, Repr, Inhabited

namespace Binary64

/-- The power of two of the smallest positive double. -/
def leastExponent : Int := -1074

/-- The power of two of the largest doubles. -/
def greatestExponent : Int := 971

/-- Mantissas are below this bound, `2 ^ 53`. -/
def mantissaBound : Nat := 0x20000000000000

/-- The least mantissa of a double with an exponent above the least one, `2 ^ 52`. -/
def leastNormal : Nat := 0x10000000000000

/-- `numerator / denominator` rounded to the nearest integer, a half to the even one. -/
def roundHalfEven (numerator denominator : Nat) : Nat :=
  let quotient := numerator / denominator
  let twice := 2 * (numerator % denominator)
  if twice < denominator then quotient
  else if denominator < twice then quotient + 1
  else quotient + quotient % 2

/-- `2 ^ e` as a fraction, numerator first. -/
def twoPow (e : Int) : Nat × Nat := (Nat.pow 2 e.toNat, Nat.pow 2 (-e).toNat)

/-- `10 ^ e` as a fraction, numerator first. -/
def tenPow (e : Int) : Nat × Nat := (Nat.pow 10 e.toNat, Nat.pow 10 (-e).toNat)

/-- The double nearest to a fraction, a tie going to the even mantissa; none when that would be
infinite. -/
def ofFraction? (negative : Bool) (numerator denominator : Nat) : Option Binary64 :=
  if numerator = 0 then some ⟨negative, 0, leastExponent⟩ else
  let magnitude : Int := (numerator.log2 : Int) - (denominator.log2 : Int)
  let scaled (e : Int) : Nat × Nat :=
    let (up, down) := twoPow e
    (numerator * down, denominator * up)
  let low := max (magnitude - 53) leastExponent
  let e := if (scaled low).1 / (scaled low).2 < mantissaBound then low else low + 1
  let m := roundHalfEven (scaled e).1 (scaled e).2
  let (m, e) := if m = mantissaBound then (leastNormal, e + 1) else (m, e)
  if greatestExponent < e then none else some ⟨negative, m, e⟩

/-- The neighbour of the double on the decimal grid of step `10 ^ k`, if one of the two neighbours
rounds to the double: of two the nearer, a tie to the even digit. The interval of reals that round
to a double is counted in quarters of its last binary place, and it holds its ends when the mantissa
is even. -/
def onGrid? (x : Binary64) (k : Int) : Option Nat :=
  let (twoUp, twoDown) := twoPow (x.exponent - 2)
  let (tenUp, tenDown) := tenPow k
  let unit := twoUp * tenDown
  let step := tenUp * twoDown
  let isClosed := x.mantissa % 2 = 0
  let below := if x.mantissa = leastNormal ∧ leastExponent < x.exponent then 1 else 2
  let low := 4 * x.mantissa - below
  let high := 4 * x.mantissa + 2
  let inside (c : Nat) : Bool :=
    if isClosed then low * unit ≤ c * step ∧ c * step ≤ high * unit
    else low * unit < c * step ∧ c * step < high * unit
  let floor := 4 * x.mantissa * unit / step
  match inside floor, inside (floor + 1) with
  | true, true => some (roundHalfEven (4 * x.mantissa * unit) step)
  | true, false => some floor
  | false, true => some (floor + 1)
  | false, false => none

/-- The fewest decimal digits that round back to the double, with the power of ten of the last one.
Seventeen digits always suffice, and the search starts above the first. -/
def shortest (x : Binary64) : Nat × Int :=
  let top : Int := ((x.mantissa.log2 : Int) + x.exponent) * 30103 / 100000 + 2
  let grids : List Int := (List.range 24).map fun i => top - Int.ofNat i
  (grids.findSome? fun k => (x.onGrid? k).map fun digits => (digits, k)).getD (0, 0)

end Binary64

end FieldCrypt
