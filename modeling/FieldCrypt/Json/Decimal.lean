import FieldCrypt.Json.Binary64

/-!
# Decimals read as doubles

A decimal is kept as a significand below `2 ^ 64` and a power of ten. It is read in two steps that
both round: the significand to the nearest double, and then that double times, or over, the double
nearest to the power. The result is near the decimal, but for long decimals not always the nearest
double. It is the nearest when the significand is at most `2 ^ 53` and the power at most `10 ^ 22`,
since the first step and the power are exact then.
-/

namespace FieldCrypt

namespace Binary64

/-- The double nearest to a product. -/
def mul? (x y : Binary64) : Option Binary64 :=
  let (up, down) := twoPow (x.exponent + y.exponent)
  ofFraction? (x.negative != y.negative) (x.mantissa * y.mantissa * up) down

/-- The double nearest to a quotient. The divisor is not zero. -/
def div? (x y : Binary64) : Option Binary64 :=
  let (up, down) := twoPow (x.exponent - y.exponent)
  ofFraction? (x.negative != y.negative) (x.mantissa * up) (y.mantissa * down)

/-- The exponent of the greatest power of ten that is in the range of doubles. -/
def greatestTen : Nat := 308

/-- The double nearest to a power of ten. -/
def powerOfTen? (exponent : Nat) : Option Binary64 :=
  if exponent ≤ greatestTen then ofFraction? false (Nat.pow 10 exponent) 1 else none

/-- A double times a power of ten. -/
def timesTen? (x : Binary64) (exponent : Nat) : Option Binary64 :=
  if x.mantissa = 0 then some x else (powerOfTen? exponent).bind x.mul?

/-- A double over a power of ten, divided more than once when the power is out of range. -/
def overTen? (x : Binary64) (exponent : Nat) : Option Binary64 :=
  if x.mantissa = 0 then some x
  else if _inRange : exponent ≤ greatestTen then (powerOfTen? exponent).bind x.div?
  else do
    let x ← x.div? (← powerOfTen? greatestTen)
    x.overTen? (exponent - greatestTen)
termination_by exponent
decreasing_by
  simp only [greatestTen] at *
  omega

end Binary64

/-- The decimal `± significand · 10 ^ exponent`. -/
structure Decimal where
  negative : Bool
  significand : Nat
  exponent : Int
  deriving DecidableEq, Repr

namespace Decimal

/-- Significands are below this bound, `2 ^ 64`. -/
def significandBound : Nat := 0x10000000000000000

/-- Take digits into a significand until the next one does not fit, and give the digits left over. -/
def takeDigits : (significand : Nat) → List Char → Nat × List Char
  | significand, [] => (significand, [])
  | significand, digit :: rest =>
    let longer := significand * 10 + (digit.toNat - 48)
    if longer < significandBound then takeDigits longer rest else (significand, digit :: rest)

/-- The decimal with these digits before and behind the point and this power of ten. Digits before the
point that do not fit count as zeros, those behind it are left out. -/
def ofDigits (negative : Bool) (whole fraction : List Char) (power : Int) : Decimal :=
  let (significand, zeros) := takeDigits 0 whole
  let (significand, dropped) := takeDigits significand fraction
  let places : Int := (fraction.length : Int) - dropped.length
  ⟨negative, significand, power + zeros.length - places⟩

/-- The double that the decimal is read as; none when it would be infinite. -/
def toBinary64? (decimal : Decimal) : Option Binary64 := do
  let x ← Binary64.ofFraction? false decimal.significand 1
  let x ←
    if 0 ≤ decimal.exponent then x.timesTen? decimal.exponent.toNat
    else x.overTen? (-decimal.exponent).toNat
  return { x with negative := decimal.negative }

end Decimal

end FieldCrypt
