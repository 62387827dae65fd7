import LinkGraph.Decimal.Numeral
import LinkGraph.Double.Basic

/-!
# The double nearest to a number

A nonnegative quotient is rounded to the nearest double, a tie to the even
neighbour.  A decimal numeral is such a quotient; one beyond the largest double
has no nearest double.
-/

namespace LinkGraph.Double

/-- The natural number nearest to `num / den`, a tie to the even one. -/
def roundQuotient (num den : Nat) : Nat :=
  let low := num / den
  let twice := 2 * (num % den)
  if twice < den ∨ (twice = den ∧ low % 2 = 0) then low else low + 1

/-- The bit pattern, without sign, nearest to `num / den` units.  A significand
that is rounded up to the next power of two carries into the exponent field, as
it should. -/
def nearestMagnitude (num den : Nat) : Nat :=
  let binade := (num / den).log2 - 52
  binade * leastSignificand + roundQuotient num (den <<< binade)

/-- The double nearest to `num / den`, if that is in range. -/
def ofQuotient? (negative : Bool) (num den : Nat) : Option Double :=
  let magnitude := nearestMagnitude (num * unitsOfOne) den
  if magnitude < infinityBits then
    some (ofMagnitude negative magnitude) else none

/-- The double nearest to `significand * 10 ^ scale`, if that is in range.
Powers of ten far outside the range of doubles are not computed: the first bound
already exceeds the largest double, and the second lies below half the least
one. -/
def ofDecimal?
    (negative : Bool) (significand : Nat) (scale : Int) : Option Double :=
  let place := (Nat.toDigits 10 significand).length + scale
  if significand = 0 ∨ place < -330 then some (ofMagnitude negative 0)
  else if 310 < place then none
  else if 0 ≤ scale then
    ofQuotient? negative (significand * Decimal.powerOfTen scale.toNat) 1
  else ofQuotient? negative significand (Decimal.powerOfTen (-scale).toNat)

def ofNumeral? (x : Decimal.Numeral) : Option Double :=
  ofDecimal? x.negative x.significand x.scale

def ofText? (s : String) : Option Double :=
  (Decimal.Numeral.ofText? s).bind ofNumeral?

/-- The double nearest to an integer, infinite beyond the range. -/
def ofInt (n : Int) : Double :=
  (ofDecimal? (n < 0) n.natAbs 0).getD (ofMagnitude (n < 0) infinityBits)

end LinkGraph.Double
