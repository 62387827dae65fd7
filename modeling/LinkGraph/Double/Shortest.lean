import LinkGraph.Decimal.Numeral
import LinkGraph.Double.Basic

/-!
# The shortest decimal digits of a double

Of the decimal numbers that round to a double, those with the fewest significant
digits are considered, and of these the one nearest to the double.  For each
count of digits only the two multiples of that decimal step around the double
need to be tried.  All comparisons are made between natural numbers, in quarters
of a unit, so that the ends of the rounding interval are whole.
-/

namespace LinkGraph.Double

/-- A positive decimal number `digits * 10 ^ exponent`. -/
structure Digits where
  digits : Nat
  exponent : Int
  deriving Repr, DecidableEq

/-- Where a double exactly halfway between the two candidates goes. -/
inductive Tie where
  | up
  | even
  deriving Repr, DecidableEq

/-- The reals that round to a finite double of positive magnitude: its magnitude
and the two ends, in quarters of a unit.  The ends belong to the interval when
the significand is even.  Below the least significand of a binade the doubles
lie twice as close. -/
structure RoundingInterval where
  value : Nat
  low : Nat
  high : Nat
  closed : Bool

def roundingInterval (x : Double) : RoundingInterval where
  value := 4 * x.units
  low :=
    (4 * x.significand -
      (if x.significand = leastSignificand ∧ 0 < x.binade then 1 else 2))
        <<< x.binade
  high := (4 * x.significand + 2) <<< x.binade
  closed := x.significand % 2 = 0

def quartersOfOne : Nat := 4 * unitsOfOne

/-- The number of places before the decimal point, zero or negative for a number
below a tenth: `10 ^ (p - 1) ≤ x < 10 ^ p`.  The number is given in quarters of
a unit. -/
def decimalPlace (value : Nat) : Int :=
  if quartersOfOne ≤ value then (Nat.toDigits 10 (value / quartersOfOne)).length
  else
    match (List.range 330).find? fun j => quartersOfOne ≤
      value * Decimal.powerOfTen (j + 1) with
    | some j => -(j : Int)
    | none => -330

/-- The candidate with `count` significant digits that rounds to the double, if
there is one. -/
def candidate?
    (tie : Tie) (interval : RoundingInterval) (place : Int) (count : Nat) :
    Option Digits :=
  let exponent := place - count
  let up := Decimal.powerOfTen (-exponent).toNat
  let step := quartersOfOne * Decimal.powerOfTen exponent.toNat
  let fits (n : Nat) : Bool :=
    if interval.closed then
      interval.low * up ≤ n * step && n * step ≤ interval.high * up
    else interval.low * up < n * step && n * step < interval.high * up
  let below := interval.value * up / step
  let lowerGap := interval.value * up - below * step
  let upperGap := (below + 1) * step - interval.value * up
  let preferBelow :=
    lowerGap < upperGap ||
      (lowerGap == upperGap && tie == Tie.even && below % 2 == 0)
  match fits below && below != 0, fits (below + 1) with
  | true, true => some ⟨if preferBelow then below else below + 1, exponent⟩
  | true, false => some ⟨below, exponent⟩
  | false, true => some ⟨below + 1, exponent⟩
  | false, false => none

/-- The shortest digits of a finite double of positive magnitude; seventeen
always suffice. -/
def shortest (tie : Tie) (x : Double) : Digits :=
  let interval := roundingInterval x
  let place := decimalPlace interval.value
  ((List.range 17).findSome? fun n =>
    candidate? tie interval place (n + 1)).getD
    ⟨interval.value, -1076⟩

end LinkGraph.Double
