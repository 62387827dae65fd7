import LinkGraph.Double.Shortest
import LinkGraph.Proofs.Double.Nearest
import Mathlib.Algebra.Order.Field.Rat
import Mathlib.Tactic.NormNum

/-!
# The numbers that round to a double

Every number in the rounding interval of a finite double is rounded to that
double.  The significand of the number is rounded in the binade of the double,
but for one case: a number below the least significand of a binade has its place
in the binade beneath, where it is rounded up to twice the least significand,
which is the same double.
-/

namespace LinkGraph.Double

/-! ## Rounding a quotient to a given number -/

/-- A quotient that is not farther from a number than one half, and nearer if
the number is odd, is rounded to the number. -/
theorem roundQuotient_eq
    {num den r : Nat} (hden : 0 < den) (hlow : 2 * r * den ≤ 2 * num + den)
    (hhigh : 2 * num ≤ (2 * r + 1) * den)
    (hodd : r % 2 = 1 → 2 * r * den < 2 * num + den ∧
      2 * num < (2 * r + 1) * den) :
    roundQuotient num den = r := by
  have hdiv := Nat.div_add_mod' num den
  have hmod := Nat.mod_lt num hden
  have hcases := roundQuotient_cases num den
  generalize num / den = q at hdiv hcases
  have hle : q ≤ r := by
    by_contra hlt
    have hmul : (r + 1) * den ≤ q * den := Nat.mul_le_mul_right den (by omega)
    rw [Nat.add_mul, Nat.one_mul] at hmul
    rw [Nat.add_mul, Nat.one_mul, Nat.mul_assoc] at hhigh
    omega
  have hge : r ≤ q + 1 := by
    by_contra hlt
    have hmul : (q + 2) * den ≤ r * den := Nat.mul_le_mul_right den (by omega)
    rw [Nat.add_mul] at hmul
    rw [Nat.mul_assoc] at hlow
    omega
  rw [Nat.mul_assoc] at hlow hodd
  rw [Nat.add_mul, Nat.one_mul, Nat.mul_assoc] at hhigh hodd
  rcases (show r = q ∨ r = q + 1 by omega) with rfl | rfl
  · rcases hcases with ⟨h, -, -⟩ | ⟨h, hhalf, heven⟩
    · exact h
    · have htie : 2 * (num % den) = den := by omega
      have heven := heven htie
      have hstrict := hodd (by omega)
      omega
  · rw [Nat.add_mul, Nat.one_mul] at hlow hodd
    rcases hcases with ⟨h, hhalf, heven⟩ | ⟨h, -, -⟩
    · have htie : 2 * (num % den) = den := by omega
      have heven := heven htie
      have hstrict := hodd (by omega)
      omega
    · exact h

/-! ## Rounding a quotient to a given magnitude -/

/-- How far below a significand numbers are rounded to it, in quarters of the
spacing.  Below the least significand of a binade the spacing is half of that
above it. -/
def lowerMargin (b s : Nat) : Nat :=
  if s = leastSignificand ∧ 0 < b then 1 else 2

theorem lowerMargin_eq (b s : Nat) :
    (lowerMargin b s = 1 ∧ s = leastSignificand ∧ 0 < b) ∨
      lowerMargin b s = 2 := by
  rw [lowerMargin]
  split
  · next h => exact .inl ⟨rfl, h⟩
  · exact .inr rfl

theorem spacing_le {b b' d : Nat} (h : b' + d ≤ b) (step : Nat) :
    2 ^ d * (step * 2 ^ b') ≤ step * 2 ^ b := by
  calc 2 ^ d * (step * 2 ^ b') = step * 2 ^ (b' + d) := by ring
    _ ≤ step * 2 ^ b :=
    Nat.mul_le_mul_left step (Nat.pow_le_pow_right (by decide) h)

/-- A number around a significand belongs to the binade of the significand, or
to the one beneath if it lies around the least significand. -/
theorem binade_of_between {b b' s num step : Nat} (hstep : 0 < step)
    (hleast : b = 0 ∨ leastSignificand ≤ s) (hbelow : s < 2 * leastSignificand)
    (hlow : (4 * s - lowerMargin b s) * (step * 2 ^ b) ≤ 4 * num)
    (hhigh : 4 * num ≤ (4 * s + 2) * (step * 2 ^ b))
    (hleast' : b' = 0 ∨ leastSignificand * (step * 2 ^ b') ≤ num)
    (hbelow' : num < 2 * leastSignificand * (step * 2 ^ b')) :
    b' = b ∨ b' + 1 = b ∧ s = leastSignificand := by
  have hmargin := lowerMargin_eq b s
  have hmany : 2 < leastSignificand := by decide
  rcases lt_trichotomy b' b with hlt | heq | hgt
  · right
    -- A quotient with a spacing of `1 / 2 ^ d` of the binade's is too small by
    -- as much.
    have hsmall {d : Nat} (hd : b' + d ≤ b) :
        2 ^ d * (4 * s - lowerMargin b s) < 8 * leastSignificand := by
      apply Nat.lt_of_mul_lt_mul_right (a := step * 2 ^ b')
      calc 2 ^ d * (4 * s - lowerMargin b s) * (step * 2 ^ b')
          = (4 * s - lowerMargin b s) * (2 ^ d * (step * 2 ^ b')) := by ring
        _ ≤ (4 * s - lowerMargin b s) * (step * 2 ^ b) :=
          Nat.mul_le_mul_left _ (spacing_le hd step)
        _ ≤ 4 * num := hlow
        _ < 4 * (2 * leastSignificand * (step * 2 ^ b')) :=
          Nat.mul_lt_mul_of_pos_left hbelow' (by decide)
        _ = 8 * leastSignificand * (step * 2 ^ b') := by ring
    have hs : s = leastSignificand := by
      have hone := hsmall (d := 1) hlt
      omega
    refine ⟨?_, hs⟩
    by_contra hne
    have htwo := hsmall (d := 2) (by omega)
    omega
  · exact .inl heq
  · have hlarge : 8 * leastSignificand ≤ 4 * s + 2 := by
      refine Nat.le_of_mul_le_mul_right ?_
        (Nat.mul_pos hstep (Nat.two_pow_pos b))
      calc 8 * leastSignificand * (step * 2 ^ b)
          = 4 * (leastSignificand * (2 ^ 1 * (step * 2 ^ b))) := by ring
        _ ≤ 4 * (leastSignificand * (step * 2 ^ b')) :=
          Nat.mul_le_mul_left 4 (Nat.mul_le_mul_left _ (spacing_le hgt step))
        _ ≤ 4 * num := Nat.mul_le_mul_left 4 (hleast'.resolve_left (by omega))
        _ ≤ (4 * s + 2) * (step * 2 ^ b) := hhigh
    omega

/-- A number around a significand, at the ends of the interval only if the
significand is even, is rounded to the significand. -/
theorem nearestMagnitude_of_between {b s num den : Nat} (hden : 0 < den)
    (hleast : b = 0 ∨ leastSignificand ≤ s) (hbelow : s < 2 * leastSignificand)
    (hlow : (4 * s - lowerMargin b s) * (den * 2 ^ b) ≤ 4 * num)
    (hhigh : 4 * num ≤ (4 * s + 2) * (den * 2 ^ b))
    (hodd : s % 2 = 1 → (4 * s - lowerMargin b s) * (den * 2 ^ b) < 4 * num ∧
      4 * num < (4 * s + 2) * (den * 2 ^ b)) :
    nearestMagnitude num den = b * leastSignificand + s := by
  obtain ⟨b', r, hm, hr, hleast', hbelow'⟩ := nearestMagnitude_eq num den
  have hstep' : 0 < den * 2 ^ b' := Nat.mul_pos hden (Nat.two_pow_pos b')
  rw [Nat.le_div_iff_mul_le hstep'] at hleast'
  rw [Nat.div_lt_iff_lt_mul hstep'] at hbelow'
  rw [hm, hr]
  rcases binade_of_between hden hleast hbelow hlow hhigh hleast' hbelow' with
    rfl | ⟨rfl, rfl⟩
  · have hmargin := lowerMargin_eq b' s
    have hwide : (4 * s - 2) * (den * 2 ^ b') ≤
        (4 * s - lowerMargin b' s) * (den * 2 ^ b') :=
      Nat.mul_le_mul_right _ (by omega)
    generalize den * 2 ^ b' = step at *
    have hround : roundQuotient num step = s := by
      rw [Nat.sub_mul, Nat.mul_assoc] at hwide
      rw [Nat.add_mul, Nat.mul_assoc] at hhigh hodd
      apply roundQuotient_eq hstep'
      · rw [Nat.mul_assoc]
        omega
      · rw [Nat.add_mul, Nat.mul_assoc]
        omega
      · intro hs
        have hstrict := hodd hs
        rw [Nat.add_mul, Nat.mul_assoc]
        omega
    rw [hround]
  · have hmargin : lowerMargin (b' + 1) leastSignificand = 1 :=
      if_pos ⟨rfl, Nat.succ_pos b'⟩
    have hspacing : den * 2 ^ (b' + 1) = 2 * (den * 2 ^ b') := by ring
    rw [hmargin, hspacing, Nat.sub_mul] at hlow
    rw [Nat.mul_assoc] at hbelow'
    generalize den * 2 ^ b' = step at *
    have hleft : 4 * leastSignificand * (2 * step) =
        8 * (leastSignificand * step) := by ring
    have hround : roundQuotient num step = 2 * leastSignificand := by
      apply roundQuotient_eq hstep'
      · rw [Nat.mul_assoc, Nat.mul_assoc]
        omega
      · rw [Nat.add_mul, Nat.mul_assoc, Nat.mul_assoc]
        omega
      · omega
    rw [hround]
    ring

/-! ## The interval -/

/-- The number lies in the interval.  It is given in quarters of a unit. -/
def RoundingInterval.Contains (i : RoundingInterval) (q : ℚ) : Prop :=
  if i.closed then i.low ≤ q ∧ q ≤ i.high else i.low < q ∧ q < i.high

theorem RoundingInterval.contains_div_iff
    {i : RoundingInterval} {num den : Nat} (hden : 0 < den) :
    i.Contains ((num : ℚ) / den) ↔
      if i.closed then i.low * den ≤ num ∧ num ≤ i.high * den
      else i.low * den < num ∧ num < i.high * den := by
  have hpos : (0 : ℚ) < den := Nat.cast_pos.mpr hden
  rw [Contains, le_div_iff₀ hpos, div_le_iff₀ hpos, lt_div_iff₀ hpos,
    div_lt_iff₀ hpos]
  norm_cast

theorem magnitude_eq (x : Double) :
    x.magnitude = x.binade * leastSignificand + x.significand ∧
      (x.binade = 0 ∨ leastSignificand ≤ x.significand) ∧
      x.significand < 2 * leastSignificand :=
  eq_binade_significand x.magnitude

theorem roundingInterval_low (x : Double) : (roundingInterval x).low =
    (4 * x.significand - lowerMargin x.binade x.significand) * 2 ^ x.binade :=
  Nat.shiftLeft_eq ..

theorem roundingInterval_high (x : Double) :
    (roundingInterval x).high = (4 * x.significand + 2) * 2 ^ x.binade :=
  Nat.shiftLeft_eq ..

theorem roundingInterval_closed (x : Double) :
    (roundingInterval x).closed = true ↔ x.significand % 2 = 0 :=
  decide_eq_true_iff

theorem roundingInterval_value (x : Double) :
    (roundingInterval x).value = 4 * x.significand * 2 ^ x.binade := by
  rw [roundingInterval, units, Nat.shiftLeft_eq, Nat.mul_assoc]

/-- What lies in the rounding interval of a double is rounded to its
magnitude. -/
theorem nearestMagnitude_of_contains
    {x : Double} {num den : Nat} (hden : 0 < den)
    (h : (roundingInterval x).Contains ((4 * num : Nat) / den)) :
    nearestMagnitude num den = x.magnitude := by
  obtain ⟨hmagnitude, hleast, hbelow⟩ := x.magnitude_eq
  have hscale (n : Nat) :
      n * 2 ^ x.binade * den = n * (den * 2 ^ x.binade) := by ring
  rw [RoundingInterval.contains_div_iff hden, roundingInterval_low,
    roundingInterval_high, hscale, hscale] at h
  rw [hmagnitude]
  split at h
  · next hclosed =>
    rw [roundingInterval_closed] at hclosed
    exact nearestMagnitude_of_between hden hleast hbelow h.1 h.2 fun hodd => by omega
  · exact nearestMagnitude_of_between hden hleast hbelow h.1.le h.2.le fun _ => h

/-- A quotient in the rounding interval of a finite double is rounded to the
double, but for the sign. -/
theorem ofQuotient?_of_contains
    {x : Double} (hx : x.isFinite = true) {num den : Nat} (hden : 0 < den)
    (h : (roundingInterval x).Contains ((num : ℚ) / den * quartersOfOne))
    (negative : Bool) :
    ofQuotient? negative num den = some (ofMagnitude negative x.magnitude) := by
  have hquarters : (num : ℚ) / den * quartersOfOne =
      (4 * (num * unitsOfOne) : Nat) / den := by
    rw [quartersOfOne]
    push_cast
    ring
  rw [hquarters] at h
  rw [ofQuotient?, nearestMagnitude_of_contains hden h,
    if_pos (of_decide_eq_true hx)]

end LinkGraph.Double
