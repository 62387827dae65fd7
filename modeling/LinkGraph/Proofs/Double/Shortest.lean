import LinkGraph.Proofs.Double.Interval
import Mathlib.Algebra.Order.Field.Power
import Mathlib.Tactic.Linarith

/-!
# The shortest digits round to their double

The digits chosen for a double are those of a number in its rounding interval.
Such a number is always found: the multiples of the decimal step of seventeen
digits are closer together than the ends of the interval, so that the multiple
nearest to the double lies in it.
-/

namespace LinkGraph.Double

/-! ## Decimal numbers -/

def Digits.value (d : Digits) : ℚ :=
  d.digits * 10 ^ d.exponent

theorem cast_powerOfTen (n : Nat) : (Decimal.powerOfTen n : ℚ) = 10 ^ n := by
  rw [Decimal.powerOfTen]
  exact Nat.cast_pow 10 n

/-- One of the two powers of ten is one. -/
theorem ten_zpow_eq (e : Int) :
    (10 : ℚ) ^ e = Decimal.powerOfTen e.toNat /
      Decimal.powerOfTen (-e).toNat := by
  rw [cast_powerOfTen, cast_powerOfTen]
  cases e with
  | ofNat n => simp
  | negSucc n => simp

theorem powerOfTen_pos (n : Nat) : 0 < Decimal.powerOfTen n :=
  Nat.pow_pos (by decide)

theorem quartersOfOne_pos : 0 < quartersOfOne := by
  decide

/-- The number that digits stand for as a quotient, in quarters of a unit. -/
theorem Digits.value_mul_quartersOfOne (n : Nat) (e : Int) :
    (⟨n, e⟩ : Digits).value * quartersOfOne =
      (n * (quartersOfOne * Decimal.powerOfTen e.toNat) : Nat) /
        Decimal.powerOfTen (-e).toNat := by
  rw [value, ten_zpow_eq]
  push_cast
  ring

theorem pow_length_toDigits_le {n : Nat} (hn : 0 < n) :
    10 ^ ((Nat.toDigits 10 n).length - 1) ≤ n := by
  rcases Nat.eq_zero_or_pos ((Nat.toDigits 10 n).length - 1) with hone | hmore
  · rw [hone, Nat.pow_zero]
    exact hn
  · by_contra hlt
    have hlength :=
      (Nat.length_toDigits_le_iff (by decide) hmore).mpr (Nat.not_le.mp hlt)
    omega

/-- The decimal place of a number does not lie above its leading digit. -/
theorem decimalPlace_le {value : Nat} (hvalue : 0 < value) :
    (10 : ℚ) ^ (decimalPlace value - 1) * quartersOfOne ≤ value := by
  rw [decimalPlace]
  split
  · next hlarge =>
    have hquotient : 0 < value / quartersOfOne :=
      Nat.div_pos hlarge quartersOfOne_pos
    have hlength : 0 < (Nat.toDigits 10 (value / quartersOfOne)).length :=
      Nat.length_toDigits_pos
    have hleading := pow_length_toDigits_le hquotient
    have hnat : 10 ^ ((Nat.toDigits 10 (value / quartersOfOne)).length - 1) *
        quartersOfOne ≤ value :=
      (Nat.mul_le_mul_right _ hleading).trans
        (Nat.div_mul_le_self value quartersOfOne)
    rw [← Nat.cast_pred hlength, zpow_natCast]
    exact_mod_cast hnat
  · split
    · next j hfind =>
      have hplace : quartersOfOne ≤ value * Decimal.powerOfTen (j + 1) := by
        simpa using List.find?_some hfind
      have hcast : (quartersOfOne : ℚ) ≤ value * 10 ^ (j + 1) := by
        rw [← cast_powerOfTen]
        exact_mod_cast hplace
      have hexponent : -(j : Int) - 1 = -((j + 1 : Nat) : Int) := by
        push_cast
        ring
      rw [hexponent, zpow_neg, zpow_natCast,
        inv_mul_le_iff₀ (by positivity), mul_comm]
      exact hcast
    · next hfind =>
      -- Every positive number is at least one unit, which has fewer than 330
      -- places.
      have hlast : ¬quartersOfOne ≤ value * Decimal.powerOfTen (329 + 1) := by
        simpa using List.find?_eq_none.mp hfind 329 (by decide)
      have hunit : quartersOfOne ≤ 1 * Decimal.powerOfTen (329 + 1) := by
        decide +kernel
      exact absurd (hunit.trans (Nat.mul_le_mul_right _ hvalue)) hlast

/-! ## Candidates -/

theorem RoundingInterval.contains_of_lt
    {i : RoundingInterval} {q : ℚ} (hlow : i.low < q) (hhigh : q < i.high) :
    i.Contains q := by
  rw [Contains]
  split
  · exact ⟨hlow.le, hhigh.le⟩
  · exact ⟨hlow, hhigh⟩

/-- A candidate lies in the interval and is not zero; there is one if either of
the two multiples of the decimal step around the number is such. -/
theorem candidate?_spec
    (tie : Tie) (i : RoundingInterval) (place : Int) (count : Nat) :
    let fit (n : Nat) : Prop :=
      n ≠ 0 ∧ i.Contains ((⟨n, place - count⟩ : Digits).value * quartersOfOne)
    let below := i.value * Decimal.powerOfTen (-(place - count)).toNat /
      (quartersOfOne * Decimal.powerOfTen (place - count).toNat)
    (∀ d, candidate? tie i place count = some d →
        d.digits ≠ 0 ∧ i.Contains (d.value * quartersOfOne)) ∧
      (fit below ∨ fit (below + 1) →
        (candidate? tie i place count).isSome) := by
  intro fit below
  unfold candidate?
  extract_lets exponent up step fits below' lowerGap upperGap preferBelow
  have hfits (n : Nat) : fits n = true ↔
      i.Contains ((⟨n, exponent⟩ : Digits).value * quartersOfOne) := by
    rw [Digits.value_mul_quartersOfOne,
      RoundingInterval.contains_div_iff (powerOfTen_pos _)]
    simp only [fits]
    split
    · simp [step, up]
    · simp [step, up]
  have hbelow : (fits below' && below' != 0) = true ↔ fit below := by
    rw [Bool.and_eq_true, hfits, bne_iff_ne, and_comm]
  have habove : fits (below' + 1) = true ↔ fit (below + 1) := by
    rw [hfits]
    exact (and_iff_right (Nat.succ_ne_zero _)).symm
  rw [← hbelow, ← habove]
  constructor
  · intro d hd
    split at hd
    · next hleft hright =>
      cases hd
      cases preferBelow
      · exact habove.mp hright
      · exact hbelow.mp hleft
    · next hleft _ =>
      cases hd
      exact hbelow.mp hleft
    · next _ hright =>
      cases hd
      exact habove.mp hright
    · cases hd
  · intro h
    split
    · rfl
    · rfl
    · rfl
    · next hleft hright =>
      rw [hleft, hright] at h
      simp at h

/-! ## Seventeen digits -/

/-- The multiples of a decimal step around a number. -/
theorem multiples_around (value : Nat) (e : Int) :
    let below := value * Decimal.powerOfTen (-e).toNat /
      (quartersOfOne * Decimal.powerOfTen e.toNat)
    (⟨below, e⟩ : Digits).value * quartersOfOne ≤ value ∧
      value < (⟨below + 1, e⟩ : Digits).value * quartersOfOne := by
  intro below
  have hpos : 0 < quartersOfOne * Decimal.powerOfTen e.toNat :=
    Nat.mul_pos quartersOfOne_pos (powerOfTen_pos _)
  have hup : (0 : ℚ) < Decimal.powerOfTen (-e).toNat :=
    Nat.cast_pos.mpr (powerOfTen_pos _)
  rw [Digits.value_mul_quartersOfOne, Digits.value_mul_quartersOfOne,
    div_le_iff₀ hup, lt_div_iff₀ hup]
  constructor
  · exact_mod_cast Nat.div_mul_le_self _ _
  · exact_mod_cast Nat.lt_mul_of_div_lt (Nat.lt_succ_self below) hpos

/-- The ends of the interval, from its middle. -/
theorem interval_ends {x : Double} (hx : 0 < x.significand) :
    ((roundingInterval x).low : ℚ) =
        (roundingInterval x).value - lowerMargin x.binade x.significand *
          2 ^ x.binade ∧
      ((roundingInterval x).high : ℚ) =
        (roundingInterval x).value + 2 * 2 ^ x.binade := by
  have hmargin := lowerMargin_eq x.binade x.significand
  have hle : lowerMargin x.binade x.significand ≤ 4 * x.significand := by omega
  rw [roundingInterval_low, roundingInterval_high, roundingInterval_value]
  push_cast [hle]
  constructor
  · ring
  · ring

/-- Half of the decimal step of seventeen digits is shorter than the way from a
double to either end of its interval. -/
theorem half_step_lt
    {x : Double} {step : ℚ}
    (hstep : step * 10 ^ 16 ≤ (roundingInterval x).value) :
    step / 2 < lowerMargin x.binade x.significand * 2 ^ x.binade ∧
      step / 2 < 2 * 2 ^ x.binade := by
  have hspacing : (0 : ℚ) < 2 ^ x.binade := by positivity
  rw [roundingInterval_value] at hstep
  push_cast at hstep
  have hbelow : (x.significand : ℚ) * 2 ^ x.binade ≤ 2 ^ 53 * 2 ^ x.binade := by
    have hle : x.significand ≤ 2 ^ 53 := x.magnitude_eq.2.2.le
    exact mul_le_mul_of_nonneg_right (by exact_mod_cast hle) hspacing.le
  have habove : step / 2 < 2 * 2 ^ x.binade := by linarith
  rcases lowerMargin_eq x.binade x.significand with
    ⟨hmargin, hleast, -⟩ | hmargin
  · refine ⟨?_, habove⟩
    have hs : (x.significand : ℚ) = 2 ^ 52 := by
      rw [hleast]
      norm_num [leastSignificand]
    rw [hs] at hstep
    rw [hmargin, Nat.cast_one, one_mul]
    linarith
  · rw [hmargin]
    exact ⟨habove, habove⟩

/-- With seventeen digits the multiple of the decimal step that is nearest to a
double lies in its interval. -/
theorem isSome_candidate?_seventeen
    (tie : Tie) {x : Double} (hx : 0 < x.significand) :
    (candidate? tie (roundingInterval x)
      (decimalPlace (roundingInterval x).value) 17).isSome := by
  have hvalue : 0 < (roundingInterval x).value := by
    rw [roundingInterval_value]
    positivity
  have hplace := decimalPlace_le hvalue
  obtain ⟨hlow, hhigh⟩ := interval_ends hx
  obtain ⟨-, hfound⟩ := candidate?_spec tie (roundingInterval x)
    (decimalPlace (roundingInterval x).value) 17
  obtain ⟨hleft, hright⟩ := multiples_around (roundingInterval x).value
    (decimalPlace (roundingInterval x).value - (17 : Nat))
  generalize decimalPlace (roundingInterval x).value = place at *
  apply hfound
  generalize (roundingInterval x).value * _ / _ = below at *
  have hstep : (10 : ℚ) ^ (place - (17 : Nat)) * quartersOfOne * 10 ^ 16 ≤
      (roundingInterval x).value := by
    have hleading :
        (10 : ℚ) ^ (place - 1) = 10 ^ (place - (17 : Nat)) * 10 ^ 16 := by
      rw [← zpow_natCast, ← zpow_add₀ (by norm_num)]
      congr 1
      push_cast
      ring
    rw [hleading] at hplace
    linarith
  have hpos : (0 : ℚ) < 10 ^ (place - (17 : Nat)) * quartersOfOne :=
    mul_pos (zpow_pos (by norm_num) _) (Nat.cast_pos.mpr quartersOfOne_pos)
  obtain ⟨hlower, hupper⟩ := half_step_lt hstep
  simp only [Digits.value, mul_assoc, Nat.cast_add, Nat.cast_one]
    at hleft hright ⊢
  generalize (10 : ℚ) ^ (place - (17 : Nat)) * quartersOfOne = step at *
  by_cases hnear : (roundingInterval x).value - below * step ≤ step / 2
  · left
    refine ⟨?_, RoundingInterval.contains_of_lt ?_ ?_⟩
    · rintro rfl
      rw [Nat.cast_zero, zero_mul, sub_zero] at hnear
      linarith
    · rw [hlow]
      linarith
    · rw [hhigh]
      linarith
  · right
    refine ⟨Nat.succ_ne_zero below, RoundingInterval.contains_of_lt ?_ ?_⟩
    · rw [hlow]
      linarith
    · rw [hhigh]
      linarith

/-- The digits of a double of positive magnitude are those of a positive number
in its interval. -/
theorem shortest_contains (tie : Tie) {x : Double} (hx : 0 < x.significand) :
    (x.shortest tie).digits ≠ 0 ∧
      (roundingInterval x).Contains
        ((x.shortest tie).value * quartersOfOne) := by
  rw [shortest]
  generalize hfound : (List.range 17).findSome? _ = found
  cases found with
  | some d =>
    obtain ⟨n, -, hd⟩ := List.exists_of_findSome?_eq_some hfound
    exact (candidate?_spec tie (roundingInterval x) _ (n + 1)).1 d hd
  | none =>
    have hnone := List.findSome?_eq_none_iff.mp hfound 16 (by decide)
    have hsome := isSome_candidate?_seventeen tie hx
    rw [hnone] at hsome
    cases hsome

end LinkGraph.Double
