import LinkGraph.Double.Nearest
import Mathlib.Algebra.Order.Ring.Int
import Mathlib.Data.Nat.Log
import Mathlib.Tactic.Ring

/-!
# Rounding yields the nearest double

Magnitudes of doubles are compared with a quotient by multiplying them with its
denominator.  Around the quotient the magnitudes are the multiples of the
spacing of its binade; below the binade they are closer together, but none of
them lies nearer than the least of the binade.  So the two multiples around the
quotient are the only candidates, and between these the division with remainder
decides.
-/

namespace LinkGraph.Double

/-! ## The magnitudes -/

/-- How many units the double with a bit pattern below the sign bit is. -/
def unitsAt (m : Nat) : Nat :=
  (m - (m / leastSignificand - 1) * leastSignificand) <<<
    (m / leastSignificand - 1)

theorem units_eq (x : Double) : x.units = unitsAt x.magnitude := rfl

/-- The units of a significand in a binade.  Twice the least significand belongs
to the binade above, as its least significand. -/
theorem unitsAt_of_significand
    {b r : Nat} (hlow : b = 0 ∨ leastSignificand ≤ r)
    (hhigh : r ≤ 2 * leastSignificand) :
    unitsAt (b * leastSignificand + r) = r * 2 ^ b := by
  have hpos : 0 < leastSignificand := by decide
  rw [unitsAt, Nat.shiftLeft_eq]
  rcases Nat.lt_or_ge r leastSignificand with hr | hr
  · obtain rfl : b = 0 := by omega
    have hbinade : (0 * leastSignificand + r) / leastSignificand = 0 := by
      rw [Nat.zero_mul, Nat.zero_add, Nat.div_eq_of_lt hr]
    rw [hbinade]
    omega
  · rcases Nat.lt_or_eq_of_le hhigh with hr' | rfl
    · have hbinade : (b * leastSignificand + r) / leastSignificand = b + 1 := by
        rw [Nat.mul_comm, Nat.mul_add_div hpos,
          Nat.div_eq_of_lt_le (k := 1) (by omega) (by omega)]
      rw [hbinade, Nat.add_sub_cancel, Nat.add_sub_cancel_left]
    · have hbinade :
          (b * leastSignificand + 2 * leastSignificand) / leastSignificand =
            b + 2 := by
        rw [← Nat.add_mul, Nat.mul_div_cancel _ hpos]
      have hrest : b * leastSignificand + 2 * leastSignificand -
          (b + 1) * leastSignificand = leastSignificand := by
        rw [Nat.add_mul]
        omega
      rw [hbinade, Nat.add_sub_cancel (m := 1), hrest, pow_succ]
      ring

theorem unitsAt_zero : unitsAt 0 = 0 := by
  rw [unitsAt, Nat.zero_sub, Nat.zero_shiftLeft]

/-- A bit pattern is made of its binade and its significand, which has a leading
bit unless the binade is the lowest. -/
theorem eq_binade_significand (m : Nat) :
    let b := m / leastSignificand - 1
    m = b * leastSignificand + (m - b * leastSignificand) ∧
      (b = 0 ∨ leastSignificand ≤ m - b * leastSignificand) ∧
      m - b * leastSignificand < 2 * leastSignificand := by
  have hpos : 0 < leastSignificand := by decide
  have hdiv := Nat.div_add_mod' m leastSignificand
  have hmod := Nat.mod_lt m hpos
  rcases Nat.eq_zero_or_pos (m / leastSignificand) with hzero | hquotient
  · rw [hzero] at hdiv ⊢
    omega
  · obtain ⟨q, hq⟩ := Nat.exists_eq_succ_of_ne_zero hquotient.ne'
    rw [hq, Nat.succ_mul] at hdiv
    rw [hq, Nat.succ_sub_one]
    omega

/-- Doubles with greater bit patterns are greater. -/
theorem unitsAt_strictMono : StrictMono unitsAt := by
  apply strictMono_nat_of_lt_succ
  intro m
  obtain ⟨hm, hleast, hbelow⟩ := eq_binade_significand m
  generalize m - _ = s at hm hleast hbelow
  generalize m / leastSignificand - 1 = b at hm hleast
  have hnext : m + 1 = b * leastSignificand + (s + 1) := by omega
  rw [hnext, hm, unitsAt_of_significand hleast hbelow.le,
    unitsAt_of_significand (by omega) hbelow]
  exact Nat.mul_lt_mul_of_pos_right (Nat.lt_succ_self s) (Nat.two_pow_pos b)

/-- No magnitude lies strictly between neighbouring multiples of the spacing of
a binade. -/
theorem unitsAt_outside
    {b low : Nat} (hlow : b = 0 ∨ leastSignificand ≤ low) (m : Nat) :
    unitsAt m ≤ low * 2 ^ b ∨ (low + 1) * 2 ^ b ≤ unitsAt m := by
  rw [unitsAt, Nat.shiftLeft_eq]
  generalize hb' : m / leastSignificand - 1 = b'
  generalize hs : m - b' * leastSignificand = s
  by_cases hle : b ≤ b'
  · obtain ⟨d, rfl⟩ := Nat.exists_eq_add_of_le hle
    have hmultiple : s * 2 ^ (b + d) = s * 2 ^ d * 2 ^ b := by
      rw [pow_add]
      ring
    rw [hmultiple]
    rcases Nat.lt_or_ge low (s * 2 ^ d) with h | h
    · exact Or.inr (Nat.mul_le_mul_right _ h)
    · exact Or.inl (Nat.mul_le_mul_right _ h)
  · left
    have hsignificand : s ≤ 2 * leastSignificand := by
      have hdiv := Nat.div_add_mod m leastSignificand
      have hmod := Nat.mod_lt m (show 0 < leastSignificand by decide)
      have hquotient : leastSignificand * (m / leastSignificand) ≤
          leastSignificand * (b' + 1) := Nat.mul_le_mul_left _ (by omega)
      rw [Nat.mul_add, Nat.mul_one, Nat.mul_comm _ b'] at hquotient
      omega
    have hleast : leastSignificand ≤ low := by omega
    calc s * 2 ^ b' ≤ 2 * leastSignificand * 2 ^ b' :=
      Nat.mul_le_mul_right _ hsignificand
      _ = leastSignificand * 2 ^ (b' + 1) := by rw [pow_succ]; ring
      _ ≤ low * 2 ^ b :=
        Nat.mul_le_mul hleast (Nat.pow_le_pow_right (by decide) (by omega))

/-! ## Division with remainder -/

/-- Of the two multiples around a number the nearer one is chosen, of two
equally near the even one. -/
theorem roundQuotient_cases (num den : Nat) :
    (roundQuotient num den = num / den ∧ 2 * (num % den) ≤ den ∧
        (2 * (num % den) = den → roundQuotient num den % 2 = 0)) ∨
      (roundQuotient num den = num / den + 1 ∧ den ≤ 2 * (num % den) ∧
        (2 * (num % den) = den → roundQuotient num den % 2 = 0)) := by
  rw [roundQuotient]
  split <;> omega

/-- A number outside the two multiples around `num` is not nearer to it than the
rounded quotient. -/
theorem roundQuotient_nearest {num den v : Nat} (hden : 0 < den)
    (hv : v ≤ num / den * den ∨ (num / den + 1) * den ≤ v) :
    ((num : Int) - (roundQuotient num den * den : Nat)).natAbs ≤
        ((num : Int) - v).natAbs ∧
      (((num : Int) - v).natAbs =
          ((num : Int) - (roundQuotient num den * den : Nat)).natAbs →
        v ≠ roundQuotient num den * den → roundQuotient num den % 2 = 0) := by
  have hdiv := Nat.div_add_mod' num den
  have hmod := Nat.mod_lt num hden
  rw [Nat.add_mul, Nat.one_mul] at hv
  rcases roundQuotient_cases num den with
    ⟨hr, hhalf, heven⟩ | ⟨hr, hhalf, heven⟩
  · have hvalue : roundQuotient num den * den = num / den * den := by rw [hr]
    rw [hvalue]
    constructor
    · omega
    · intro hsame hne
      apply heven
      omega
  · have hvalue : roundQuotient num den * den = num / den * den + den := by
      rw [hr, Nat.add_mul, Nat.one_mul]
    rw [hvalue]
    constructor
    · omega
    · intro hsame hne
      apply heven
      omega

/-! ## The nearest magnitude -/

/-- The spacing around a quotient, the multiples of it around the quotient, and
where they lie. -/
theorem nearestMagnitude_eq (num den : Nat) :
    ∃ b r, nearestMagnitude num den = b * leastSignificand + r ∧
      r = roundQuotient num (den * 2 ^ b) ∧
      (b = 0 ∨ leastSignificand ≤ num / (den * 2 ^ b)) ∧
      num / (den * 2 ^ b) < 2 * leastSignificand := by
  refine ⟨(num / den).log2 - 52, _, ?_, rfl, ?_, ?_⟩
  · rw [nearestMagnitude, Nat.shiftLeft_eq]
  · by_cases hsmall : (num / den).log2 ≤ 52
    · left
      omega
    · right
      have hq : num / den ≠ 0 := by
        intro h
        rw [h] at hsmall
        exact hsmall (by decide)
      rw [← Nat.div_div_eq_div_mul, Nat.le_div_iff_mul_le (Nat.two_pow_pos _)]
      calc leastSignificand * 2 ^ ((num / den).log2 - 52)
          = 2 ^ (num / den).log2 := by
            rw [show leastSignificand = 2 ^ 52 from rfl, ← pow_add]
            congr 1
            omega
        _ ≤ num / den := Nat.log2_self_le hq
  · rw [← Nat.div_div_eq_div_mul, Nat.div_lt_iff_lt_mul (Nat.two_pow_pos _)]
    calc num / den < 2 ^ ((num / den).log2 + 1) := Nat.lt_log2_self
      _ ≤ 2 ^ (53 + ((num / den).log2 - 52)) :=
      Nat.pow_le_pow_right (by decide) (by omega)
      _ = 2 * leastSignificand * 2 ^ ((num / den).log2 - 52) := by
        rw [show 2 * leastSignificand = 2 ^ 53 from rfl, ← pow_add]

/-- No magnitude is nearer to a quotient of units than the one chosen, and of
two equally near ones the chosen one is even. -/
theorem nearestMagnitude_nearest
    (num : Nat) {den : Nat} (hden : 0 < den) (m : Nat) :
    ((num : Int) - (unitsAt (nearestMagnitude num den) * den : Nat)).natAbs ≤
        ((num : Int) - (unitsAt m * den : Nat)).natAbs ∧
      (((num : Int) - (unitsAt m * den : Nat)).natAbs =
          ((num : Int) - (unitsAt (nearestMagnitude num den) * den : Nat)).natAbs →
        unitsAt m ≠ unitsAt (nearestMagnitude num den) →
        nearestMagnitude num den % 2 = 0) := by
  obtain ⟨b, r, hm, hr, hlow, hhigh⟩ := nearestMagnitude_eq num den
  have hstep : 0 < den * 2 ^ b := Nat.mul_pos hden (Nat.two_pow_pos b)
  have hround : r = num / (den * 2 ^ b) ∨ r = num / (den * 2 ^ b) + 1 := by
    rw [hr]
    rcases roundQuotient_cases num (den * 2 ^ b) with ⟨h, -, -⟩ | ⟨h, -, -⟩
    · exact Or.inl h
    · exact Or.inr h
  have hunits : unitsAt (nearestMagnitude num den) = r * 2 ^ b := by
    rw [hm]
    exact unitsAt_of_significand (by omega) (by omega)
  have hvalue :
      unitsAt (nearestMagnitude num den) * den = r * (den * 2 ^ b) := by
    rw [hunits]
    ring
  have houtside : unitsAt m * den ≤ num / (den * 2 ^ b) * (den * 2 ^ b) ∨
      (num / (den * 2 ^ b) + 1) * (den * 2 ^ b) ≤ unitsAt m * den := by
    rcases unitsAt_outside hlow m with h | h
    · left
      calc unitsAt m * den ≤ num / (den * 2 ^ b) * 2 ^ b * den :=
        Nat.mul_le_mul_right _ h
        _ = num / (den * 2 ^ b) * (den * 2 ^ b) := by ring
    · right
      calc (num / (den * 2 ^ b) + 1) * (den * 2 ^ b)
          = (num / (den * 2 ^ b) + 1) * 2 ^ b * den := by ring
        _ ≤ unitsAt m * den := Nat.mul_le_mul_right _ h
  obtain ⟨hnearest, heven⟩ := roundQuotient_nearest hstep houtside
  rw [← hr] at hnearest heven
  rw [hvalue]
  refine ⟨hnearest, fun hsame hne => ?_⟩
  have hreven : r % 2 = 0 := by
    apply heven hsame
    intro heq
    apply hne
    rw [hunits]
    apply Nat.eq_of_mul_eq_mul_right hden
    rw [heq]
    ring
  have hleast : b * leastSignificand % 2 = 0 := by
    rw [Nat.mul_mod, show leastSignificand % 2 = 0 from rfl, Nat.mul_zero,
      Nat.zero_mod]
  omega

/-- Quotients that are not too large have a magnitude of finite doubles. -/
theorem nearestMagnitude_lt
    {num den e : Nat} (h : num / den ≤ 2 ^ e) (he : e < 2000) :
    nearestMagnitude num den < infinityBits := by
  obtain ⟨b, r, hm, hr, hlow, hhigh⟩ := nearestMagnitude_eq num den
  have hbinade : b ≤ 1947 := by
    rcases hlow with rfl | hlow
    · exact Nat.zero_le _
    · rw [← Nat.div_div_eq_div_mul, Nat.le_div_iff_mul_le (Nat.two_pow_pos b),
        show leastSignificand = 2 ^ 52 from rfl, ← pow_add] at hlow
      have hexponent : 52 + b ≤ e :=
        (Nat.pow_le_pow_iff_right (by decide)).mp (hlow.trans h)
      omega
  have hround : r ≤ 2 * leastSignificand := by
    rw [hr]
    rcases roundQuotient_cases num (den * 2 ^ b) with
      ⟨hquotient, -, -⟩ | ⟨hquotient, -, -⟩
    · exact hquotient.trans_le hhigh.le
    · exact hquotient.trans_le hhigh
  calc nearestMagnitude num den = b * leastSignificand + r := hm
    _ ≤ 1947 * leastSignificand + 2 * leastSignificand :=
      Nat.add_le_add (Nat.mul_le_mul_right _ hbinade) hround
    _ < infinityBits := by decide

/-! ## The nearest double -/

/-- The value of a finite double in units, with its sign. -/
def signedUnits (x : Double) : Int :=
  if x.isNegative then -(x.units : Int) else x.units

/-- How far a double is from `num / den`, in units and multiplied by the
denominator. -/
def distance (num : Int) (den : Nat) (x : Double) : Nat :=
  (num * unitsOfOne - x.signedUnits * den).natAbs

/-- The double is finite, no finite double is nearer to `num / den`, and if
another is as near, its significand is even. -/
structure IsNearest (num : Int) (den : Nat) (x : Double) : Prop where
  finite : x.isFinite = true
  least (y : Double) :
    y.isFinite = true → x.distance num den ≤ y.distance num den
  even (y : Double) :
    y.isFinite = true → y.distance num den = x.distance num den →
    y.signedUnits ≠ x.signedUnits → x.magnitude % 2 = 0

theorem signBit_eq : signBit = 2 ^ 63 := rfl

theorem magnitude_ofMagnitude (negative : Bool) {m : Nat} (hm : m < signBit) :
    (ofMagnitude negative m).magnitude = m := by
  rw [signBit_eq] at hm
  rw [magnitude, ofMagnitude, UInt64.toNat_ofNat', signBit_eq]
  cases negative
  · rw [if_neg Bool.false_ne_true]
    omega
  · rw [if_pos rfl]
    omega

theorem isNegative_ofMagnitude (negative : Bool) {m : Nat} (hm : m < signBit) :
    (ofMagnitude negative m).isNegative = negative := by
  rw [signBit_eq] at hm
  rw [isNegative, ofMagnitude, UInt64.toNat_ofNat', signBit_eq]
  cases negative
  · rw [if_neg Bool.false_ne_true, decide_eq_false_iff_not]
    omega
  · rw [if_pos rfl, decide_eq_true_eq]
    omega

theorem ofMagnitude_self
    (x : Double) :
    ofMagnitude x.isNegative x.magnitude = x := by
  have hbits :
      (if x.isNegative then signBit else 0) + x.magnitude = x.bits.toNat := by
    have hlt := x.bits.toNat_lt
    rw [magnitude, isNegative, signBit_eq]
    split
    · next h =>
      have hle := of_decide_eq_true h
      omega
    · next h =>
      have hlt' := of_decide_eq_false (Bool.eq_false_iff.mpr h)
      omega
  rw [ofMagnitude, hbits, UInt64.ofNat_toNat]

/-- A natural number with a sign. -/
def withSign (negative : Bool) (n : Nat) : Int :=
  if negative then -(n : Int) else n

theorem signedUnits_mul (x : Double) (den : Nat) :
    x.signedUnits * den =
      withSign x.isNegative (unitsAt x.magnitude * den) := by
  rw [signedUnits, withSign, ← units_eq]
  split
  · rw [Int.neg_mul, Nat.cast_mul]
  · rw [Nat.cast_mul]

theorem withSign_mul (negative : Bool) (num n : Nat) :
    withSign negative num * n = withSign negative (num * n) := by
  cases negative <;> simp [withSign]

theorem natAbs_sub_withSign (negative : Bool) (a b : Nat) :
    (withSign negative a - withSign negative b).natAbs =
      ((a : Int) - b).natAbs := by
  cases negative
  · rfl
  · simp only [withSign, if_true]
    omega

theorem natAbs_sub_le_withSign (negative negative' : Bool) (a b : Nat) :
    ((a : Int) - b).natAbs ≤
      (withSign negative a - withSign negative' b).natAbs := by
  cases negative <;> cases negative' <;>
    simp only [withSign, if_true, Bool.false_eq_true, if_false] <;> omega

/-- Opposite numbers are equally far from a third one only if that or both of
them are zero. -/
theorem eq_zero_of_natAbs_eq
    {negative negative' : Bool} (hsign : negative' ≠ negative) {a b : Nat}
    (h : (withSign negative a - withSign negative' b).natAbs =
      ((a : Int) - b).natAbs) :
    a = 0 ∨ b = 0 := by
  obtain rfl : negative' = !negative := Bool.eq_not.mpr hsign
  cases negative <;> simp only [withSign, Bool.not_true, Bool.not_false,
    if_true, Bool.false_eq_true, if_false] at h <;> omega

/-- The quotient is rounded to the nearest double, which has its sign. -/
theorem isNearest_of_ofQuotient?
    {negative : Bool} {num den : Nat} {x : Double} (hden : 0 < den)
    (h : ofQuotient? negative num den = some x) :
    IsNearest (withSign negative num) den x ∧ x.isNegative = negative := by
  have hdistance (y : Double) : y.distance (withSign negative num) den =
      (withSign negative (num * unitsOfOne) -
        withSign y.isNegative (unitsAt y.magnitude * den)).natAbs := by
    rw [distance, signedUnits_mul, withSign_mul]
  rw [ofQuotient?] at h
  generalize num * unitsOfOne = total at h hdistance
  split at h
  · next hfinite =>
    generalize hm : nearestMagnitude total den = m at h hfinite
    obtain rfl := Option.some.inj h
    have hbelow : m < signBit := hfinite.trans (by decide)
    have hmagnitude := magnitude_ofMagnitude negative hbelow
    have hsign := isNegative_ofMagnitude negative hbelow
    have hnearest (m' : Nat) := nearestMagnitude_nearest total hden m'
    rw [hm] at hnearest
    have hown : (ofMagnitude negative m).distance (withSign negative num) den =
        ((total : Int) - (unitsAt m * den : Nat)).natAbs := by
      rw [hdistance, hsign, hmagnitude, natAbs_sub_withSign]
    refine ⟨⟨?_, fun y _ => ?_, fun y _ hsame hne => ?_⟩, hsign⟩
    · rw [isFinite, hmagnitude]
      exact decide_eq_true hfinite
    · rw [hown, hdistance]
      exact (hnearest y.magnitude).1.trans (natAbs_sub_le_withSign _ _ _ _)
    · rw [hown, hdistance] at hsame
      rw [hmagnitude]
      have heq := le_antisymm ((natAbs_sub_le_withSign _ _ _ _).trans_eq hsame)
        (hnearest y.magnitude).1
      apply (hnearest y.magnitude).2 heq
      intro hunits
      -- Equally large doubles differ in their sign, so that both would have to
      -- be zero.
      have hopposite : y.isNegative ≠ negative := by
        intro hsame'
        apply hne
        rw [signedUnits, signedUnits, units_eq, units_eq, hsign, hsame',
          hmagnitude, hunits]
      rw [hunits] at hsame
      have hzero : unitsAt m = 0 := by
        rcases eq_zero_of_natAbs_eq hopposite hsame with htotal | hunit
        · have hleast := (hnearest 0).1
          rw [htotal, unitsAt_zero, Nat.zero_mul] at hleast
          have hproduct : unitsAt m = 0 ∨ den = 0 := by simpa using hleast
          exact hproduct.resolve_right hden.ne'
        · exact (Nat.mul_eq_zero.mp hunit).resolve_right hden.ne'
      apply hne
      rw [signedUnits, signedUnits, units_eq, units_eq, hmagnitude,
        hunits, hzero]
      simp
  · cases h

/-! ## One nearest double -/

theorem signedUnits_eq (x : Double) :
    x.signedUnits = withSign x.isNegative (unitsAt x.magnitude) :=
  rfl

theorem withSign_injective
    (negative : Bool) :
    Function.Injective (withSign negative) := by
  intro a b h
  cases negative
  · exact Int.ofNat_inj.mp h
  · exact Int.ofNat_inj.mp (Int.neg_inj.mp h)

/-- Between two equally far doubles of one sign every double is nearer. -/
theorem distance_lt_of_between
    {num : Int} {den : Nat} {x y z : Double} (hden : 0 < den)
    (hsame : x.distance num den = y.distance num den)
    (hxy : x.isNegative = y.isNegative) (hxz : x.isNegative = z.isNegative)
    (hlow : x.magnitude < z.magnitude) (hhigh : z.magnitude < y.magnitude) :
    z.distance num den < x.distance num den := by
  have hleft := Nat.mul_lt_mul_of_pos_right (unitsAt_strictMono hlow) hden
  have hright := Nat.mul_lt_mul_of_pos_right (unitsAt_strictMono hhigh) hden
  rw [distance, distance, signedUnits_mul, signedUnits_mul, ← hxy] at hsame
  rw [distance, distance, signedUnits_mul, signedUnits_mul, ← hxz]
  generalize x.isNegative = negative at hsame ⊢
  cases negative with
  | false =>
    simp only [withSign, Bool.false_eq_true, if_false] at hsame ⊢
    omega
  | true =>
    simp only [withSign, if_true] at hsame ⊢
    omega

/-- The magnitudes of two nearest doubles of one sign are not far apart, and not
both are even. -/
theorem IsNearest.not_lt
    {num : Int} {den : Nat} {x y : Double} (hden : 0 < den)
    (hx : IsNearest num den x) (hy : IsNearest num den y)
    (hsign : x.isNegative = y.isNegative) :
    ¬x.magnitude < y.magnitude := by
  intro hlt
  have hsame : x.distance num den = y.distance num den :=
    le_antisymm (hx.least y hy.finite) (hy.least x hx.finite)
  have hne : x.signedUnits ≠ y.signedUnits := by
    rw [signedUnits_eq, signedUnits_eq, ← hsign]
    exact (withSign_injective _).ne (unitsAt_strictMono hlt).ne
  have hxeven := hx.even y hy.finite hsame.symm hne.symm
  have hyeven := hy.even x hx.finite hsame hne
  have hbelow : x.magnitude + 1 < infinityBits :=
    (Nat.succ_le_of_lt hlt).trans_lt (of_decide_eq_true hy.finite)
  have hmagnitude : (ofMagnitude x.isNegative (x.magnitude + 1)).magnitude =
      x.magnitude + 1 :=
    magnitude_ofMagnitude _ (hbelow.trans (by decide))
  have hfinite :
      (ofMagnitude x.isNegative (x.magnitude + 1)).isFinite = true := by
    rw [isFinite, hmagnitude]
    exact decide_eq_true hbelow
  apply (hx.least _ hfinite).not_gt
  apply distance_lt_of_between hden hsame hsign
  · exact (isNegative_ofMagnitude _ (hbelow.trans (by decide))).symm
  · omega
  · omega

/-- A number has one nearest double of either sign. -/
theorem IsNearest.unique
    {num : Int} {den : Nat} {x y : Double} (hden : 0 < den)
    (hx : IsNearest num den x) (hy : IsNearest num den y)
    (hsign : x.isNegative = y.isNegative) :
    x = y := by
  have hmagnitude : x.magnitude = y.magnitude :=
    le_antisymm (Nat.not_lt.mp (hy.not_lt hden hx hsign.symm))
      (Nat.not_lt.mp (hx.not_lt hden hy hsign))
  rw [← ofMagnitude_self x, ← ofMagnitude_self y, hmagnitude, hsign]

/-! ## Integers -/

theorem mul_two_pow_le
    {n k a b : Nat} (hn : n ≤ 2 ^ a) (hk : k ≤ b) :
    n * 2 ^ k ≤ 2 ^ (a + b) := by
  rw [Nat.pow_add]
  exact Nat.mul_le_mul hn (Nat.pow_le_pow_right (by decide) hk)

theorem mul_shiftLeft_le
    {n e : Nat} (h : n ≤ 2 ^ e) (k : Nat) :
    n * 1 <<< k ≤ 2 ^ (e + k) := by
  rw [Nat.one_shiftLeft]
  exact mul_two_pow_le h le_rfl

theorem isNearest_zero : IsNearest 0 1 (ofMagnitude false 0) := by
  have hmagnitude : (ofMagnitude false 0).magnitude = 0 :=
    magnitude_ofMagnitude false (by decide)
  have hunits : (ofMagnitude false 0).signedUnits = 0 := by
    rw [signedUnits, units_eq, hmagnitude, unitsAt_zero]
    exact ite_self _
  refine ⟨?_, fun y _ => ?_, fun y _ _ _ => ?_⟩
  · rw [isFinite, hmagnitude]
    rfl
  · rw [distance, hunits]
    simp
  · rw [hmagnitude]

/-- An integer of at most 64 bits becomes the nearest double; zero becomes the
positive one. -/
theorem isNearest_ofInt {n : Int} (h : n.natAbs ≤ 2 ^ 64) :
    IsNearest n 1 (ofInt n) ∧ (ofInt n).isNegative = decide (n < 0) := by
  rcases eq_or_ne n 0 with rfl | hn
  · exact ⟨isNearest_zero, isNegative_ofMagnitude false (by decide)⟩
  have hplace : (Nat.toDigits 10 n.natAbs).length ≤ 20 :=
    (Nat.length_toDigits_le_iff (by decide) (by decide)).mpr
      (h.trans_lt (by decide))
  have hdecimal : ofDecimal? (decide (n < 0)) n.natAbs 0 =
      ofQuotient? (decide (n < 0)) n.natAbs 1 := by
    rw [ofDecimal?, if_neg (by omega), if_neg (by omega), if_pos (le_refl 0)]
    rw [Decimal.powerOfTen, Int.toNat_zero]
    exact congrArg (ofQuotient? _ · 1) (Nat.mul_one _)
  have hsize : n.natAbs * unitsOfOne / 1 ≤ 2 ^ (64 + 1074) := by
    rw [Nat.div_one]
    exact mul_shiftLeft_le h 1074
  have hquotient :
      ofQuotient? (decide (n < 0)) n.natAbs 1 =
        some (ofMagnitude (decide (n < 0))
          (nearestMagnitude (n.natAbs * unitsOfOne) 1)) :=
    if_pos (nearestMagnitude_lt hsize (by decide))
  have hvalue : withSign (decide (n < 0)) n.natAbs = n := by
    simp only [withSign, decide_eq_true_eq]
    omega
  have hnearest := isNearest_of_ofQuotient? (by decide) hquotient
  rw [hvalue] at hnearest
  rwa [ofInt, hdecimal, hquotient]

end LinkGraph.Double
