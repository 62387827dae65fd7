import LinkGraph.Proofs.Double.Layout
import LinkGraph.Proofs.Wire.Storing

/-!
# Doubles keep their value as text

The text that is stored for a finite double is a numeral with a fraction or an
exponent.  Its digits were chosen in the rounding interval of the double, so
that the exact number that they denote is rounded to the double again.  Hence
the text is that of no other double and of no integer.
-/

namespace LinkGraph

open Decimal (Numeral)

namespace Double

/-! ## The place of the leading digit

Numbers whose leading digit stands too far from the point are rounded without
being computed.  No number in the rounding interval of a finite double is such a
number.
-/

theorem place_bounds {n : Nat} (hn : 0 < n) (e : Int) :
    (10 : ℚ) ^ ((Nat.toDigits 10 n).length + e - 1) ≤ n * 10 ^ e ∧
      (n : ℚ) * 10 ^ e < 10 ^ ((Nat.toDigits 10 n).length + e) := by
  have hlength : 0 < (Nat.toDigits 10 n).length := Nat.length_toDigits_pos
  have hpower : (0 : ℚ) < 10 ^ e := zpow_pos (by norm_num) e
  have hleast : (10 : ℚ) ^ ((Nat.toDigits 10 n).length - 1) ≤ n := by
    exact_mod_cast pow_length_toDigits_le hn
  have hless : (n : ℚ) < 10 ^ (Nat.toDigits 10 n).length := by
    exact_mod_cast (Nat.length_toDigits_le_iff (by decide) hlength).mp le_rfl
  have hleading : ((Nat.toDigits 10 n).length : Int) + e - 1 =
      ((Nat.toDigits 10 n).length - 1 : Nat) + e := by
    omega
  constructor
  · rw [hleading, zpow_add₀ (by norm_num), zpow_natCast]
    exact mul_le_mul_of_nonneg_right hleast hpower.le
  · rw [zpow_add₀ (by norm_num), zpow_natCast]
    exact mul_lt_mul_of_pos_right hless hpower

/-- The ends of the interval of a finite double, in quarters of a unit. -/
theorem bounds_of_contains
    {x : Double} (hx : x.isFinite = true) (hpos : 0 < x.significand) {q : ℚ}
    (h : (roundingInterval x).Contains q) :
    2 ≤ q ∧ q ≤ (2 ^ (55 + 2046) : Nat) := by
  obtain ⟨hmagnitude, -, hbelow⟩ := x.magnitude_eq
  have hfinite : x.magnitude < 2047 * leastSignificand := of_decide_eq_true hx
  have hbinade : x.binade ≤ 2046 := by
    by_contra hlarge
    have hmul := Nat.mul_le_mul_right leastSignificand (Nat.not_le.mp hlarge)
    omega
  have hlow : 2 ≤ (roundingInterval x).low := by
    have hmargin := lowerMargin_eq x.binade x.significand
    rw [roundingInterval_low]
    exact Nat.mul_le_mul (show 2 ≤ _ by omega)
      (Nat.one_le_two_pow (n := x.binade))
  have hhigh : (roundingInterval x).high ≤ 2 ^ (55 + 2046) := by
    have hsignificand : 4 * x.significand + 2 ≤ 2 ^ 55 := by
      rw [show leastSignificand = 2 ^ 52 from rfl] at hbelow
      omega
    rw [roundingInterval_high]
    exact mul_two_pow_le hsignificand hbinade
  have hends :
      ((roundingInterval x).low : ℚ) ≤ q ∧ q ≤ (roundingInterval x).high := by
    rw [RoundingInterval.Contains] at h
    split at h
    · exact h
    · exact ⟨h.1.le, h.2.le⟩
  exact ⟨le_trans (by exact_mod_cast hlow) hends.1,
    hends.2.trans (by exact_mod_cast hhigh)⟩

theorem place_of_contains
    {x : Double} (hx : x.isFinite = true) (hpos : 0 < x.significand) {n : Nat}
    {e : Int} (h : (roundingInterval x).Contains (n * 10 ^ e * quartersOfOne)) :
    n ≠ 0 ∧ -330 ≤ (Nat.toDigits 10 n).length + e ∧
      (Nat.toDigits 10 n).length + e ≤ 310 := by
  obtain ⟨hleast, hgreatest⟩ := bounds_of_contains hx hpos h
  have hn : n ≠ 0 := by
    rintro rfl
    rw [Nat.cast_zero, zero_mul, zero_mul] at hleast
    linarith
  obtain ⟨hleading, hplace⟩ := place_bounds (Nat.pos_of_ne_zero hn) e
  have hquarters : (0 : ℚ) < quartersOfOne := Nat.cast_pos.mpr quartersOfOne_pos
  generalize (Nat.toDigits 10 n).length + e = place at *
  refine ⟨hn, ?_, ?_⟩
  -- A quarter of a unit is more than the power of ten that bounds so small a
  -- number.
  · by_contra hsmall
    have hpower : (10 : ℚ) ^ place ≤ 10 ^ (-331 : Int) :=
      zpow_le_zpow_right₀ (by norm_num) (by omega)
    have htiny : (10 : ℚ) ^ (-331 : Int) * quartersOfOne ≤ 1 := by
      have hnat : quartersOfOne ≤ 10 ^ 331 := by decide +kernel
      rw [zpow_neg, inv_mul_le_one₀ (by positivity)]
      exact_mod_cast hnat
    have hvalue :
        (n : ℚ) * 10 ^ e * quartersOfOne ≤ 10 ^ (-331 : Int) * quartersOfOne :=
      mul_le_mul_of_nonneg_right (hplace.le.trans hpower) hquarters.le
    linarith
  · by_contra hlarge
    have hpower : (10 : ℚ) ^ (310 : Int) ≤ 10 ^ (place - 1) :=
      zpow_le_zpow_right₀ (by norm_num) (by omega)
    have hhuge :
        ((2 ^ (55 + 2046) : Nat) : ℚ) < 10 ^ (310 : Int) * quartersOfOne := by
      have hnat : 2 ^ (55 + 2046) < 10 ^ 310 * quartersOfOne := by
        decide +kernel
      exact_mod_cast hnat
    have hvalue :
        (10 : ℚ) ^ (310 : Int) * quartersOfOne ≤ n * 10 ^ e * quartersOfOne :=
      mul_le_mul_of_nonneg_right (hpower.trans hleading) hquarters.le
    exact absurd (hvalue.trans hgreatest) (not_le.mpr hhuge)

/-! ## Rounding what is read -/

theorem ofNumeral?_of_contains
    {x : Double} (hx : x.isFinite = true) (hpos : 0 < x.significand)
    {n : Numeral}
    (h : (roundingInterval x).Contains (n.value * quartersOfOne)) :
    ofNumeral? n = ofQuotient? n.negative n.numerator n.denominator := by
  obtain ⟨hn, hleast, hgreatest⟩ := place_of_contains hx hpos h
  rw [ofNumeral?, ofDecimal?, if_neg (by omega), if_neg (by omega),
    Numeral.numerator, Numeral.denominator]
  split
  · next hscale =>
    have hzero : (-n.scale).toNat = 0 := by omega
    rw [hzero]
    rfl
  · next hscale =>
    have hzero : n.scale.toNat = 0 := by omega
    rw [hzero]
    exact congrArg (ofQuotient? _ · _) (Nat.mul_one _).symm

theorem denominator_pos (n : Numeral) : 0 < n.denominator :=
  powerOfTen_pos _

/-- The double is nearest to the exact number that the numeral denotes, and has
the sign of it. -/
structure IsRounding (n : Numeral) (x : Double) : Prop where
  nearest : IsNearest (withSign n.negative n.numerator) n.denominator x
  sign : x.isNegative = n.negative

theorem isRounding_iff_of_ofQuotient?
    {n : Numeral} {x : Double}
    (h : ofQuotient? n.negative n.numerator n.denominator = some x)
    (y : Double) :
    IsRounding n y ↔ y = x := by
  obtain ⟨hnearest, hsign⟩ := isNearest_of_ofQuotient? (denominator_pos n) h
  constructor
  · intro hy
    exact hy.nearest.unique (denominator_pos n) hnearest
      (hy.sign.trans hsign.symm)
  · rintro rfl
    exact ⟨hnearest, hsign⟩

/-- The text is a numeral with a fraction or an exponent, and rounding the
number that it denotes gives the double and no other one. -/
def Spells (text : String) (x : Double) : Prop :=
  ∃ n : Numeral, Numeral.ofText? text = some n ∧ n.isWhole = false ∧
    (∀ y, IsRounding n y ↔ y = x) ∧ ofNumeral? n = some x

namespace Spells

variable {text : String} {x y : Double}

theorem unique (hx : Spells text x) (hy : Spells text y) : y = x := by
  obtain ⟨n, hn, -, hrounding, -⟩ := hx
  obtain ⟨n', hn', -, hrounding', -⟩ := hy
  obtain rfl : n = n' := Option.some.inj (hn.symm.trans hn')
  apply (hrounding y).mp
  exact (hrounding' y).mpr rfl

/-- A text that is a fraction or has an exponent is no text of an integer. -/
theorem ne_toString (hx : Spells text x) (n : Int) : text ≠ toString n := by
  intro htext
  obtain ⟨m, hm, hwhole, -⟩ := hx
  obtain ⟨m', hm', hwhole', -⟩ := Numeral.ofText?_integer_iff.mpr htext
  obtain rfl : m = m' := Option.some.inj (hm.symm.trans hm')
  rw [hwhole] at hwhole'
  cases hwhole'

end Spells

/-! ## Texts of finite doubles -/

theorem significand_pos
    {x : Double} (hx : x.magnitude ≠ 0) :
    0 < x.significand := by
  obtain ⟨hmagnitude, hleast, -⟩ := x.magnitude_eq
  have hpos : 0 < leastSignificand := by decide
  rcases hleast with hbinade | hleast
  · rw [hbinade] at hmagnitude
    omega
  · omega

theorem toList_sign (negative : Bool) :
    (if negative then "-" else "").toList = Decimal.writtenSign negative := by
  cases negative
  · rfl
  · rfl

def zeroNumeral (negative : Bool) : Numeral :=
  ⟨negative, ['0'], ['0'], none⟩

theorem wellFormed_zeroNumeral
    (negative : Bool) :
    (zeroNumeral negative).WellFormed :=
  (denotes_fraction (m := 0) negative 0).wellFormed

theorem ofQuotient?_zeroNumeral (negative : Bool) :
    ofQuotient? negative (zeroNumeral negative).numerator
      (zeroNumeral negative).denominator =
      some (ofMagnitude negative 0) := by
  cases negative with
  | false => decide +kernel
  | true => decide +kernel

/-- The numeral that a finite double is written as is rounded to the double. -/
theorem exists_numeral_finiteText {x : Double} (hx : x.isFinite = true) :
    ∃ n : Numeral, n.WellFormed ∧ n.isWhole = false ∧
      (x.finiteText attributeLayout).toList = n.written ∧
      ofQuotient? n.negative n.numerator n.denominator = some x ∧
      ofNumeral? n = some x := by
  have hself := x.ofMagnitude_self
  rw [finiteText]
  split
  · next hzero =>
    -- Zero is written without digits of its own; its rounding interval is not
    -- that of a positive number.
    rw [hzero] at hself
    refine ⟨zeroNumeral x.isNegative, wellFormed_zeroNumeral _, rfl, ?_, ?_,
      congrArg some hself⟩
    · rw [String.toList_append, toList_sign]
      rfl
    · exact (ofQuotient?_zeroNumeral x.isNegative).trans (congrArg some hself)
  · next hnonzero =>
    have hpos := significand_pos hnonzero
    obtain ⟨hdigits, hcontains⟩ := shortest_contains attributeLayout.tie hpos
    obtain ⟨n, hsign, hn, hwritten⟩ :=
      exists_denotes_toText hdigits x.isNegative
    rw [← hn.value] at hcontains
    have hnumeral := ofNumeral?_of_contains hx hpos hcontains
    rw [numeral_value_eq] at hcontains
    have hround :=
      ofQuotient?_of_contains hx (denominator_pos n) hcontains n.negative
    rw [hsign, hself, ← hsign] at hround
    refine ⟨n, hn.wellFormed, hn.notWhole, ?_, hround, hnumeral.trans hround⟩
    rw [String.toList_append, toList_sign, hwritten]

/-- The text of a finite double spells it, with a point or an exponent. -/
theorem spells_attributeText {x : Double} (hx : x.isFinite = true) :
    Spells x.attributeText x ∧
      ('.' ∈ x.attributeText.toList ∨ 'e' ∈ x.attributeText.toList) := by
  obtain ⟨n, hn, hwhole, hwritten, hquotient, hnumeral⟩ :=
    exists_numeral_finiteText hx
  rw [attributeText, if_pos hx]
  constructor
  · exact ⟨n, Numeral.ofText?_written hn hwritten, hwhole,
      isRounding_iff_of_ofQuotient? hquotient, hnumeral⟩
  · rw [hwritten]
    exact Numeral.mem_written hwhole

/-- The texts of infinities and of what is no number have neither a point nor an
exponent. -/
theorem isFinite_of_mem_attributeText
    {x : Double}
    (h : '.' ∈ x.attributeText.toList ∨ 'e' ∈ x.attributeText.toList) :
    x.isFinite = true := by
  by_contra hx
  rw [attributeText, if_neg hx] at h
  split at h
  · exact absurd h (by decide)
  · split at h
    · exact absurd h (by decide)
    · exact absurd h (by decide)

end Double

/-! ## Stored texts -/

namespace WireValue

/-- A finite double is stored as a text that spells it.  No other double is
stored as this text, and, as it has a point or an exponent, no integer is. -/
theorem decode_double_spells
    {x : Double} (hx : x.isFinite = true) (key : String) :
    ∃ text, (double x).decode key = .ok text ∧ Double.Spells text x ∧
      (∀ y key', (double y).decode key' = .ok text → y = x) ∧
      ('.' ∈ text.toList ∨ 'e' ∈ text.toList) ∧
      ∀ v n key', toInt? v = some n → v.decode key' ≠ .ok text := by
  obtain ⟨hspells, hmark⟩ := Double.spells_attributeText hx
  refine ⟨x.attributeText, rfl, hspells, fun y key' hy => ?_, hmark,
    fun v n key' hv hn => ?_⟩
  · have htext : y.attributeText = x.attributeText := Except.ok.inj hy
    rw [← htext] at hspells hmark
    obtain ⟨hspells', -⟩ :=
      Double.spells_attributeText (Double.isFinite_of_mem_attributeText hmark)
    exact hspells.unique hspells'
  · rw [decode_eq_ok_iff, toText?_of_toInt hv] at hn
    exact hspells.ne_toString n (Option.some.inj hn).symm

/-- The least positive double, minus zero and the largest double. -/
theorem decode_double_spells_extremes :
    ((double ⟨1⟩).decode "gap" = .ok "5e-324" ∧ Double.Spells "5e-324" ⟨1⟩) ∧
      ((double ⟨0x8000000000000000⟩).decode "gap" = .ok "-0.0" ∧
        Double.Spells "-0.0" ⟨0x8000000000000000⟩) ∧
      ((double ⟨0x7FEFFFFFFFFFFFFF⟩).decode "gap" =
          .ok "1.7976931348623157e308" ∧
        Double.Spells "1.7976931348623157e308" ⟨0x7FEFFFFFFFFFFFFF⟩) := by
  have hstored {x : Double} {text : String} (hx : x.isFinite = true)
      (htext : x.attributeText = text) :
      (double x).decode "gap" = .ok text ∧ Double.Spells text x := by
    obtain ⟨text', hdecode, hspells, -⟩ := decode_double_spells hx "gap"
    obtain rfl : x.attributeText = text' := Except.ok.inj hdecode
    rw [htext] at hdecode hspells
    exact ⟨hdecode, hspells⟩
  refine ⟨hstored (by decide) ?_, hstored (by decide) ?_,
    hstored (by decide) ?_⟩
  · decide +kernel
  · decide +kernel
  · decide +kernel

end WireValue

end LinkGraph
