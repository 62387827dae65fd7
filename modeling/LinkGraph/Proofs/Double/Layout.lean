import LinkGraph.Double.Layout
import LinkGraph.Proofs.Decimal.Written
import LinkGraph.Proofs.Double.Shortest

/-!
# Texts of finite doubles are read back

The text of a finite double is a numeral with a fraction or an exponent.
However the digits are laid out, the numeral denotes the number that the digits
stand for, which is rounded to the double that they were chosen for.
-/

namespace LinkGraph

open Decimal (Numeral ofDigits)

/-! ## The number that a numeral denotes -/

namespace Decimal.Numeral

/-- The number that a numeral denotes, without its sign. -/
def value (x : Numeral) : ℚ :=
  x.significand * 10 ^ x.scale

/-- The number as a quotient of natural numbers. -/
def numerator (x : Numeral) : Nat :=
  x.significand * powerOfTen x.scale.toNat

def denominator (x : Numeral) : Nat :=
  powerOfTen (-x.scale).toNat

end Decimal.Numeral

namespace Double

theorem numeral_value_eq
    (x : Numeral) :
    x.value = x.numerator / x.denominator := by
  rw [Numeral.value, ten_zpow_eq, Numeral.numerator, Numeral.denominator]
  push_cast
  ring

/-! ## Digits as they are written -/

/-- The numeral denotes the number that digits stand for, and is not taken for
an integer. -/
structure Denotes (x : Numeral) (d : Digits) : Prop where
  wellFormed : x.WellFormed
  value : x.value = d.value
  notWhole : x.isWhole = false

namespace Digits

variable {d : Digits}

/-- Zeros at the end are cut off. -/
theorem trim_eq (d : Digits) :
    ∃ zeros : Nat, d.digits = d.trim.digits * 10 ^ zeros ∧
      d.trim.exponent = d.exponent + zeros := by
  obtain ⟨m, hm⟩ := Decimal.exists_ofDigits_eq_mul (Nat.toDigits 10 d.digits)
  rw [Decimal.ofDigits_toDigits] at hm
  refine ⟨_, ?_, rfl⟩
  exact (Nat.div_mul_cancel ⟨m, hm.trans (Nat.mul_comm _ _)⟩).symm

theorem trim_value (d : Digits) : d.trim.value = d.value := by
  obtain ⟨zeros, hdigits, hexponent⟩ := d.trim_eq
  rw [value, value, hdigits, hexponent, zpow_add₀ (by norm_num), zpow_natCast]
  push_cast
  ring

theorem trim_digits_ne_zero (hd : d.digits ≠ 0) : d.trim.digits ≠ 0 := by
  obtain ⟨zeros, hdigits, -⟩ := d.trim_eq
  intro hzero
  rw [hzero, Nat.zero_mul] at hdigits
  exact hd hdigits

theorem value_of_significand
    {x : Numeral} {d : Digits} (hdigits : x.significand = d.digits)
    (hscale : x.scale = d.exponent) :
    x.value = d.value := by
  rw [Numeral.value, hdigits, hscale, value]

end Digits

section Layouts

variable {m : Nat} (hm : m ≠ 0) (negative : Bool)

include hm

/-- The digits of a positive number start with no zero. -/
theorem toDigits_ne_zero_cons
    (rest : List Char) :
    Nat.toDigits 10 m ≠ '0' :: rest := by
  intro h
  exact hm (Decimal.eq_zero_of_toDigits h)

/-- Digits, zeros, and a fraction that is zero. -/
theorem denotes_whole (n : Nat) :
    Denotes ⟨negative, Nat.toDigits 10 m ++ List.replicate n '0', ['0'],
      none⟩ ⟨m, n⟩ where
  wellFormed := by
    refine ⟨fun c hc => ?_, ?_, fun rest hrest => ?_, fun c hc => ?_⟩
    · rcases List.mem_append.mp hc with hc | hc
      · exact Decimal.isDigit_of_mem hc
      · rw [List.eq_of_mem_replicate hc]
        rfl
    · exact List.append_ne_nil_of_left_ne_nil Nat.toDigits_ne_nil _
    · obtain ⟨c, cs, hcs⟩ :=
        List.exists_cons_of_ne_nil (Nat.toDigits_ne_nil (n := m) (b := 10))
      rw [hcs, List.cons_append] at hrest
      obtain ⟨rfl, -⟩ := List.cons.inj hrest
      exact absurd hcs (toDigits_ne_zero_cons hm cs)
    · rw [List.mem_singleton.mp hc]
      rfl
  value := by
    have hdigits :
        ofDigits (Nat.toDigits 10 m ++ List.replicate n '0' ++ ['0']) =
          m * 10 ^ (n + 1) := by
      rw [List.append_assoc, ← List.replicate_succ', Decimal.ofDigits_append,
        Decimal.ofDigits_toDigits, Decimal.ofDigits_replicate_zero,
        List.length_replicate, Nat.add_zero]
    have hscale :
        Numeral.scale ⟨negative,
          Nat.toDigits 10 m ++ List.replicate n '0', ['0'], none⟩ = -1 := rfl
    rw [Numeral.value, Numeral.significand, hdigits, hscale, Digits.value,
      zpow_natCast]
    push_cast
    rw [pow_succ, zpow_neg_one]
    ring
  notWhole := rfl

omit hm in
/-- A zero, and a fraction that starts with zeros. -/
theorem denotes_fraction (n : Nat) :
    Denotes ⟨negative, ['0'], List.replicate n '0' ++ Nat.toDigits 10 m, none⟩
      ⟨m, -(n + (Nat.toDigits 10 m).length : Nat)⟩ where
  wellFormed := by
    refine ⟨fun c hc => ?_, List.cons_ne_nil _ _, fun rest hrest => ?_,
      fun c hc => ?_⟩
    · rw [List.mem_singleton.mp hc]
      rfl
    · exact (List.cons.inj hrest).2.symm
    · rcases List.mem_append.mp hc with hc | hc
      · rw [List.eq_of_mem_replicate hc]
        rfl
      · exact Decimal.isDigit_of_mem hc
  value := by
    apply Digits.value_of_significand
    · rw [Numeral.significand, ← List.append_assoc]
      have hzeros : ofDigits (['0'] ++ List.replicate n '0') = 0 :=
        Decimal.ofDigits_replicate_zero (n + 1)
      rw [Decimal.ofDigits_append, hzeros, Nat.zero_mul, Nat.zero_add,
        Decimal.ofDigits_toDigits]
    · rw [Numeral.scale, List.length_append, List.length_replicate]
      exact Int.zero_sub _
  notWhole := by
    have hne : List.replicate n '0' ++ Nat.toDigits 10 m ≠ [] :=
      List.append_ne_nil_of_right_ne_nil _ Nat.toDigits_ne_nil
    simp [Numeral.isWhole, hne]

/-- A point between the digits. -/
theorem denotes_split
    {p : Nat} (hp : 0 < p) (hlength : p < (Nat.toDigits 10 m).length) :
    Denotes ⟨negative, (Nat.toDigits 10 m).take p,
      (Nat.toDigits 10 m).drop p, none⟩
      ⟨m, p - (Nat.toDigits 10 m).length⟩ where
  wellFormed := by
    obtain ⟨c, cs, hcs⟩ :=
      List.exists_cons_of_ne_nil (Nat.toDigits_ne_nil (n := m) (b := 10))
    obtain ⟨q, rfl⟩ := Nat.exists_eq_succ_of_ne_zero hp.ne'
    have htake : (Nat.toDigits 10 m).take (q + 1) = c :: cs.take q := by
      rw [hcs, List.take_succ_cons]
    refine ⟨fun d hd => ?_, ?_, fun rest hrest => ?_, fun d hd => ?_⟩
    · exact Decimal.isDigit_of_mem (List.mem_of_mem_take hd)
    · rw [htake]
      exact List.cons_ne_nil _ _
    · obtain ⟨rfl, -⟩ := List.cons.inj (htake.symm.trans hrest)
      exact absurd hcs (toDigits_ne_zero_cons hm cs)
    · exact Decimal.isDigit_of_mem (List.mem_of_mem_drop hd)
  value := by
    apply Digits.value_of_significand
    · rw [Numeral.significand, List.take_append_drop, Decimal.ofDigits_toDigits]
    · rw [Numeral.scale, List.length_drop]
      dsimp only [Option.getD_none]
      omega
  notWhole := by
    have hne : (Nat.toDigits 10 m).drop p ≠ [] := by
      rw [Ne, List.drop_eq_nil_iff]
      omega
    simp [Numeral.isWhole, hne]

omit hm in
/-- One digit, the other digits as a fraction, and an exponent. -/
theorem denotes_scientific
    {c : Char} {cs : List Char} (hcs : Nat.toDigits 10 m = c :: cs) (n : Int) :
    Denotes ⟨negative, [c], cs, some n⟩ ⟨m, n - cs.length⟩ where
  wellFormed := by
    have hdigits : ∀ d ∈ c :: cs, d.isDigit = true := fun d hd =>
      Decimal.isDigit_of_mem (m := m) (hcs ▸ hd)
    obtain ⟨hleading, hothers⟩ := List.forall_mem_cons.mp hdigits
    refine ⟨fun d hd => ?_, List.cons_ne_nil _ _, fun rest hrest => ?_, hothers⟩
    · rw [List.mem_singleton.mp hd]
      exact hleading
    · exact (List.cons.inj hrest).2.symm
  value := by
    apply Digits.value_of_significand
    · rw [Numeral.significand, List.singleton_append, ← hcs,
        Decimal.ofDigits_toDigits]
    · rfl
  notWhole := Bool.and_false _

end Layouts

/-! ## Texts -/

/-- Digits with a point are a numeral with a fraction. -/
theorem exists_denotes_plain
    {d : Digits} (hd : d.digits ≠ 0) (negative : Bool) :
    ∃ x : Numeral, x.negative = negative ∧ Denotes x d ∧
      x.written = Decimal.writtenSign negative ++ d.plain.toList := by
  obtain ⟨m, e⟩ := d
  change m ≠ 0 at hd
  rw [Digits.plain]
  dsimp only
  split
  · next hwhole =>
    obtain ⟨n, rfl⟩ := Int.eq_ofNat_of_zero_le hwhole
    refine ⟨_, rfl, denotes_whole hd negative n, ?_⟩
    rw [String.toList_ofList]
    rfl
  · split
    · next hsmall =>
      obtain ⟨n, rfl⟩ :
          ∃ n : Nat, e = -(n + (Nat.toDigits 10 m).length : Nat) :=
        ⟨(-((Nat.toDigits 10 m).length + e)).toNat, by omega⟩
      refine ⟨_, rfl, denotes_fraction negative n, ?_⟩
      have hzeros :
          (-((Nat.toDigits 10 m).length +
            -((n + (Nat.toDigits 10 m).length : Nat) : Int))).toNat = n := by
        omega
      have hne : List.replicate n '0' ++ Nat.toDigits 10 m ≠ [] :=
        List.append_ne_nil_of_right_ne_nil _ Nat.toDigits_ne_nil
      rw [String.toList_ofList, hzeros, Numeral.written,
        Decimal.writtenFraction_of_ne_nil hne]
      simp [Decimal.writtenExponent]
    · next hplace =>
      obtain ⟨p, rfl⟩ : ∃ p : Nat, e = p - (Nat.toDigits 10 m).length :=
        ⟨((Nat.toDigits 10 m).length + e).toNat, by omega⟩
      refine ⟨_, rfl, denotes_split hd negative (p := p) (by omega) (by omega), ?_⟩
      have hpoint : ((Nat.toDigits 10 m).length +
          ((p : Int) - (Nat.toDigits 10 m).length)).toNat = p := by
        omega
      have hne : (Nat.toDigits 10 m).drop p ≠ [] := by
        rw [Ne, List.drop_eq_nil_iff]
        omega
      rw [String.toList_ofList, hpoint, Numeral.written,
        Decimal.writtenFraction_of_ne_nil hne]
      simp [Decimal.writtenExponent]

/-- Digits with an exponent are a numeral with an exponent. -/
theorem exists_denotes_scientific {d : Digits} (negative : Bool) :
    ∃ x : Numeral, x.negative = negative ∧ Denotes x d ∧
      x.written = Decimal.writtenSign negative ++
        (d.scientific attributeLayout).toList := by
  obtain ⟨m, e⟩ := d
  obtain ⟨c, cs, hcs⟩ :=
    List.exists_cons_of_ne_nil (Nat.toDigits_ne_nil (n := m) (b := 10))
  obtain ⟨n, rfl⟩ : ∃ n : Int, e = n - cs.length := ⟨e + cs.length, by omega⟩
  refine ⟨_, rfl, denotes_scientific negative hcs n, ?_⟩
  rw [Digits.scientific]
  dsimp only
  have hleading : ((c :: cs).length : Int) + (n - cs.length) - 1 = n := by
    rw [List.length_cons]
    push_cast
    ring
  rw [hcs, hleading]
  cases cs with
  | nil =>
    simp [Numeral.written, Decimal.writtenFraction, Decimal.writtenExponent,
      attributeLayout]
  | cons d ds =>
    simp [Numeral.written, Decimal.writtenFraction, Decimal.writtenExponent,
      attributeLayout]

/-- Digits that are no zero are written as a numeral with a fraction or an
exponent, which denotes the number that the digits stand for. -/
theorem exists_denotes_toText
    {d : Digits} (hd : d.digits ≠ 0) (negative : Bool) :
    ∃ x : Numeral, x.negative = negative ∧ Denotes x d ∧
      x.written = Decimal.writtenSign negative ++
        (d.toText attributeLayout).toList := by
  have htrim : ∀ {x : Numeral}, Denotes x d.trim → Denotes x d := fun hx =>
    ⟨hx.wellFormed, hx.value.trans d.trim_value, hx.notWhole⟩
  rw [Digits.toText]
  split
  · obtain ⟨x, hsign, hx, hwritten⟩ :=
      exists_denotes_plain (Digits.trim_digits_ne_zero hd) negative
    exact ⟨x, hsign, htrim hx, hwritten⟩
  · obtain ⟨x, hsign, hx, hwritten⟩ :=
      exists_denotes_scientific (d := d.trim) negative
    exact ⟨x, hsign, htrim hx, hwritten⟩

end Double

end LinkGraph
