import LinkGraph.Decimal.Numeral
import Mathlib.Data.List.TakeWhile

/-!
# Integers have one numeral

The digits of a natural number, with a sign before those of a negative integer,
are scanned as one numeral that denotes the integer.  As no numeral has
superfluous zeros, every numeral with neither point nor exponent is written this
way, minus zero apart.
-/

namespace LinkGraph.Decimal

/-! ## Digits -/

theorem isDigit_of_mem
    {m : Nat} {c : Char} (h : c ∈ Nat.toDigits 10 m) :
    c.isDigit = true :=
  Nat.isDigit_of_mem_toDigits (by decide) (by decide) h

/-- No digits of a number but those of zero start with a zero. -/
theorem eq_zero_of_toDigits
    {m : Nat} {rest : List Char} (h : Nat.toDigits 10 m = '0' :: rest) :
    m = 0 := by
  induction m using Nat.strongRecOn generalizing rest with
  | ind m ih =>
    rcases Nat.lt_or_ge m 10 with hm | hm
    · rw [Nat.toDigits_of_lt_base hm] at h
      exact Nat.digitChar_eq_zero.mp (List.cons.inj h).1
    · rw [Nat.toDigits_of_base_le (by decide) hm] at h
      obtain ⟨hnil, -⟩ | ⟨front, hfront, -⟩ := List.append_eq_cons_iff.mp h
      · exact absurd hnil Nat.toDigits_ne_nil
      · have hzero : m / 10 = 0 := ih (m / 10) (by omega) hfront
        omega

/-- The number that a digit stands for. -/
theorem digit_cases {c : Char} (h : c.isDigit = true) :
    c.toNat - '0'.toNat < 10 ∧ Nat.digitChar (c.toNat - '0'.toNat) = c := by
  obtain ⟨hlow, hhigh⟩ := Char.isDigit_iff_toNat.mp h
  change 48 ≤ c.toNat at hlow
  change c.toNat ≤ 57 at hhigh
  change c.toNat - 48 < 10 ∧ Nat.digitChar (c.toNat - 48) = c
  have hdigit : c.toNat - 48 < 10 := by omega
  refine ⟨hdigit, Char.toNat_inj.mp ?_⟩
  rw [Nat.toNat_digitChar_of_lt_ten hdigit]
  omega

/-- Digits after those of a positive number are digits of the number that all of
them denote. -/
theorem toDigits_ofDigitChars {cs : List Char} {m : Nat} (hm : 0 < m)
    (hcs : ∀ c ∈ cs, c.isDigit = true) :
    Nat.toDigits 10 (Nat.ofDigitChars 10 cs m) = Nat.toDigits 10 m ++ cs := by
  induction cs generalizing m with
  | nil => rw [Nat.ofDigitChars_nil, List.append_nil]
  | cons c cs ih =>
    obtain ⟨hc, hcs⟩ := List.forall_mem_cons.mp hcs
    obtain ⟨hdigit, hchar⟩ := digit_cases hc
    rw [Nat.ofDigitChars_cons, ih (by omega) hcs, ← Nat.toDigits_append_toDigits
      (by decide) hm hdigit, Nat.toDigits_of_lt_base hdigit, hchar,
      List.append_assoc, List.singleton_append]

/-- Digits of which a zero is the first only if it is the last are those of the
number they denote. -/
theorem toDigits_ofDigits
    {c : Char} {cs : List Char} (hdigits : ∀ d ∈ c :: cs, d.isDigit = true)
    (hzero : c = '0' → cs = []) :
    Nat.toDigits 10 (ofDigits (c :: cs)) = c :: cs := by
  obtain ⟨hc, hcs⟩ := List.forall_mem_cons.mp hdigits
  obtain ⟨hdigit, hchar⟩ := digit_cases hc
  rw [ofDigits, Nat.ofDigitChars_cons, Nat.mul_zero, Nat.zero_add]
  rcases Nat.eq_zero_or_pos (c.toNat - '0'.toNat) with hnull | hpos
  · rw [hnull] at hchar ⊢
    rw [hzero hchar.symm, Nat.ofDigitChars_nil, Nat.toDigits_zero]
    exact congrArg (· :: []) hchar
  · rw [toDigits_ofDigitChars hpos hcs, Nat.toDigits_of_lt_base hdigit, hchar]
    rfl

/-! ## Scanning -/

theorem spanDigits_toDigits (m : Nat) :
    spanDigits (Nat.toDigits 10 m) = (Nat.toDigits 10 m, []) := by
  have hdigits : ∀ c ∈ Nat.toDigits 10 m, c.isDigit := fun _ => isDigit_of_mem
  rw [spanDigits, List.takeWhile_eq_self_iff.mpr hdigits,
    List.dropWhile_eq_nil_iff.mpr hdigits]

theorem scanWhole_toDigits (m : Nat) :
    scanWhole (Nat.toDigits 10 m) = some (Nat.toDigits 10 m, []) := by
  rw [scanWhole, spanDigits_toDigits]
  split
  · next hnil => exact absurd (congrArg Prod.fst hnil) Nat.toDigits_ne_nil
  · next hdigits =>
    have hdigits := congrArg Prod.fst hdigits
    obtain rfl := eq_zero_of_toDigits hdigits
    cases hdigits
  · next hdigits => rw [← hdigits]

/-- The digits before the point are those of a number. -/
theorem scanWhole_eq_some
    {cs digits rest : List Char} (h : scanWhole cs = some (digits, rest)) :
    cs = digits ++ rest ∧ Nat.toDigits 10 (ofDigits digits) = digits := by
  have hsplit : cs = (spanDigits cs).1 ++ (spanDigits cs).2 :=
    List.takeWhile_append_dropWhile.symm
  have hall : ∀ c ∈ (spanDigits cs).1, c.isDigit = true :=
    List.all_eq_true.mp List.all_takeWhile
  rw [scanWhole] at h
  generalize spanDigits cs = span at h hsplit hall
  split at h
  · cases h
  · cases h
  · next digits' rest' hnil hzero =>
    cases h
    refine ⟨hsplit, ?_⟩
    cases digits with
    | nil => exact absurd rfl hnil
    | cons c ds =>
      refine toDigits_ofDigits hall ?_
      rintro rfl
      cases ds with
      | nil => rfl
      | cons d ds => exact absurd rfl (hzero d ds)

theorem scanFraction_nil
    {cs rest : List Char} (h : scanFraction cs = some ([], rest)) :
    cs = rest := by
  unfold scanFraction at h
  split at h
  · split at h
    · cases h
    · next hnil _ =>
      cases h
      exact absurd rfl hnil
  · cases h
    rfl

theorem scanExponent_none
    {cs rest : List Char} (h : scanExponent cs = some (none, rest)) :
    cs = rest := by
  unfold scanExponent at h
  split at h
  · obtain ⟨_, -, hsome⟩ := Option.map_eq_some_iff.mp h
    cases hsome
  · obtain ⟨_, -, hsome⟩ := Option.map_eq_some_iff.mp h
    cases hsome
  · cases h
    rfl

/-! ## Integers -/

namespace Numeral

def scanUnsigned
    (negative : Bool) (cs : List Char) : Option (Numeral × List Char) := do
  let (whole, cs) ← scanWhole cs
  let (fraction, cs) ← scanFraction cs
  let (exponent, cs) ← scanExponent cs
  return (⟨negative, whole, fraction, exponent⟩, cs)

theorem scan_minus (cs : List Char) : scan ('-' :: cs) = scanUnsigned true cs :=
  rfl

theorem scan_unsigned {cs : List Char} (h : ∀ rest, cs ≠ '-' :: rest) :
    scan cs = scanUnsigned false cs := by
  rw [scan]
  · rfl
  · exact h

/-- The numeral of the digits of a number, with a sign or without. -/
def ofNat (negative : Bool) (m : Nat) : Numeral :=
  ⟨negative, Nat.toDigits 10 m, [], none⟩

theorem toInt_ofNat (negative : Bool) (m : Nat) :
    (ofNat negative m).toInt = if negative then -(m : Int) else m := by
  rw [toInt, significand, ofDigits, ofNat, List.append_nil,
    Nat.ofDigitChars_ten_toDigits]

theorem scanUnsigned_toDigits (negative : Bool) (m : Nat) :
    scanUnsigned negative (Nat.toDigits 10 m) =
      some (ofNat negative m, []) := by
  rw [scanUnsigned, scanWhole_toDigits]
  rfl

/-- A numeral without point and exponent consists of the digits of a number. -/
theorem scanUnsigned_whole
    {negative : Bool} {cs rest : List Char} {x : Numeral}
    (h : scanUnsigned negative cs = some (x, rest))
    (hwhole : x.isWhole = true) :
    ∃ m, x = ofNat negative m ∧ cs = Nat.toDigits 10 m ++ rest := by
  simp only [scanUnsigned, Option.bind_eq_bind, Option.bind_eq_some_iff] at h
  obtain ⟨⟨whole, cs₁⟩, hscan, ⟨fraction, cs₂⟩, hfraction, ⟨exponent, cs₃⟩,
      hexponent, hx⟩ := h
  cases hx
  obtain ⟨hnil, hnone⟩ := Bool.and_eq_true_iff.mp hwhole
  obtain rfl : fraction = [] := List.isEmpty_iff.mp hnil
  obtain rfl : exponent = none := Option.isNone_iff_eq_none.mp hnone
  obtain rfl := scanFraction_nil hfraction
  obtain rfl := scanExponent_none hexponent
  obtain ⟨rfl, hdigits⟩ := scanWhole_eq_some hscan
  refine ⟨ofDigits whole, ?_, by rw [hdigits]⟩
  rw [ofNat, hdigits]

theorem toList_toString_ofNat
    (m : Nat) :
    (toString (m : Int)).toList = Nat.toDigits 10 m :=
  Nat.toList_repr

theorem toList_toString_negSucc (m : Nat) :
    (toString (Int.negSucc m)).toList = '-' :: Nat.toDigits 10 (m + 1) := by
  change ("-" ++ (m + 1).repr).toList = _
  rw [String.toList_append, Nat.toList_repr]
  rfl

theorem ofText?_eq_some_iff {s : String} {x : Numeral} :
    ofText? s = some x ↔ scan s.toList = some (x, []) := by
  rw [ofText?]
  constructor
  · intro h
    split at h
    · next hscan =>
      cases h
      exact hscan
    · cases h
  · intro h
    rw [h]

/-- An integer is written as a numeral without point and exponent that denotes
it, and nothing else is, but that zero may be written with a sign. -/
theorem ofText?_integer_iff {s : String} {n : Int} :
    (∃ x, ofText? s = some x ∧ x.isWhole = true ∧ x.toInt = n ∧
      ¬(x.negative = true ∧ n = 0)) ↔
      s = toString n := by
  simp only [ofText?_eq_some_iff]
  constructor
  · rintro ⟨x, hscan, hwhole, hn, hzero⟩
    by_cases hsign : ∃ rest, s.toList = '-' :: rest
    · obtain ⟨rest, hs⟩ := hsign
      rw [hs, scan_minus] at hscan
      obtain ⟨m, rfl, hrest⟩ := scanUnsigned_whole hscan hwhole
      rw [toInt_ofNat, if_pos rfl] at hn
      cases m with
      | zero => exact absurd ⟨rfl, hn.symm⟩ hzero
      | succ m =>
        obtain rfl : Int.negSucc m = n := hn
        apply String.toList_injective
        rw [toList_toString_negSucc, hs, hrest, List.append_nil]
    · rw [scan_unsigned (not_exists.mp hsign)] at hscan
      obtain ⟨m, rfl, hrest⟩ := scanUnsigned_whole hscan hwhole
      obtain rfl : (m : Int) = n := by
        rw [← hn, toInt_ofNat]
        rfl
      apply String.toList_injective
      rw [toList_toString_ofNat, hrest, List.append_nil]
  · rintro rfl
    cases n with
    | ofNat m =>
      have hunsigned : ∀ rest, Nat.toDigits 10 m ≠ '-' :: rest := by
        intro rest h
        have hdigit : '-'.isDigit = true :=
          isDigit_of_mem (m := m) (h ▸ List.mem_cons_self)
        cases hdigit
      refine ⟨ofNat false m, ?_, rfl, toInt_ofNat false m,
        fun h => Bool.noConfusion h.1⟩
      change scan (toString (m : Int)).toList = _
      rw [toList_toString_ofNat, scan_unsigned hunsigned, scanUnsigned_toDigits]
    | negSucc m =>
      refine ⟨ofNat true (m + 1), ?_, rfl, toInt_ofNat true (m + 1),
        fun h => Int.noConfusion h.2⟩
      rw [toList_toString_negSucc, scan_minus, scanUnsigned_toDigits]

end Numeral

end LinkGraph.Decimal
