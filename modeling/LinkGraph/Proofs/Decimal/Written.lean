import LinkGraph.Proofs.Decimal.Numeral
import Mathlib.Algebra.Group.Nat.Defs

/-!
# Numerals are read as they are written

A numeral whose digits are well-formed is written as its sign, its digits before
and after the point and its exponent, of which the point and the exponent are
left out when there is nothing to write after them.  What is written is scanned
as the numeral that it was written from.
-/

namespace LinkGraph.Decimal

/-! ## Digits -/

theorem ofDigits_toDigits (m : Nat) : ofDigits (Nat.toDigits 10 m) = m :=
  Nat.ofDigitChars_ten_toDigits

theorem ofDigits_append (front back : List Char) :
    ofDigits (front ++ back) =
      ofDigits front * 10 ^ back.length + ofDigits back := by
  rw [ofDigits, Nat.ofDigitChars_append, Nat.ofDigitChars_eq_ofDigitChars_zero,
    Nat.mul_comm, ofDigits, ofDigits]

theorem ofDigits_replicate_zero
    (n : Nat) :
    ofDigits (List.replicate n '0') = 0 := by
  rw [ofDigits, Nat.ofDigitChars_replicate_zero, Nat.mul_zero]

/-- Zeros at the end multiply by powers of ten. -/
theorem exists_ofDigits_eq_mul (cs : List Char) :
    ∃ m, ofDigits cs = m * 10 ^ (cs.reverse.takeWhile (· = '0')).length := by
  have hzeros : (cs.reverse.takeWhile (· = '0')).reverse =
      List.replicate (cs.reverse.takeWhile (· = '0')).length '0' := by
    rw [List.eq_replicate_iff, List.length_reverse]
    refine ⟨rfl, fun c hc => ?_⟩
    exact of_decide_eq_true
      (List.all_eq_true.mp List.all_takeWhile c (List.mem_reverse.mp hc))
  have hsplit : cs = (cs.reverse.dropWhile (· = '0')).reverse ++
      List.replicate (cs.reverse.takeWhile (· = '0')).length '0' := by
    rw [← hzeros, ← List.reverse_append, List.takeWhile_append_dropWhile,
      List.reverse_reverse]
  refine ⟨ofDigits (cs.reverse.dropWhile (· = '0')).reverse,
    (congrArg ofDigits hsplit).trans ?_⟩
  rw [ofDigits_append, ofDigits_replicate_zero, List.length_replicate,
    Nat.add_zero]

/-- No digit stands at the front. -/
def EndsDigits (rest : List Char) : Prop :=
  ∀ c cs, rest = c :: cs → c.isDigit = false

theorem endsDigits_nil : EndsDigits [] := by
  intro c cs h
  cases h

theorem endsDigits_cons {c : Char} (h : c.isDigit = false) (rest : List Char) :
    EndsDigits (c :: rest) := by
  intro d ds heq
  cases heq
  exact h

theorem spanDigits_append
    {digits rest : List Char} (hdigits : ∀ c ∈ digits, c.isDigit = true)
    (hrest : EndsDigits rest) :
    spanDigits (digits ++ rest) = (digits, rest) := by
  rw [spanDigits, List.takeWhile_append_of_pos hdigits,
    List.dropWhile_append_of_pos hdigits]
  cases rest with
  | nil => rw [List.takeWhile_nil, List.dropWhile_nil, List.append_nil]
  | cons c cs =>
    have hc := Bool.eq_false_iff.mp (hrest c cs rfl)
    rw [List.takeWhile_cons_of_neg hc, List.dropWhile_cons_of_neg hc,
      List.append_nil]

/-! ## What is written -/

def writtenSign (negative : Bool) : List Char :=
  if negative then ['-'] else []

/-- What is written after the digits before the point. -/
def writtenFraction : List Char → List Char
  | [] => []
  | c :: cs => '.' :: c :: cs

theorem writtenFraction_of_ne_nil {fraction : List Char} (h : fraction ≠ []) :
    writtenFraction fraction = '.' :: fraction := by
  obtain ⟨c, cs, rfl⟩ := List.exists_cons_of_ne_nil h
  rfl

def writtenExponent : Option Int → List Char
  | none => []
  | some n => 'e' :: (toString n).toList

namespace Numeral

def written (x : Numeral) : List Char :=
  writtenSign x.negative ++
    (x.whole ++ (writtenFraction x.fraction ++ writtenExponent x.exponent))

/-- The digits are digits, and there are some before the point, a zero only if
it is alone. -/
structure WellFormed (x : Numeral) : Prop where
  whole_digits : ∀ c ∈ x.whole, c.isDigit = true
  whole_ne_nil : x.whole ≠ []
  whole_zero (rest : List Char) : x.whole = '0' :: rest → rest = []
  fraction_digits : ∀ c ∈ x.fraction, c.isDigit = true

end Numeral

/-! ## Scanning what is written -/

/-- The digits of an exponent after its sign. -/
def scanMagnitude
    (negative : Bool) (cs : List Char) : Option (Int × List Char) :=
  match spanDigits cs with
  | ([], _) => none
  | (digits, rest) =>
    some (if negative then -(ofDigits digits : Int) else ofDigits digits, rest)

theorem scanSigned_minus
    (cs : List Char) :
    scanSigned ('-' :: cs) = scanMagnitude true cs :=
  rfl

theorem scanSigned_unsigned
    {cs : List Char} (hminus : ∀ rest, cs ≠ '-' :: rest)
    (hplus : ∀ rest, cs ≠ '+' :: rest) :
    scanSigned cs = scanMagnitude false cs := by
  rw [scanSigned]
  · rfl
  · exact hminus
  · exact hplus

theorem scanMagnitude_toDigits (negative : Bool) (m : Nat) :
    scanMagnitude negative (Nat.toDigits 10 m) =
      some (if negative then -(m : Int) else m, []) := by
  rw [scanMagnitude, spanDigits_toDigits]
  split
  · next hnil => exact absurd (congrArg Prod.fst hnil) Nat.toDigits_ne_nil
  · next hdigits =>
    obtain ⟨rfl, rfl⟩ := Prod.mk.inj hdigits
    rw [ofDigits_toDigits]

/-- A number does not start with a character that is no digit. -/
theorem toDigits_ne_cons
    {c : Char} (hc : c.isDigit = false) (m : Nat) (rest : List Char) :
    Nat.toDigits 10 m ≠ c :: rest := by
  intro h
  have hdigit : c.isDigit = true :=
    isDigit_of_mem (m := m) (h ▸ List.mem_cons_self)
  rw [hc] at hdigit
  cases hdigit

theorem scanSigned_toString
    (n : Int) :
    scanSigned (toString n).toList = some (n, []) := by
  cases n with
  | ofNat m =>
    change scanSigned (toString (m : Int)).toList = some ((m : Int), [])
    rw [Numeral.toList_toString_ofNat, scanSigned_unsigned
      (toDigits_ne_cons (by decide) m) (toDigits_ne_cons (by decide) m),
      scanMagnitude_toDigits, if_neg Bool.false_ne_true]
  | negSucc m =>
    rw [Numeral.toList_toString_negSucc, scanSigned_minus,
      scanMagnitude_toDigits, if_pos rfl]
    rfl

theorem scanExponent_written (exponent : Option Int) :
    scanExponent (writtenExponent exponent) = some (exponent, []) := by
  cases exponent with
  | none => rfl
  | some n =>
    rw [writtenExponent, scanExponent, scanSigned_toString, Option.map_some]

theorem endsDigits_writtenExponent (exponent : Option Int) :
    EndsDigits (writtenExponent exponent) := by
  cases exponent with
  | none => exact endsDigits_nil
  | some n => exact endsDigits_cons (by decide) _

theorem scanFraction_written
    {fraction : List Char} (hdigits : ∀ c ∈ fraction, c.isDigit = true)
    (exponent : Option Int) :
    scanFraction (writtenFraction fraction ++ writtenExponent exponent) =
      some (fraction, writtenExponent exponent) := by
  cases fraction with
  | nil =>
    cases exponent with
    | none => rfl
    | some n => rfl
  | cons c cs =>
    have hspan :=
      spanDigits_append hdigits (endsDigits_writtenExponent exponent)
    rw [writtenFraction, List.cons_append, scanFraction, hspan]

theorem endsDigits_writtenFraction
    (fraction : List Char) (exponent : Option Int) :
    EndsDigits (writtenFraction fraction ++ writtenExponent exponent) := by
  cases fraction with
  | nil => exact endsDigits_writtenExponent exponent
  | cons c cs => exact endsDigits_cons (by decide) _

namespace Numeral

theorem scanWhole_written
    {x : Numeral} (h : x.WellFormed) {rest : List Char}
    (hrest : EndsDigits rest) :
    scanWhole (x.whole ++ rest) = some (x.whole, rest) := by
  rw [scanWhole, spanDigits_append h.whole_digits hrest]
  split
  · next hnil => exact absurd (congrArg Prod.fst hnil) h.whole_ne_nil
  · next hzero =>
    have hrest := h.whole_zero _ (congrArg Prod.fst hzero)
    cases hrest
  · next hdigits => rw [← hdigits]

/-- What is written is scanned as the numeral that it was written from. -/
theorem scan_written
    {x : Numeral} (h : x.WellFormed) :
    scan x.written = some (x, []) := by
  have hunsigned : scanUnsigned x.negative
      (x.whole ++ (writtenFraction x.fraction ++ writtenExponent x.exponent)) =
        some (x, []) := by
    rw [scanUnsigned, scanWhole_written h (endsDigits_writtenFraction _ _)]
    change (scanFraction _ >>= _) = _
    rw [scanFraction_written h.fraction_digits]
    change (scanExponent _ >>= _) = _
    rw [scanExponent_written]
    rfl
  rw [written]
  cases hsign : x.negative with
  | true =>
    rw [hsign] at hunsigned
    exact hunsigned
  | false =>
    rw [hsign] at hunsigned
    rw [writtenSign, if_neg Bool.false_ne_true, List.nil_append, scan_unsigned,
      hunsigned]
    intro rest heq
    obtain ⟨c, cs, hwhole⟩ := List.exists_cons_of_ne_nil h.whole_ne_nil
    rw [hwhole, List.cons_append] at heq
    have hdigit := h.whole_digits c (hwhole ▸ List.mem_cons_self)
    rw [(List.cons.inj heq).1] at hdigit
    cases hdigit

/-- A point or an exponent mark shows that a numeral is no integer. -/
theorem mem_written
    {x : Numeral} (h : x.isWhole = false) :
    '.' ∈ x.written ∨ 'e' ∈ x.written := by
  obtain ⟨negative, whole, fraction, exponent⟩ := x
  cases fraction with
  | cons c cs =>
    left
    simp [written, writtenFraction]
  | nil =>
    cases exponent with
    | some n =>
      right
      simp [written, writtenExponent]
    | none => cases h

theorem ofText?_written
    {x : Numeral} (h : x.WellFormed) {s : String} (hs : s.toList = x.written) :
    ofText? s = some x := by
  rw [ofText?_eq_some_iff, hs, scan_written h]

end Numeral

end LinkGraph.Decimal
