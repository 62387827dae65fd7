import LinkGraph.Text.Base64

/-!
# Base64 has one spelling

Bytes are read back from their base64 text, and a text that is read as bytes is
the one that these bytes are written as: every group of characters that is
accepted consists of the digits of the bytes it denotes.
-/

namespace LinkGraph.Text

/-! ## Digits -/

theorem base64Value?_digit :
    ∀ n < 64, base64Value? (base64Digit n) = some n := by
  decide

theorem base64Digit_ne_pad : ∀ n < 64, base64Digit n ≠ '=' := by
  decide

theorem toNat_of_between {low high c : Char} (h : low ≤ c ∧ c ≤ high) :
    low.toNat ≤ c.toNat ∧ c.toNat ≤ high.toNat :=
  ⟨UInt32.le_iff_toNat_le.mp h.1, UInt32.le_iff_toNat_le.mp h.2⟩

theorem ofNat_eq_of_toNat_eq
    {c : Char} {n : Nat} (h : n = c.toNat) :
    Char.ofNat n = c := by
  rw [h, Char.ofNat_toNat]

/-- A character with a value is the digit of that value. -/
theorem base64Digit_of_value
    {c : Char} {n : Nat} (h : base64Value? c = some n) :
    n < 64 ∧ base64Digit n = c := by
  rw [base64Value?] at h
  split at h
  · next hrange =>
    obtain ⟨hlow, hhigh⟩ := toNat_of_between hrange
    obtain rfl := Option.some.inj h
    change 65 ≤ c.toNat at hlow
    change c.toNat ≤ 90 at hhigh
    rw [base64Digit, if_pos (by omega)]
    exact ⟨by omega, ofNat_eq_of_toNat_eq (by omega)⟩
  split at h
  · next hrange =>
    obtain ⟨hlow, hhigh⟩ := toNat_of_between hrange
    obtain rfl := Option.some.inj h
    change 97 ≤ c.toNat at hlow
    change c.toNat ≤ 122 at hhigh
    rw [base64Digit, if_neg (by omega), if_pos (by omega)]
    exact ⟨by omega, ofNat_eq_of_toNat_eq (by omega)⟩
  split at h
  · next hrange =>
    obtain ⟨hlow, hhigh⟩ := toNat_of_between hrange
    obtain rfl := Option.some.inj h
    change 48 ≤ c.toNat at hlow
    change c.toNat ≤ 57 at hhigh
    rw [base64Digit, if_neg (by omega), if_neg (by omega), if_pos (by omega)]
    exact ⟨by omega, ofNat_eq_of_toNat_eq (by omega)⟩
  split at h
  · next hplus =>
    obtain rfl := Option.some.inj h
    exact ⟨by decide, hplus.symm⟩
  split at h
  · next hslash =>
    obtain rfl := Option.some.inj h
    exact ⟨by decide, hslash.symm⟩
  · cases h

/-! ## Groups -/

theorem ofBase64Chars?_padded_twice (w x : Char) (rest : List Char) :
    ofBase64Chars? (w :: x :: '=' :: '=' :: rest) = (do
      let p ← base64Value? w
      let q ← base64Value? x
      if rest = [] ∧ q % 16 = 0 then return [UInt8.ofNat (p * 4 + q / 16)]
      else none) := by
  rw [ofBase64Chars?]

theorem ofBase64Chars?_padded
    (w x : Char) {y : Char} (hy : y ≠ '=') (rest : List Char) :
    ofBase64Chars? (w :: x :: y :: '=' :: rest) = (do
      let p ← base64Value? w
      let q ← base64Value? x
      let r ← base64Value? y
      if rest = [] ∧ r % 4 = 0 then
        return [UInt8.ofNat (p * 4 + q / 16), UInt8.ofNat (q % 16 * 16 + r / 4)]
      else none) := by
  rw [ofBase64Chars?]
  simpa using hy

theorem ofBase64Chars?_whole
    (w x y : Char) {z : Char} (hz : z ≠ '=') (rest : List Char) :
    ofBase64Chars? (w :: x :: y :: z :: rest) = (do
      let p ← base64Value? w
      let q ← base64Value? x
      let r ← base64Value? y
      let s ← base64Value? z
      let bs ← ofBase64Chars? rest
      return UInt8.ofNat (p * 4 + q / 16) ::
        UInt8.ofNat (q % 16 * 16 + r / 4) ::
        UInt8.ofNat (r % 4 * 64 + s) :: bs) := by
  rw [ofBase64Chars?]
  · simp [hz]
  · simpa using hz

theorem ofNat_eq_of_eq_toNat
    {a : UInt8} {n : Nat} (h : n = a.toNat) :
    UInt8.ofNat n = a := by
  rw [h, UInt8.ofNat_toNat]

/-- Bytes are read back from their groups. -/
theorem ofBase64Chars?_base64Chars
    (bs : List UInt8) :
    ofBase64Chars? (base64Chars bs) = some bs := by
  induction bs using base64Chars.induct with
  | case1 => rfl
  | case2 a =>
    have ha := a.toNat_lt
    rw [base64Chars, ofBase64Chars?_padded_twice,
      base64Value?_digit _ (by omega), base64Value?_digit _ (by omega)]
    change (if _ then _ else _) = _
    rw [if_pos ⟨rfl, by omega⟩, ofNat_eq_of_eq_toNat (a := a) (by omega)]
    rfl
  | case3 a b =>
    have ha := a.toNat_lt
    have hb := b.toNat_lt
    rw [base64Chars, ofBase64Chars?_padded
      _ _ (base64Digit_ne_pad _ (by omega)), base64Value?_digit _ (by omega),
      base64Value?_digit _ (by omega), base64Value?_digit _ (by omega)]
    change (if _ then _ else _) = _
    rw [if_pos ⟨rfl, by omega⟩, ofNat_eq_of_eq_toNat (a := a) (by omega),
      ofNat_eq_of_eq_toNat (a := b) (by omega)]
    rfl
  | case4 a b c rest ih =>
    have ha := a.toNat_lt
    have hb := b.toNat_lt
    have hc := c.toNat_lt
    rw [base64Chars,
      ofBase64Chars?_whole _ _ _ (base64Digit_ne_pad _ (by omega)),
      base64Value?_digit _ (by omega), base64Value?_digit _ (by omega),
      base64Value?_digit _ (by omega), base64Value?_digit _ (by omega), ih]
    change some (_ :: _ :: _ :: rest) = _
    rw [ofNat_eq_of_eq_toNat (a := a) (by omega), ofNat_eq_of_eq_toNat (a := b)
      (by omega), ofNat_eq_of_eq_toNat (a := c) (by omega)]

/-! The digits of a group whose bytes are packed from digits are those digits. -/

theorem base64Chars_pack_one
    {p q : Nat} (hp : p < 64) (hq : q < 64) (hbits : q % 16 = 0) :
    base64Chars [UInt8.ofNat (p * 4 + q / 16)] =
      [base64Digit p, base64Digit q, '=', '='] := by
  have hbyte : (UInt8.ofNat (p * 4 + q / 16)).toNat = p * 4 + q / 16 :=
    UInt8.toNat_ofNat_of_lt' (show _ < 256 by omega)
  have hfirst : (p * 4 + q / 16) / 4 = p := by omega
  have hsecond : (p * 4 + q / 16) % 4 * 16 = q := by omega
  rw [base64Chars, hbyte, hfirst, hsecond]

theorem base64Chars_pack_two
    {p q r : Nat} (hp : p < 64) (hq : q < 64) (hr : r < 64)
    (hbits : r % 4 = 0) :
    base64Chars [UInt8.ofNat (p * 4 + q / 16),
      UInt8.ofNat (q % 16 * 16 + r / 4)] =
      [base64Digit p, base64Digit q, base64Digit r, '='] := by
  have hbyte : (UInt8.ofNat (p * 4 + q / 16)).toNat = p * 4 + q / 16 :=
    UInt8.toNat_ofNat_of_lt' (show _ < 256 by omega)
  have hbyte' :
      (UInt8.ofNat (q % 16 * 16 + r / 4)).toNat = q % 16 * 16 + r / 4 :=
    UInt8.toNat_ofNat_of_lt' (show _ < 256 by omega)
  have hfirst : (p * 4 + q / 16) / 4 = p := by omega
  have hsecond :
      (p * 4 + q / 16) % 4 * 16 + (q % 16 * 16 + r / 4) / 16 = q := by omega
  have hthird : (q % 16 * 16 + r / 4) % 16 * 4 = r := by omega
  rw [base64Chars, hbyte, hbyte', hfirst, hsecond, hthird]

theorem base64Chars_pack_three
    {p q r s : Nat} (hp : p < 64) (hq : q < 64) (hr : r < 64) (hs : s < 64)
    (bs : List UInt8) :
    base64Chars (UInt8.ofNat (p * 4 + q / 16) ::
        UInt8.ofNat (q % 16 * 16 + r / 4) ::
        UInt8.ofNat (r % 4 * 64 + s) :: bs) =
      base64Digit p :: base64Digit q :: base64Digit r :: base64Digit s ::
        base64Chars bs := by
  have hbyte : (UInt8.ofNat (p * 4 + q / 16)).toNat = p * 4 + q / 16 :=
    UInt8.toNat_ofNat_of_lt' (show _ < 256 by omega)
  have hbyte' :
      (UInt8.ofNat (q % 16 * 16 + r / 4)).toNat = q % 16 * 16 + r / 4 :=
    UInt8.toNat_ofNat_of_lt' (show _ < 256 by omega)
  have hbyte'' : (UInt8.ofNat (r % 4 * 64 + s)).toNat = r % 4 * 64 + s :=
    UInt8.toNat_ofNat_of_lt' (show _ < 256 by omega)
  have hfirst : (p * 4 + q / 16) / 4 = p := by omega
  have hsecond :
      (p * 4 + q / 16) % 4 * 16 + (q % 16 * 16 + r / 4) / 16 = q := by omega
  have hthird :
      (q % 16 * 16 + r / 4) % 16 * 4 + (r % 4 * 64 + s) / 64 = r := by omega
  have hfourth : (r % 4 * 64 + s) % 64 = s := by omega
  rw [base64Chars, hbyte, hbyte', hbyte'', hfirst, hsecond, hthird, hfourth]

/-- Groups that are read are those of the bytes they denote. -/
theorem base64Chars_of_read
    {cs : List Char} {bs : List UInt8} (h : ofBase64Chars? cs = some bs) :
    base64Chars bs = cs := by
  induction cs using ofBase64Chars?.induct generalizing bs with
  | case1 =>
    obtain rfl := Option.some.inj h
    rfl
  | case2 w x rest =>
    rw [ofBase64Chars?_padded_twice] at h
    simp only [Option.bind_eq_bind, Option.bind_eq_some_iff] at h
    obtain ⟨p, hp, q, hq, h⟩ := h
    obtain ⟨hp64, rfl⟩ := base64Digit_of_value hp
    obtain ⟨hq64, rfl⟩ := base64Digit_of_value hq
    split at h
    · next hend =>
      obtain ⟨rfl, hbits⟩ := hend
      obtain rfl := Option.some.inj h
      exact base64Chars_pack_one hp64 hq64 hbits
    · cases h
  | case3 w x y rest hy =>
    rw [ofBase64Chars?_padded w x hy] at h
    simp only [Option.bind_eq_bind, Option.bind_eq_some_iff] at h
    obtain ⟨p, hp, q, hq, r, hr, h⟩ := h
    obtain ⟨hp64, rfl⟩ := base64Digit_of_value hp
    obtain ⟨hq64, rfl⟩ := base64Digit_of_value hq
    obtain ⟨hr64, rfl⟩ := base64Digit_of_value hr
    split at h
    · next hend =>
      obtain ⟨rfl, hbits⟩ := hend
      obtain rfl := Option.some.inj h
      exact base64Chars_pack_two hp64 hq64 hr64 hbits
    · cases h
  | case4 w x y z rest hy hz ih =>
    rw [ofBase64Chars?_whole w x y (by simpa using hz)] at h
    simp only [Option.bind_eq_bind, Option.bind_eq_some_iff] at h
    obtain ⟨p, hp, q, hq, r, hr, s, hs, bs', hbs', h⟩ := h
    obtain ⟨hp64, rfl⟩ := base64Digit_of_value hp
    obtain ⟨hq64, rfl⟩ := base64Digit_of_value hq
    obtain ⟨hr64, rfl⟩ := base64Digit_of_value hr
    obtain ⟨hs64, rfl⟩ := base64Digit_of_value hs
    obtain rfl := Option.some.inj h
    rw [base64Chars_pack_three hp64 hq64 hr64 hs64, ih hbs']
  | case5 cs hnil htwice honce hwhole =>
    rw [ofBase64Chars?] at h
    · cases h
    all_goals assumption

/-- Bytes are read from their own text and from no other. -/
theorem ofBase64?_eq_some_iff {s : String} {bs : List UInt8} :
    ofBase64? s = some bs ↔ s = base64 bs := by
  constructor
  · intro h
    rw [base64, base64Chars_of_read h, String.ofList_toList]
  · rintro rfl
    rw [ofBase64?, base64, String.toList_ofList, ofBase64Chars?_base64Chars]

end LinkGraph.Text
