/-!
# Hexadecimal text

Bytes written as two lower-case digits each, and numbers read from digits of
either case.
-/

namespace LinkGraph.Text

/-- The lower-case hexadecimal digit of a number below sixteen. -/
def hexDigit (n : Nat) : Char :=
  Nat.digitChar n

/-- The value of a hexadecimal digit of either case. -/
def hexValue? (c : Char) : Option Nat :=
  if '0' ≤ c ∧ c ≤ '9' then some (c.toNat - 48)
  else if 'a' ≤ c ∧ c ≤ 'f' then some (c.toNat - 87)
  else if 'A' ≤ c ∧ c ≤ 'F' then some (c.toNat - 55)
  else none

/-- The two digits of a byte, high half first. -/
def hexByte (b : UInt8) : List Char :=
  [hexDigit (b.toNat / 16), hexDigit (b.toNat % 16)]

def hex (bs : List UInt8) : String :=
  String.ofList (bs.flatMap hexByte)

/-- The number that hexadecimal digits denote, most significant first. -/
def hexNumber? (cs : List Char) : Option Nat :=
  cs.foldlM (fun n c => (hexValue? c).map (n * 16 + ·)) 0

def ofHexChars? : List Char → Option (List UInt8)
  | [] => some []
  | high :: low :: rest => do
    let n ← hexNumber? [high, low]
    let bs ← ofHexChars? rest
    return UInt8.ofNat n :: bs
  | [_] => none

/-- The bytes that a text of hexadecimal digits denotes, such as those that
`hex` has written. -/
def ofHex? (s : String) : Option (List UInt8) :=
  ofHexChars? s.toList

theorem hexNumber?_hexByte
    (b : UInt8) :
    hexNumber? (hexByte b) = some b.toNat := by
  have hdigit : ∀ n < 16, hexValue? (hexDigit n) = some n := by decide
  have hb := b.toNat_lt
  have hhigh := hdigit (b.toNat / 16) (by omega)
  have hlow := hdigit (b.toNat % 16) (by omega)
  simp only [hexNumber?, hexByte, List.foldlM_cons, List.foldlM_nil,
    hhigh, hlow]
  simp [Nat.div_add_mod']

theorem ofHexChars?_hexByte_append (b : UInt8) (rest : List Char) :
    ofHexChars? (hexByte b ++ rest) = (ofHexChars? rest).map (b :: ·) := by
  change (hexNumber? (hexByte b)).bind (fun n => (ofHexChars? rest).bind _) = _
  rw [hexNumber?_hexByte, Option.bind_some]
  cases ofHexChars? rest with
  | none => rfl
  | some bs => rw [Option.bind_some, UInt8.ofNat_toNat]; rfl

/-- Bytes are read from the digits that are written for them. -/
theorem ofHex?_hex (bs : List UInt8) : ofHex? (hex bs) = some bs := by
  rw [ofHex?, hex, String.toList_ofList]
  induction bs with
  | nil => rfl
  | cons b bs ih =>
    rw [List.flatMap_cons, ofHexChars?_hexByte_append, ih]
    rfl

end LinkGraph.Text
