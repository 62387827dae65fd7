/-!
# Base64

Bytes in the standard alphabet, four characters for three bytes and padded to
whole groups.  Reading accepts exactly what writing produces: the padding is
required, and the bits that the last character of a short group does not use
must be zero.
-/

namespace LinkGraph.Text

/-- The character of a number below sixty-four. -/
def base64Digit (n : Nat) : Char :=
  if n < 26 then Char.ofNat (65 + n)
  else if n < 52 then Char.ofNat (97 + (n - 26))
  else if n < 62 then Char.ofNat (48 + (n - 52))
  else if n = 62 then '+'
  else '/'

/-- The number that a character of the alphabet stands for. -/
def base64Value? (c : Char) : Option Nat :=
  if 'A' ≤ c ∧ c ≤ 'Z' then some (c.toNat - 65)
  else if 'a' ≤ c ∧ c ≤ 'z' then some (c.toNat - 97 + 26)
  else if '0' ≤ c ∧ c ≤ '9' then some (c.toNat - 48 + 52)
  else if c = '+' then some 62
  else if c = '/' then some 63
  else none

/-- Bytes as groups of four characters. -/
def base64Chars : List UInt8 → List Char
  | [] => []
  | [a] =>
    [base64Digit (a.toNat / 4), base64Digit (a.toNat % 4 * 16), '=', '=']
  | [a, b] =>
    [base64Digit (a.toNat / 4), base64Digit (a.toNat % 4 * 16 + b.toNat / 16),
      base64Digit (b.toNat % 16 * 4), '=']
  | a :: b :: c :: rest =>
    base64Digit (a.toNat / 4) ::
      base64Digit (a.toNat % 4 * 16 + b.toNat / 16) ::
      base64Digit (b.toNat % 16 * 4 + c.toNat / 64) ::
        base64Digit (c.toNat % 64) ::
        base64Chars rest

def base64 (bs : List UInt8) : String :=
  String.ofList (base64Chars bs)

/-- The bytes of groups of four characters; only the last group may be
padded. -/
def ofBase64Chars? : List Char → Option (List UInt8)
  | [] => some []
  | w :: x :: '=' :: '=' :: rest => do
    let p ← base64Value? w
    let q ← base64Value? x
    if rest = [] ∧ q % 16 = 0 then
      return [UInt8.ofNat (p * 4 + q / 16)] else none
  | w :: x :: y :: '=' :: rest => do
    let p ← base64Value? w
    let q ← base64Value? x
    let r ← base64Value? y
    if rest = [] ∧ r % 4 = 0 then
      return [UInt8.ofNat (p * 4 + q / 16), UInt8.ofNat (q % 16 * 16 + r / 4)]
    else none
  | w :: x :: y :: z :: rest => do
    let p ← base64Value? w
    let q ← base64Value? x
    let r ← base64Value? y
    let s ← base64Value? z
    let bs ← ofBase64Chars? rest
    return UInt8.ofNat (p * 4 + q / 16) :: UInt8.ofNat (q % 16 * 16 + r / 4) ::
      UInt8.ofNat (r % 4 * 64 + s) :: bs
  | _ => none

def ofBase64? (s : String) : Option (List UInt8) :=
  ofBase64Chars? s.toList

end LinkGraph.Text
