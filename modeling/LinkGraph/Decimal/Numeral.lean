/-!
# Decimal numerals

A number as it is written: a sign, the digits before and after the point, and a
power of ten.  The scanner takes the longest numeral at the front of the text.
A numeral has no superfluous leading zero, and a point or an exponent mark is
followed by at least one digit.
-/

namespace LinkGraph.Decimal

/-- A written number.  `exponent` is absent when no exponent mark is written. -/
structure Numeral where
  negative : Bool
  whole : List Char
  fraction : List Char
  exponent : Option Int
  deriving Repr, DecidableEq

/-- The number that a list of decimal digits denotes. -/
def ofDigits (cs : List Char) : Nat :=
  Nat.ofDigitChars 10 cs 0

def powerOfTen (n : Nat) : Nat :=
  Nat.pow 10 n

namespace Numeral

/-- Written with digits alone, without point and exponent. -/
def isWhole (x : Numeral) : Bool :=
  x.fraction.isEmpty && x.exponent.isNone

/-- All digits, read as one natural number. -/
def significand (x : Numeral) : Nat :=
  ofDigits (x.whole ++ x.fraction)

/-- The power of ten that the significand is multiplied by. -/
def scale (x : Numeral) : Int :=
  x.exponent.getD 0 - x.fraction.length

/-- The integer that a numeral without point and exponent denotes. -/
def toInt (x : Numeral) : Int :=
  if x.negative then -(x.significand : Int) else x.significand

end Numeral

/-- The digits at the front of a text, and what follows them. -/
def spanDigits (cs : List Char) : List Char × List Char :=
  (cs.takeWhile Char.isDigit, cs.dropWhile Char.isDigit)

/-- The digits before the point: a single zero, or digits that do not start with
one. -/
def scanWhole (cs : List Char) : Option (List Char × List Char) :=
  match spanDigits cs with
  | ([], _) => none
  | ('0' :: _ :: _, _) => none
  | (digits, rest) => some (digits, rest)

/-- The digits after a point, none when there is no point. -/
def scanFraction : List Char → Option (List Char × List Char)
  | '.' :: rest =>
    match spanDigits rest with
    | ([], _) => none
    | (digits, rest) => some (digits, rest)
  | cs => some ([], cs)

/-- The signed digits after an exponent mark. -/
def scanSigned (cs : List Char) : Option (Int × List Char) :=
  let (negative, cs) :=
    match cs with
    | '-' :: rest => (true, rest)
    | '+' :: rest => (false, rest)
    | cs => (false, cs)
  match spanDigits cs with
  | ([], _) => none
  | (digits, rest) =>
    some (if negative then -(ofDigits digits : Int) else ofDigits digits, rest)

/-- The power of ten, absent when there is no exponent mark. -/
def scanExponent : List Char → Option (Option Int × List Char)
  | 'e' :: rest | 'E' :: rest =>
    (scanSigned rest).map fun (n, rest) => (some n, rest)
  | cs => some (none, cs)

/-- The numeral at the front of a text and what follows it, unless the text
starts with none. -/
def Numeral.scan (cs : List Char) : Option (Numeral × List Char) := do
  let (negative, cs) :=
    match cs with
    | '-' :: rest => (true, rest)
    | cs => (false, cs)
  let (whole, cs) ← scanWhole cs
  let (fraction, cs) ← scanFraction cs
  let (exponent, cs) ← scanExponent cs
  return (⟨negative, whole, fraction, exponent⟩, cs)

def Numeral.ofText? (s : String) : Option Numeral :=
  match Numeral.scan s.toList with
  | some (x, []) => some x
  | _ => none

end LinkGraph.Decimal
