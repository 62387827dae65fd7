import LinkGraph.Double.Shortest

/-!
# Doubles as text

The digits of a double are laid out plainly, always with a fraction, or with an
exponent when the number is large or small.  What large and small mean, the look
of the exponent and the way of ties are fields of a layout.  Attribute text and
data interchange use one layout each.
-/

namespace LinkGraph.Double

/-- How digits become text.  A number whose leading digit stands at the power of
ten `e` is written plainly when `leastPlain ≤ e ≤ greatestPlain`. -/
structure Layout where
  leastPlain : Int
  greatestPlain : Int
  exponentMark : String
  positiveSign : String
  tie : Tie

/-- Attribute text: plain from a ten-thousandth up to sixteen places, a positive
exponent without sign, ties upward. -/
def attributeLayout : Layout := ⟨-4, 15, "e", "", .up⟩

/-- Interchange text: plain from a hundred-thousandth up to sixteen places,
every exponent signed, ties to the even digit. -/
def interchangeLayout : Layout := ⟨-5, 15, "e", "+", .even⟩

/-- Digits laid out with a point, at least one digit on either side of it. -/
def Digits.plain (d : Digits) : String :=
  let text := Nat.toDigits 10 d.digits
  let place := text.length + d.exponent
  if 0 ≤ d.exponent then
    String.ofList (text ++ List.replicate d.exponent.toNat '0' ++ ['.', '0'])
  else if place ≤ 0 then
    String.ofList (['0', '.'] ++ List.replicate (-place).toNat '0' ++ text)
  else
    String.ofList (text.take place.toNat ++ ['.'] ++ text.drop place.toNat)

/-- Digits laid out with one digit before the point and an exponent; a lone
digit has no point. -/
def Digits.scientific (layout : Layout) (d : Digits) : String :=
  let text := Nat.toDigits 10 d.digits
  let leading := text.length + d.exponent - 1
  let mantissa :=
    match text with
    | first :: second :: rest => first :: '.' :: second :: rest
    | text => text
  let sign := if 0 ≤ leading then layout.positiveSign else ""
  String.ofList mantissa ++ layout.exponentMark ++ sign ++ toString leading

/-- Digits without zeros at their end. -/
def Digits.trim (d : Digits) : Digits :=
  let text := Nat.toDigits 10 d.digits
  let zeros := (text.reverse.takeWhile (· = '0')).length
  ⟨d.digits / Decimal.powerOfTen zeros, d.exponent + zeros⟩

def Digits.toText (layout : Layout) (d : Digits) : String :=
  let d := d.trim
  let leading := (Nat.toDigits 10 d.digits).length + d.exponent - 1
  if layout.leastPlain ≤ leading ∧ leading ≤ layout.greatestPlain then d.plain
  else d.scientific layout

def finiteText (layout : Layout) (x : Double) : String :=
  let sign := if x.isNegative then "-" else ""
  if x.magnitude = 0 then sign ++ "0.0"
  else sign ++ (x.shortest layout.tie).toText layout

def attributeText (x : Double) : String :=
  if x.isFinite then x.finiteText attributeLayout
  else if x.isNaN then "NaN"
  else if x.isNegative then "-inf"
  else "inf"

end LinkGraph.Double
