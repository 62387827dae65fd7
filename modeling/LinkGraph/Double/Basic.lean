/-!
# Doubles

A 64-bit binary floating-point number is kept as its bit pattern.  The magnitude
of a finite one is a whole number of *units*, a unit being the least positive
double: the bit pattern without its sign splits into a binade `q` and a
significand `m`, and the magnitude is `m * 2 ^ q` units.
-/

namespace LinkGraph

/-- A 64-bit binary floating-point number. -/
structure Double where
  bits : UInt64
  deriving Repr, DecidableEq

namespace Double

/-- The bit pattern of positive infinity; the magnitudes of finite doubles lie
below it. -/
def infinityBits : Nat := 0x7FF0000000000000

def signBit : Nat := 0x8000000000000000

/-- The least significand of a double that is not close to zero; all
significands lie below twice this number. -/
def leastSignificand : Nat := 0x10000000000000

def unitsOfOne : Nat := 1 <<< 1074

def isNegative (x : Double) : Bool :=
  signBit ≤ x.bits.toNat

/-- The bit pattern without its sign. -/
def magnitude (x : Double) : Nat :=
  x.bits.toNat % signBit

def isFinite (x : Double) : Bool :=
  x.magnitude < infinityBits

def isNaN (x : Double) : Bool :=
  infinityBits < x.magnitude

/-- The double with a sign and a bit pattern below the sign bit. -/
def ofMagnitude (negative : Bool) (magnitude : Nat) : Double :=
  ⟨UInt64.ofNat ((if negative then signBit else 0) + magnitude)⟩

/-- How many doublings separate the spacing of doubles around `x` from one
unit. -/
def binade (x : Double) : Nat :=
  x.magnitude / leastSignificand - 1

/-- The magnitude counted in steps of its own binade. -/
def significand (x : Double) : Nat :=
  x.magnitude - x.binade * leastSignificand

/-- The magnitude of a finite double in units. -/
def units (x : Double) : Nat :=
  x.significand <<< x.binade

end Double

end LinkGraph
