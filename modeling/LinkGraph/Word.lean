/-!
# Integers of limited width

The integers that words of a number of bits stand for, with and without a sign.
-/

namespace LinkGraph.Word

def count (bits : Nat) : Nat :=
  1 <<< bits

/-- A word of the given number of bits stands for the integer, without a
sign. -/
def isNatural (bits : Nat) (n : Int) : Bool :=
  0 ≤ n && n < count bits

/-- A word of the given number of bits stands for the integer, with a sign. -/
def isSigned (bits : Nat) (n : Int) : Bool :=
  -(count (bits - 1) : Int) ≤ n && n < count (bits - 1)

end LinkGraph.Word
