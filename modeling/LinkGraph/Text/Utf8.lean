/-!
# Text as bytes

The UTF-8 bytes of a text, the strict reading of bytes as text, the reading that
keeps the place of each maximal ill-formed piece, and the lossy one that writes
U+FFFD there.  A machine looks at one byte at a time: a byte either ends a
character, starts or continues one, or proves that the piece before it can be no
character.
-/

namespace LinkGraph.Text

def bytes (s : String) : List UInt8 :=
  s.toByteArray.data.toList

/-- The text whose UTF-8 bytes are given, if they are well-formed. -/
def ofBytes? (bs : List UInt8) : Option String :=
  String.fromUTF8? ⟨bs.toArray⟩

/-- Where the reader stands: between characters, or inside one that still owes
`owed` bytes, the next of them between `low` and `high`. -/
inductive Utf8State where
  | between
  | inside (owed : Nat) (low high : UInt8) (value : Nat)
  deriving Repr, DecidableEq

namespace Utf8State

/-- The state after a byte met between characters, and what that byte settles: a
character, or an ill-formed piece, which is none. -/
def start (b : UInt8) : List (Option Char) × Utf8State :=
  let n := b.toNat
  if n < 0x80 then ([some (Char.ofNat n)], between)
  else if n < 0xC2 then ([none], between)
  else if n < 0xE0 then ([], inside 1 0x80 0xBF (n - 0xC0))
  else if n = 0xE0 then ([], inside 2 0xA0 0xBF 0)
  else if n = 0xED then ([], inside 2 0x80 0x9F 0xD)
  else if n < 0xF0 then ([], inside 2 0x80 0xBF (n - 0xE0))
  else if n = 0xF0 then ([], inside 3 0x90 0xBF 0)
  else if n < 0xF4 then ([], inside 3 0x80 0xBF (n - 0xF0))
  else if n = 0xF4 then ([], inside 3 0x80 0x8F 4)
  else ([none], between)

/-- One byte.  A byte that cannot continue the open character ends it as
ill-formed and is itself read afresh. -/
def step : Utf8State → UInt8 → List (Option Char) × Utf8State
  | between, b => start b
  | inside owed low high value, b =>
    if low ≤ b ∧ b ≤ high then
      let value := value * 64 + (b.toNat - 0x80)
      if owed ≤ 1 then ([some (Char.ofNat value)], between)
      else ([], inside (owed - 1) 0x80 0xBF value)
    else
      let (out, next) := start b
      (none :: out, next)

/-- What the end of the bytes settles. -/
def finish : Utf8State → List (Option Char)
  | between => []
  | inside .. => [none]

/-- What is read from a state to the end of the bytes. -/
def run : Utf8State → List UInt8 → List (Option Char)
  | state, [] => state.finish
  | state, b :: rest =>
    let (out, next) := state.step b
    out ++ run next rest

end Utf8State

/-- Every byte sequence as characters, with none for each maximal ill-formed
piece. -/
def scalars (bs : List UInt8) : List (Option Char) :=
  Utf8State.run .between bs

/-- The character written for an ill-formed piece. -/
def replacement : Char := '\uFFFD'

/-- Every byte sequence read as text, each maximal ill-formed piece as one
U+FFFD. -/
def lossy (bs : List UInt8) : String :=
  String.ofList ((scalars bs).map (·.getD replacement))

end LinkGraph.Text
