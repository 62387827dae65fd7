import LinkGraph.Text.Utf8

/-!
# Binary formats

A format writes a value as bytes and reads a value back from the front of a byte
sequence, leaving what follows.  Numbers are written seven bits at a time, least
significant first, with the high bit set in all bytes but the last; texts and
sequences are preceded by their length.  Formats of compound values are put
together from the formats of their parts.
-/

namespace LinkGraph.Binary

/-- Why bytes cannot be read. -/
inductive DecodeError where
  | endOfInput
  | unendingNumber
  | illFormedText
  | unknownVariant
  deriving Repr, DecidableEq

def DecodeError.message : DecodeError → String
  | endOfInput => "Hit the end of buffer, expected more data"
  | unendingNumber =>
    "Found a varint that didn't terminate. Is the usize too big for this platform?"
  | illFormedText => "Tried to parse invalid utf-8"
  | unknownVariant => "Serde Deserialization Error"

/-- Reads a value from the front and returns the bytes after it. -/
abbrev Reader (α : Type) := List UInt8 → Except DecodeError (α × List UInt8)

/-- A writer and the reader of what it writes. -/
structure Format (α : Type) where
  write : α → List UInt8
  read : Reader α

/-- A natural number in groups of seven bits. -/
def writeNat (n : Nat) : List UInt8 :=
  if n < 128 then [UInt8.ofNat n]
  else UInt8.ofNat (n % 128 + 128) :: writeNat (n / 128)
termination_by n

/-- Reads a number of at most `count` bytes, the last of which may be at most
`last` if all of them are used. -/
def readNat (last : Nat) : Nat → Reader Nat
  | 0, _ => .error .unendingNumber
  | _ + 1, [] => .error .endOfInput
  | count + 1, b :: rest =>
    if b.toNat < 128 then
      if count = 0 ∧ last < b.toNat then .error .unendingNumber
      else .ok (b.toNat, rest)
    else do
      let (n, rest) ← readNat last count rest
      return (b.toNat - 128 + 128 * n, rest)

/-- Reads a number of 64 bits; lengths are such numbers. -/
def readNat64 : Reader Nat :=
  readNat 1 10

def readNat32 : Reader Nat :=
  readNat 15 5

def readBytes (count : Nat) : Reader (List UInt8) := fun bs =>
  let (front, rest) := bs.splitAt count
  if front.length = count then .ok (front, rest) else .error .endOfInput

/-- Reads a given number of values; `latest` holds those already read, latest
first. -/
def readMany
    {α : Type} (read : Reader α) (latest : List α) : Nat → Reader (List α)
  | 0, bs => .ok (latest.reverse, bs)
  | count + 1, bs => do
    let (value, rest) ← read bs
    readMany read (value :: latest) count rest

namespace Format

variable {α β : Type}

def word : Format UInt64 where
  write w := writeNat w.toNat
  read bs := do
    let (n, rest) ← readNat64 bs
    return (UInt64.ofNat n, rest)

/-- A text as its length in bytes and its bytes. -/
def text : Format String where
  write s := writeNat s.utf8ByteSize ++ Text.bytes s
  read bs := do
    let (length, rest) ← readNat64 bs
    let (content, rest) ← readBytes length rest
    match Text.ofBytes? content with
    | some s => return (s, rest)
    | none => .error .illFormedText

/-- Bytes preceded by their number. -/
def bytes : Format (List UInt8) where
  write bs := writeNat bs.length ++ bs
  read bs := do
    let (length, rest) ← readNat64 bs
    readBytes length rest

/-- One value after another. -/
def pair (first : Format α) (second : Format β) : Format (α × β) where
  write v := first.write v.1 ++ second.write v.2
  read bs := do
    let (a, rest) ← first.read bs
    let (b, rest) ← second.read rest
    return ((a, b), rest)

/-- Values preceded by their number. -/
def list (item : Format α) : Format (List α) where
  write values := writeNat values.length ++ values.flatMap item.write
  read bs := do
    let (count, rest) ← readNat64 bs
    readMany item.read [] count rest

/-- Another representation of the same bytes. -/
def map (format : Format α) (make : α → β) (parts : β → α) : Format β where
  write v := format.write (parts v)
  read bs := do
    let (value, rest) ← format.read bs
    return (make value, rest)

/-- An optional value: its variant, zero or one, before it. -/
def option (format : Format α) : Format (Option α) where
  write
    | none => writeNat 0
    | some v => writeNat 1 ++ format.write v
  read bs := do
    let (variant, rest) ← readNat32 bs
    match variant with
    | 0 => return (none, rest)
    | 1 =>
      let (value, rest) ← format.read rest
      return (some value, rest)
    | _ => .error .unknownVariant

end Format

end LinkGraph.Binary
