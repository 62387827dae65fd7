import LinkGraph.Entity.Format
import LinkGraph.Error

/-!
# Snapshots

A snapshot is a header, four magic bytes and a version, before a sequence of
entities.  Size and header are checked before the entities are read; bytes after
them are ignored.
-/

namespace LinkGraph.Snapshot

/-- What precedes the entities. -/
structure Header where
  magic : List UInt8
  version : UInt8
  deriving Repr, DecidableEq

/-- The magic bytes, the letters OCCI. -/
def magicBytes : List UInt8 := [0x4F, 0x43, 0x43, 0x49]

def formatVersion : UInt8 := 1

def maxSize : Nat := 500 * 1024 * 1024

namespace Header

def current : Header := ⟨magicBytes, formatVersion⟩

/-- The header at the front of a snapshot. -/
def ofBytes : List UInt8 → Except StoreError Header
  | a :: b :: c :: d :: version :: _ => .ok ⟨[a, b, c, d], version⟩
  | _ => .error (.deserialization "Header too short")

def toBytes (h : Header) : List UInt8 :=
  h.magic ++ [h.version]

/-- Refuses headers of other formats, and then of other versions. -/
def validate (h : Header) : Except StoreError Unit :=
  if h.magic ≠ magicBytes then .error (.deserialization "Invalid magic bytes")
  else if h.version ≠ formatVersion then
    .error (.deserialization
      s!"Unsupported version: {h.version} (expected {formatVersion})")
  else .ok ()

end Header

/-- The format of the entities after the header. -/
def payload : Binary.Format (List Entity) :=
  .list .entity

def write (entities : List Entity) : List UInt8 :=
  Header.current.toBytes ++ payload.write entities

/-- The refusal of bytes that are too many, where an amount is allowed at
most. -/
def checkSize (kind : String) (size : Nat) : Except String Unit :=
  if maxSize < size then
    .error s!"{kind} size {size} bytes exceeds maximum allowed {maxSize} bytes"
  else .ok ()

def read (bs : List UInt8) : Except StoreError (List Entity) := do
  (checkSize "Data" bs.length).mapError .deserialization
  let header ← Header.ofBytes bs
  header.validate
  match payload.read (bs.drop 5) with
  | .ok (entities, _) => return entities
  | .error e =>
    .error (.deserialization s!"Failed to decode snapshot: {e.message}")

end LinkGraph.Snapshot
