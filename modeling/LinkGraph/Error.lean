/-!
# Store errors

What can go wrong in a store, a graph or a cursor registry, and the one wording
of each.
-/

namespace LinkGraph

/-- The causes of failure of store, graph and cursor operations. -/
inductive StoreError where
  | unknownCategory (category : String)
  | danglingReference (link endpoint : String)
  | unsupportedAttributeType (key signature : String)
  | indexOutOfRange (start length : Nat)
  | digestUnavailable (reason : String)
  | serialization (reason : String)
  | deserialization (reason : String)
  | io (reason : String)
  deriving Repr, DecidableEq

namespace StoreError

def kind : StoreError → String
  | unknownCategory _ => "UnknownCategory"
  | danglingReference .. => "DanglingReference"
  | unsupportedAttributeType .. => "UnsupportedAttributeType"
  | indexOutOfRange .. => "IndexOutOfRange"
  | digestUnavailable _ => "DigestUnavailable"
  | serialization _ => "SerializationError"
  | deserialization _ => "DeserializationError"
  | io _ => "IoError"

def message : StoreError → String
  | unknownCategory category => s!"Unknown category: {category}"
  | danglingReference link endpoint =>
    s!"Dangling reference: link {link} points to missing entity {endpoint}"
  | unsupportedAttributeType key signature =>
    "Unsupported attribute type '" ++ signature ++ "' for key " ++ key
  | indexOutOfRange start length =>
    s!"Index out of range: start {start} exceeds length {length}"
  | digestUnavailable reason => s!"Digest unavailable: {reason}"
  | serialization reason => s!"Serialization error: {reason}"
  | deserialization reason => s!"Deserialization error: {reason}"
  | io reason => s!"I/O error: {reason}"

end StoreError

end LinkGraph
