import LinkGraph.Entity.Basic
import LinkGraph.Wire.Value

/-!
# Wire attributes

A map of wire values is decoded entry by entry: an entry whose value has no text
is dropped and reported, and has no influence on the others.  Encoding sends
every stored text as a text value.
-/

namespace LinkGraph

/-- Wire values by attribute name. -/
abbrev WireAttributes := Std.ExtTreeMap String WireValue

namespace WireAttributes

/-- The texts of the entries that have one. -/
def decoded (wire : WireAttributes) : Attributes :=
  wire.filterMap fun _ v => v.toText?

/-- One error for each other entry, in the order of the keys. -/
def rejected (wire : WireAttributes) : List StoreError :=
  wire.toList.filterMap fun (key, v) =>
    match v.decode key with
    | .ok _ => none
    | .error e => some e

end WireAttributes

def Attributes.encode (attributes : Attributes) : WireAttributes :=
  attributes.map fun _ text => .text text

end LinkGraph
