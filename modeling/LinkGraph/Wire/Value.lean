import LinkGraph.Double.Layout
import LinkGraph.Error
import LinkGraph.Text.Utf8
import Std.Data.ExtTreeMap

/-!
# Wire values

Attribute values as clients send them, each of a declared type with a short
signature.  A value whose type is not known keeps the signature it came with,
and a key may come without a value.
-/

namespace LinkGraph

/-- The types of attribute values. -/
inductive WireType where
  | boolean
  | int16
  | uint16
  | int32
  | uint32
  | int64
  | uint64
  | double
  | text
  | bytes
  | handle
  deriving Repr, DecidableEq

def WireType.signature : WireType → String
  | boolean => "b"
  | int16 => "n"
  | uint16 => "q"
  | int32 => "i"
  | uint32 => "u"
  | int64 => "x"
  | uint64 => "t"
  | double => "d"
  | text => "s"
  | bytes => "ay"
  | handle => "h"

/-- A value on the wire. -/
inductive WireValue where
  | boolean (b : Bool)
  | int16 (n : Int16)
  | uint16 (n : UInt16)
  | int32 (n : Int32)
  | uint32 (n : UInt32)
  | int64 (n : Int64)
  | uint64 (n : UInt64)
  | double (x : Double)
  | text (s : String)
  | bytes (bs : List UInt8)
  | handle (n : UInt32)
  | unsupported (signature : String)
  | null
  deriving Repr, DecidableEq

namespace WireValue

/-- The type of a value, if it is one of the known types. -/
def type? : WireValue → Option WireType
  | boolean _ => some .boolean
  | int16 _ => some .int16
  | uint16 _ => some .uint16
  | int32 _ => some .int32
  | uint32 _ => some .uint32
  | int64 _ => some .int64
  | uint64 _ => some .uint64
  | double _ => some .double
  | text _ => some .text
  | bytes _ => some .bytes
  | handle _ => some .handle
  | unsupported _ | null => none

/-- The signature of a value; a key without value has an empty one. -/
def signature (v : WireValue) : String :=
  match v with
  | unsupported s => s
  | v => (v.type?.map WireType.signature).getD ""

def toInt? : WireValue → Option Int
  | int16 n => some n.toInt
  | uint16 n => some n.toNat
  | int32 n => some n.toInt
  | uint32 n | handle n => some n.toNat
  | int64 n => some n.toInt
  | uint64 n => some n.toNat
  | _ => none

/-- The text that is stored for a value: integers in decimal, bytes as lossy
UTF-8. -/
def toText? : WireValue → Option String
  | boolean b => some (if b then "true" else "false")
  | double x => some x.attributeText
  | text s => some s
  | bytes bs => some (Text.lossy bs)
  | v => v.toInt?.map toString

/-- The text stored for the value of a key, or why there is none. -/
def decode (key : String) (v : WireValue) : Except StoreError String :=
  match v.toText? with
  | some t => .ok t
  | none => .error (.unsupportedAttributeType key v.signature)

end WireValue

end LinkGraph
