import LinkGraph.Double.Nearest
import LinkGraph.Json.Record
import LinkGraph.Text.Base64
import LinkGraph.Wire.Attributes
import LinkGraph.Word

/-!
# Tagged values

A wire value in JSON: a type tag, short or long, and a value that has to fit the
type exactly.  An integer must lie in the range of its type, no double is taken
for an integer, and bytes are base64 text in its one canonical spelling.
-/

namespace LinkGraph

/-- A type tag and a JSON value. -/
structure TaggedValue where
  tag : String
  value : Json

/-- The type that a short or long tag names. -/
def WireType.ofTag? : String → Option WireType
  | "b" | "boolean" => some boolean
  | "n" | "int16" => some int16
  | "q" | "uint16" => some uint16
  | "i" | "int32" => some int32
  | "u" | "uint32" => some uint32
  | "x" | "int64" => some int64
  | "t" | "uint64" => some uint64
  | "d" | "double" => some double
  | "s" | "string" => some text
  | "ay" | "bytes" => some bytes
  | "h" | "fd" => some handle
  | _ => none

namespace Json

/-- The integer that a JSON value is, if it fits. -/
def integer? (fits : Int → Bool) : Json → Option Int
  | .number (.integer n) => if fits n then some n else none
  | _ => none

def signed? (bits : Nat) (value : Json) : Option Int :=
  value.integer? (Word.isSigned bits)

def natural? (bits : Nat) (value : Json) : Option Nat :=
  (value.integer? (Word.isNatural bits)).map Int.toNat

/-- The double that a JSON number denotes, an integer by its nearest double. -/
def double? : Json → Option Double
  | .number (.integer n) => some (.ofInt n)
  | .number (.double x) => some x
  | _ => none

def text? : Json → Option String
  | .string s => some s
  | _ => none

end Json

/-- A JSON value as a wire value of a type, if it fits. -/
def WireType.ofJson? (type : WireType) (value : Json) : Option WireValue :=
  match type with
  | boolean =>
    match value with
    | .bool b => some (.boolean b)
    | _ => none
  | int16 => (value.signed? 16).map fun n => .int16 (Int16.ofInt n)
  | uint16 => (value.natural? 16).map fun n => .uint16 (UInt16.ofNat n)
  | int32 => (value.signed? 32).map fun n => .int32 (Int32.ofInt n)
  | uint32 => (value.natural? 32).map fun n => .uint32 (UInt32.ofNat n)
  | int64 => (value.signed? 64).map fun n => .int64 (Int64.ofInt n)
  | uint64 => (value.natural? 64).map fun n => .uint64 (UInt64.ofNat n)
  | double => value.double?.map .double
  | text => value.text?.map .text
  | bytes => (value.text?.bind Text.ofBase64?).map .bytes
  | handle => (value.natural? 32).map fun n => .handle (UInt32.ofNat n)

namespace TaggedValue

/-- The wire value of a tagged value.  A value that does not fit its tag keeps
the tag. -/
def toWire (t : TaggedValue) : WireValue :=
  match t.value with
  | .null => .null
  | value =>
    (((WireType.ofTag? t.tag).bind (·.ofJson? value))).getD (.unsupported t.tag)

/-- The JSON value of a wire value; what JSON cannot express is null. -/
def jsonOf (v : WireValue) : Json :=
  match v with
  | .boolean b => .bool b
  | .double x => if x.isFinite then .number (.double x) else .null
  | .text s => .string s
  | .bytes bs => .string (Text.base64 bs)
  | v =>
    match v.toInt? with
    | some n => .number (.integer n)
    | none => .null

def ofWire (v : WireValue) : TaggedValue :=
  ⟨v.signature, jsonOf v⟩

def toJson (t : TaggedValue) : Json :=
  .object [("type", .string t.tag), ("value", t.value)]

/-- Reads a tagged value; a missing value is null. -/
def reader : Json.Reader TaggedValue :=
  Json.Fields.record
    (.cons ⟨"type", Json.Reader.text, none⟩ <|
      .cons ⟨"value", Json.Reader.any, some .null⟩ .nil)
    fun (tag, value, _) => ⟨tag, value⟩

end TaggedValue

namespace WireAttributes

/-- Reads an object of tagged values; of several members with one key the last
counts. -/
def reader : Json.Reader WireAttributes := fun depth tree =>
  (fun entries => .ofList (entries.map fun (key, t) => (key, t.toWire))) <$>
    Json.Reader.entries TaggedValue.reader depth tree

def toJson (wire : WireAttributes) : Json :=
  .object (wire.toList.map fun (key, v) => (key, (TaggedValue.ofWire v).toJson))

end WireAttributes

end LinkGraph
