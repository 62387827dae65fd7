import LinkGraph.Store.Durable

/-!
# Table files

The tables of a durable store as the content of one file: magic bytes, and the
rows of both tables in the order of their keys.
-/

namespace LinkGraph.Tables

/-- The magic bytes, the letters LGTAB and a version. -/
def magicBytes : List UInt8 := [0x4C, 0x47, 0x54, 0x41, 0x42, 1]

def rowsFormat : Binary.Format (Std.ExtTreeMap String (List UInt8)) :=
  (Binary.Format.list (.pair .text .bytes)).map
    (fun rows => .ofList rows compare) (·.toList)

def format : Binary.Format Tables :=
  (Binary.Format.pair rowsFormat rowsFormat).map
    (fun (entities, categories) => { entities, categories })
    fun t => (t.entities, t.categories)

def toBytes (t : Tables) : List UInt8 :=
  magicBytes ++ format.write t

/-- The tables in a file, none if its content is something else. -/
def ofBytes? (bs : List UInt8) : Option Tables :=
  if bs.take magicBytes.length = magicBytes then
    match format.read (bs.drop magicBytes.length) with
    | .ok (t, []) => some t
    | _ => none
  else none

end LinkGraph.Tables
