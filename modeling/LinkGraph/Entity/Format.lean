import LinkGraph.Binary.Format
import LinkGraph.Entity.Basic

/-!
# The binary format of entities

The fields of an entity in their order.  Sets and maps are written as sequences
in order; they are read from any sequence, a later value of a key replacing an
earlier one.
-/

namespace LinkGraph.Binary.Format

def names : Format NameSet :=
  (list text).map (Std.ExtTreeSet.ofList ·) (·.toList)

def attributes : Format Attributes :=
  (list (text.pair text)).map (Std.ExtTreeMap.ofList ·) (·.toList)

def endpoints : Format Endpoints :=
  (text.pair text).map (fun (source, target) => ⟨source, target⟩) fun e =>
    (e.source, e.target)

def entity : Format Entity :=
  (text.pair <| (option endpoints).pair <| text.pair <| names.pair <|
    attributes.pair <|
    text.pair <| word.pair names).map
    (fun (id, endpoints, kind, mixins, attributes, owner, serial, linkedFrom) =>
      { id, endpoints, kind, mixins, attributes, owner, serial, linkedFrom })
    fun e =>
      (e.id, e.endpoints, e.kind, e.mixins, e.attributes, e.owner, e.serial,
        e.linkedFrom)

end LinkGraph.Binary.Format
