import LinkGraph.Digest.Blake3
import LinkGraph.Entity.Format
import LinkGraph.Text.Hex

/-!
# Entity tags

A tag that changes with every field of an entity: the digest of its bytes in
hexadecimal, each digit replaced by the decimal number of its character.
-/

namespace LinkGraph.Entity

/-- Characters as the decimal numbers of their code points, one after the
other. -/
def characterCodes (s : String) : String :=
  s.toList.foldl (fun text c => text ++ toString c.toNat) ""

/-- The tag reported when there is no digest. -/
def fallbackEtag : String := "1"

def etag (e : Entity) : String :=
  characterCodes (Text.hex (Digest.blake3 (Binary.Format.entity.write e)))

end LinkGraph.Entity
