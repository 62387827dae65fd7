import LinkGraph.Graph.Lookup
import LinkGraph.Snapshot

/-!
# Restoring and exporting

Entities are restored as they are, serials and back-references included, without
telling any handler.  Those stored under the same ids are replaced and keep
their back-references, and in the end every restored link is attached to its
source.
-/

namespace LinkGraph.Graph

variable {σ : Type} [EntityStore σ]

/-- Attaches a link to its source; other entities are left alone. -/
def attachToSource (e : Entity) : GraphM σ Unit :=
  match e.source? with
  | some source => attach source e.id
  | none => return ()

/-- Restores entities in order, and returns their number. -/
def restore (entities : List Entity) : GraphM σ Nat := do
  batched do
    let stored ← entities.mapM replace
    stored.forM attachToSource
  return entities.length

def exportBytes (g : Graph σ) : Except StoreError (List UInt8) :=
  Snapshot.write <$> g.entities

/-- Restores the entities of a snapshot, and returns their number. -/
def importBytes (bs : List UInt8) : GraphM σ Nat := do
  restore (← liftM (Snapshot.read bs))

end LinkGraph.Graph
