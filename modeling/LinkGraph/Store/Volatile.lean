import LinkGraph.Store.Basic

/-!
# The volatile store

Entities and buckets in memory.  No call fails, batches make no difference, and
nothing is left after a restart.
-/

namespace LinkGraph

/-- Entities by id and members by category. -/
structure VolatileStore where
  entities : Std.ExtTreeMap EntityId Entity := ∅
  index : Std.ExtTreeMap Category NameSet := ∅
  deriving DecidableEq

namespace VolatileStore

/-- The bucket of a category, empty if there is none. -/
def bucket (s : VolatileStore) (c : Category) : NameSet :=
  s.index.getD c ∅

/-- The index with another bucket for a category; an empty bucket is none. -/
def setBucket
    (s : VolatileStore) (c : Category) (b : NameSet) : VolatileStore :=
  { s with index := if b.isEmpty then s.index.erase c else s.index.insert c b }

instance : EntityStore VolatileStore where
  get s id := .ok s.entities[id]?
  contains s id := .ok (s.entities.contains id)
  members s c := .ok (s.bucket c).toList
  hasCategory s c := .ok (s.index.contains c)
  categories s := .ok s.index.keys
  entityCount s := .ok s.entities.size
  entities s := .ok s.entities.values
  put e := fun s => (.ok s.entities[e.id]?,
    { s with entities := s.entities.insert e.id e })
  remove id :=
    fun s => (.ok s.entities[id]?, { s with entities := s.entities.erase id })
  indexInsert c id := fun s => (.ok (), s.setBucket c ((s.bucket c).insert id))
  indexRemove c id := fun s => (.ok (), s.setBucket c ((s.bucket c).erase id))
  begin := pure ()
  commit := pure ()
  abort s := s
  reopen _ := {}
  extent s := s.entities.size

end VolatileStore

end LinkGraph
