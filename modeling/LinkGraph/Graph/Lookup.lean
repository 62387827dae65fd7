import LinkGraph.Entity.Etag
import LinkGraph.Graph.Basic
import LinkGraph.Wire.Attributes

/-!
# Looking up

Lookups read the store and change nothing.  An id that is not stored is no
failure: it has no descriptor, loads as an entity without content, and lists as
nothing.
-/

namespace LinkGraph

/-- What identifies a version of an entity. -/
structure Descriptor where
  id : EntityId
  owner : String
  serial : UInt64
  etag : String
  deriving Repr, DecidableEq

def Descriptor.nodeType : Nat := 0

def Entity.descriptor (e : Entity) : Descriptor :=
  ⟨e.id, e.owner, e.serial, e.etag⟩

/-- The content of an entity, its attributes as text values. -/
structure LoadedEntity where
  id : EntityId
  kind : Category
  mixins : List Category
  attributes : WireAttributes

def Entity.content (e : Entity) : LoadedEntity :=
  ⟨e.id, e.kind, e.mixins.toList, e.attributes.encode⟩

/-- The content that loads for an id that is not stored. -/
def LoadedEntity.empty (id : EntityId) : LoadedEntity :=
  ⟨id, "", [], ∅⟩

/-- An entity as it is listed. -/
structure Item where
  id : EntityId
  owner : String
  deriving Repr, DecidableEq

def Entity.item (e : Entity) : Item :=
  ⟨e.id, e.owner⟩

/-- How many entities, resources, links and categories there are. -/
structure Stats where
  entities : Nat
  resources : Nat
  links : Nat
  categories : Nat
  deriving Repr, DecidableEq

namespace Graph

variable {σ : Type} [EntityStore σ]

def get? (g : Graph σ) (id : EntityId) : Except StoreError (Option Entity) :=
  EntityStore.get g.store id

def find?
    (g : Graph σ) (id : EntityId) : Except StoreError (Option Descriptor) := do
  return (← g.get? id).map Entity.descriptor

def load (g : Graph σ) (id : EntityId) : Except StoreError LoadedEntity := do
  match ← g.get? id with
  | some e => return e.content
  | none => return .empty id

def attributes
    (g : Graph σ) (id : EntityId) : Except StoreError Attributes := do
  return ((← g.get? id).map Entity.attributes).getD ∅

/-- The items of a category, or of the entity of that name if there is no such
category. -/
def listItems
    (g : Graph σ) (name : String) : Except StoreError (List Item) := do
  if ← EntityStore.hasCategory g.store name then
    let ids ← EntityStore.members g.store name
    let members ← ids.mapM g.get?
    return members.filterMap (·.map Entity.item)
  else
    return ((← g.get? name).map Entity.item).toList

def entities (g : Graph σ) : Except StoreError (List Entity) :=
  EntityStore.entities g.store

def entityCount (g : Graph σ) : Except StoreError Nat :=
  EntityStore.entityCount g.store

def stats (g : Graph σ) : Except StoreError Stats := do
  let all ← g.entities
  let links := all.countP Entity.isLink
  let categories ← EntityStore.categories g.store
  return ⟨all.length, all.length - links, links, categories.length⟩

end Graph

end LinkGraph
