import LinkGraph.Entity.Basic
import LinkGraph.Error

/-!
# Stores

A store keeps entities by their id, and for each category a bucket with the ids
of its members.  It does not relate the two: that is the work of the graph.
Writes between `begin` and the matching `commit` belong together; `abort` drops
them.  Every call but `abort` may fail, and a failed call leaves a state behind
like any other.
-/

namespace LinkGraph

/-- A call that changes a store. -/
abbrev StoreM (σ α : Type) := ExceptT StoreError (StateM σ) α

/-- The calls that a graph makes on its store. -/
class EntityStore (σ : Type) where
  /-- The entity stored under an id. -/
  get : σ → EntityId → Except StoreError (Option Entity)
  /-- Whether an entity is stored under an id. -/
  contains : σ → EntityId → Except StoreError Bool
  /-- The ids in a bucket, none if there is no such bucket. -/
  members : σ → Category → Except StoreError (List EntityId)
  /-- Whether a bucket exists. -/
  hasCategory : σ → Category → Except StoreError Bool
  /-- The names of all buckets, in order. -/
  categories : σ → Except StoreError (List Category)
  /-- How many entities are stored. -/
  entityCount : σ → Except StoreError Nat
  /-- All entities, in the order of their ids. -/
  entities : σ → Except StoreError (List Entity)
  /-- Stores an entity under its id, and returns the one it replaces. -/
  put : Entity → StoreM σ (Option Entity)
  /-- Removes and returns the entity stored under an id. -/
  remove : EntityId → StoreM σ (Option Entity)
  /-- Adds an id to a bucket. -/
  indexInsert : Category → EntityId → StoreM σ Unit
  /-- Removes an id from a bucket, and the bucket with its last member. -/
  indexRemove : Category → EntityId → StoreM σ Unit
  /-- Opens a batch, or a batch within the open one. -/
  begin : StoreM σ Unit
  /-- Closes a batch; closing the outermost makes its writes durable. -/
  commit : StoreM σ Unit
  /-- Drops the open batch, however deep. -/
  abort : σ → σ
  /-- What is left when the store is closed and opened again. -/
  reopen : σ → σ
  /-- A bound on the number of entities that `get` can find. -/
  extent : σ → Nat

end LinkGraph
