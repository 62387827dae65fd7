import LinkGraph.Entity.Format
import LinkGraph.Store.Basic
import LinkGraph.Store.Bucket

/-!
# The durable store

Two tables of bytes outlive a restart: entities by id, and member lists by
category.  Writes are staged in memory and reach the tables together when the
outermost batch commits; a write outside any batch is a batch of its own.  Reads
see staged writes first.  Bytes are decoded only when they are read, so a row
that is no entity makes only those calls fail that read it.
-/

namespace LinkGraph

/-- The tables that outlive a restart. -/
structure Tables where
  entities : Std.ExtTreeMap String (List UInt8) := ∅
  categories : Std.ExtTreeMap String (List UInt8) := ∅
  deriving DecidableEq

/-- Staged writes: an entity or its removal for an id, and the full member list
of a category, empty when the bucket goes away. -/
structure Batch where
  depth : Nat := 0
  entities : Std.ExtTreeMap EntityId (Option Entity) := ∅
  buckets : Std.ExtTreeMap Category (List EntityId) := ∅
  deriving DecidableEq

/-- A store over tables.  `refusal` is what the medium answers to a write
transaction, none as long as it accepts them; a refused transaction leaves the
tables as they are. -/
structure DurableStore where
  tables : Tables := {}
  batch : Option Batch := none
  refusal : Option String := none
  deriving DecidableEq

namespace Tables

def membersFormat : Binary.Format (List String) :=
  .list .text

def decode
    {α : Type} (format : Binary.Format α) (row : List UInt8) :
    Except StoreError α :=
  match format.read row with
  | .ok (value, _) => .ok value
  | .error e => .error (.deserialization e.message)

def entity (t : Tables) (id : EntityId) : Except StoreError (Option Entity) :=
  t.entities[id]?.mapM (decode .entity)

def members
    (t : Tables) (c : Category) : Except StoreError (Option (List EntityId)) :=
  t.categories[c]?.mapM (decode membersFormat)

/-- The tables with the writes of a batch. -/
def apply (t : Tables) (b : Batch) : Tables where
  entities := b.entities.foldl
    (fun rows id e? =>
      match e? with
      | some e => rows.insert id (Binary.Format.entity.write e)
      | none => rows.erase id)
    t.entities
  categories := b.buckets.foldl
    (fun rows c members =>
      if members.isEmpty then rows.erase c
      else rows.insert c (membersFormat.write members))
    t.categories

end Tables

namespace DurableStore

/-- The open batch, a new one if there is none. -/
def pending (s : DurableStore) : Batch :=
  s.batch.getD {}

/-- The staged value for an id: an entity, or none for its removal. -/
def staged? (s : DurableStore) (id : EntityId) : Option (Option Entity) :=
  s.batch.bind (·.entities[id]?)

def get
    (s : DurableStore) (id : EntityId) : Except StoreError (Option Entity) :=
  match s.staged? id with
  | some e? => .ok e?
  | none => s.tables.entity id

/-- The members of a category, none if there is no bucket.  A staged empty list
is no bucket, an empty list in the tables is one. -/
def members?
    (s : DurableStore) (c : Category) :
    Except StoreError (Option (List EntityId)) :=
  match s.batch.bind (·.buckets[c]?) with
  | some members => .ok (if members.isEmpty then none else some members)
  | none => s.tables.members c

/-- All entities by the id they are stored under. -/
def entityMap
    (s : DurableStore) :
    Except StoreError (Std.ExtTreeMap EntityId Entity) := do
  let rows ← s.tables.entities.toList.mapM fun (id, row) => do
    let e ← Tables.decode .entity row
    return (id, e)
  return s.pending.entities.foldl
    (fun entities id e? =>
      match e? with
      | some e => entities.insert id e
      | none => entities.erase id)
    (.ofList rows)

def bucketNames (s : DurableStore) : NameSet :=
  s.pending.buckets.foldl
    (fun names c members =>
      if members.isEmpty then names.erase c else names.insert c)
    (.ofList s.tables.categories.keys)

def begin : StoreM DurableStore Unit := fun s =>
  (.ok (),
    { s with batch := some { s.pending with depth := s.pending.depth + 1 } })

/-- Writes a batch to the tables in one transaction; a batch without writes
needs none. -/
def write (b : Batch) : StoreM DurableStore Unit := fun s =>
  if b.entities.isEmpty && b.buckets.isEmpty then (.ok (), s)
  else
    match s.refusal with
    | some reason => (.error (.io reason), s)
    | none => (.ok (), { s with tables := s.tables.apply b })

/-- Closes a batch.  Without an open batch there is nothing to close. -/
def commit : StoreM DurableStore Unit := fun s =>
  match s.batch with
  | none => (.ok (), s)
  | some b =>
    if 1 < b.depth then
      (.ok (), { s with batch := some { b with depth := b.depth - 1 } })
    else write b { s with batch := none }

def abort (s : DurableStore) : DurableStore :=
  { s with batch := none }

/-- Runs a call inside a batch of its own: committed when it succeeds, dropped
when it fails. -/
def staged {α : Type} (op : StoreM DurableStore α) : StoreM DurableStore α := do
  begin
  let value ← tryCatch op fun e => do
    modify abort
    throw e
  commit
  return value

def stageEntity
    (id : EntityId) (e? : Option Entity) : StoreM DurableStore Unit :=
  modify fun s =>
    { s with
      batch :=
        some { s.pending with entities := s.pending.entities.insert id e? } }

def stageBucket
    (c : Category) (members : List EntityId) : StoreM DurableStore Unit :=
  modify fun s =>
    { s with
      batch :=
        some { s.pending with buckets := s.pending.buckets.insert c members } }

def reading
    {α : Type} (read : DurableStore → Except StoreError α) :
    StoreM DurableStore α :=
  fun s => (read s, s)

/-- Replaces the member list of a category, if the change makes a new one. -/
def changeBucket
    (c : Category) (change : List EntityId → Option (List EntityId)) :
    StoreM DurableStore Unit :=
  staged do
    let members ← reading (·.members? c)
    match change (members.getD []) with
    | some members => stageBucket c members
    | none => return ()

instance : EntityStore DurableStore where
  get := get
  contains s id :=
    match s.staged? id with
    | some e? => .ok e?.isSome
    | none => .ok (s.tables.entities.contains id)
  members s c := (·.getD []) <$> s.members? c
  hasCategory s c := Option.isSome <$> s.members? c
  categories s := .ok s.bucketNames.toList
  entityCount s :=
    if s.pending.entities.isEmpty then .ok s.tables.entities.size
    else Std.ExtTreeMap.size <$> s.entityMap
  entities s := Std.ExtTreeMap.values <$> s.entityMap
  put e := staged do
    let previous ← reading (·.get e.id)
    stageEntity e.id (some e)
    return previous
  remove id := staged do
    let removed ← reading (·.get id)
    if removed.isSome then stageEntity id none
    return removed
  indexInsert c id := changeBucket c (Bucket.insert? · id)
  indexRemove c id := changeBucket c (Bucket.erase? · id)
  begin := begin
  commit := commit
  abort := abort
  reopen := abort
  extent s := s.tables.entities.size + s.pending.entities.size

end DurableStore

end LinkGraph
