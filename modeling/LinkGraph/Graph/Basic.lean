import LinkGraph.Hook.Registry
import LinkGraph.Store.Basic

/-!
# Graphs

A graph relates the entities and buckets of its store: an entity is a member of
the bucket of each of its categories, and a link is among the back-references of
its source.  It calls the handlers of its registry and keeps a journal of these
calls.  A changing operation may fail, and whatever it has done to the store by
then is still there unless a batch takes it back.
-/

namespace LinkGraph

/-- A store with the handlers that are called, whether kinds without a handler
are refused, and the journal. -/
structure Graph (σ : Type) where
  store : σ
  registry : HookRegistry := {}
  validates : Bool := false
  journal : Journal σ := []

/-- An operation that changes a graph. -/
abbrev GraphM (σ α : Type) := ExceptT StoreError (StateM (Graph σ)) α

namespace Graph

variable {σ α : Type}

def change (op : StoreM σ α) : GraphM σ α := fun g =>
  let (result, store) := op.run g.store
  (result, { g with store })

def query (read : σ → Except StoreError α) : GraphM σ α := fun g =>
  (read g.store, g)

def log (entry : JournalEntry σ) : GraphM σ Unit :=
  modify fun g => { g with journal := g.journal ++ [entry] }

/-- Calls the handler of an entity, and returns its answer. -/
def callHandler
    (point : HookPoint) (e : Entity) : GraphM σ (Except StoreError Unit) := do
  let g ← get
  let hook := g.registry.handlerFor e
  log (.called g.store hook.style point e)
  return hook.answer point e

/-- Calls the handler of an entity; a failure is noted and changes nothing. -/
def notify (point : HookPoint) (e : Entity) : GraphM σ Unit := do
  match ← callHandler point e with
  | .ok () => return ()
  | .error error => log (.failed point e.id error)

variable [EntityStore σ]

def fetch (id : EntityId) : GraphM σ (Option Entity) :=
  query (EntityStore.get · id)

/-- Runs an operation as one batch of the store: committed when it succeeds,
dropped when it fails.  A batch that cannot be opened or closed is not
dropped. -/
def batched (op : GraphM σ α) : GraphM σ α := do
  change EntityStore.begin
  let value ← tryCatch op fun e => do
    modify fun g => { g with store := EntityStore.abort g.store }
    throw e
  change EntityStore.commit
  return value

/-- Adds a link to the back-references of its source, if that is stored. -/
def attach (source link : EntityId) : GraphM σ Unit := do
  match ← fetch source with
  | none => return ()
  | some e =>
    if link ∈ e.linkedFrom then return ()
    else
      let _ ← change
        (EntityStore.put { e with linkedFrom := e.linkedFrom.insert link })

/-- Removes a link from the back-references of its source, if that is stored. -/
def detach (source link : EntityId) : GraphM σ Unit := do
  match ← fetch source with
  | none => return ()
  | some e =>
    if link ∈ e.linkedFrom then
      let _ ← change
        (EntityStore.put { e with linkedFrom := e.linkedFrom.erase link })
    else return ()

/-- Detaches an entity from its source, if it is a link. -/
def detachFromSource (e : Entity) : GraphM σ Unit :=
  match e.source? with
  | some source => detach source e.id
  | none => return ()

/-- Adds an entity to the buckets of its categories. -/
def enterIndex (e : Entity) : GraphM σ Unit :=
  e.categories.forM fun c => change (EntityStore.indexInsert c e.id)

/-- Removes an id from the buckets of an entity's categories. -/
def leaveIndex (id : EntityId) (e : Entity) : GraphM σ Unit :=
  e.categories.forM fun c => change (EntityStore.indexRemove c id)

/-- Writes an entity over whatever is stored under its id.  The previous version
leaves the index and its source, and its back-references are kept, so that the
links to it still go with it. -/
def replace (e : Entity) : GraphM σ Entity := do
  let e ← match ← fetch e.id with
    | none => pure e
    | some previous => do
      leaveIndex previous.id previous
      detachFromSource previous
      pure { e with linkedFrom := e.linkedFrom ∪ previous.linkedFrom }
  enterIndex e
  let _ ← change (EntityStore.put e)
  return e

/-- Refuses a kind without handler, if the graph validates kinds. -/
def checkCategory (kind : Category) : GraphM σ Unit := do
  let g ← get
  if g.validates && !g.registry.isRegistered kind then
    throw (.unknownCategory kind)

end Graph

end LinkGraph
