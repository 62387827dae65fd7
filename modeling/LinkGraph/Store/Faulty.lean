import LinkGraph.Store.Basic

/-!
# Stores with faults

A store in which chosen calls fail before they reach the store inside.  It also
notes the marks that a graph sets around its batches, a mark being noted before
its call can fail.
-/

namespace LinkGraph

/-- A mark around a batch. -/
inductive BatchMark where
  | begin
  | commit
  | abort
  deriving Repr, DecidableEq

def BatchMark.name : BatchMark → String
  | begin => "begin"
  | commit => "commit"
  | abort => "abort"

/-- A call that fails, for one key or for every key. -/
structure Fault where
  call : String
  key : String
  deriving Repr, DecidableEq

/-- The key of a fault that strikes for every key. -/
def Fault.anyKey : String := "*"

/-- A store inside, the faults that strike its calls, and the marks noted so
far. -/
structure FaultyStore (σ : Type) where
  inner : σ
  faults : List Fault := []
  marks : List BatchMark := []

namespace FaultyStore

variable {σ : Type}

/-- Fails if a fault strikes a call. -/
def check (s : FaultyStore σ) (call key : String) : Except StoreError Unit :=
  if s.faults.any fun f => f.call = call ∧
  (f.key = key ∨ f.key = Fault.anyKey) then
    .error (.io s!"fault {call} {key}")
  else .ok ()

/-- A reading call, unless a fault strikes. -/
def reading {α : Type} (s : FaultyStore σ) (call key : String)
    (read : σ → Except StoreError α) : Except StoreError α := do
  s.check call key
  read s.inner

/-- A changing call, unless a fault strikes. -/
def changing
    {α : Type} (call key : String) (op : StoreM σ α) :
    StoreM (FaultyStore σ) α :=
  fun s =>
    match s.check call key with
    | .error e => (.error e, s)
    | .ok () =>
      let (result, inner) := op.run s.inner
      (result, { s with inner })

def note (mark : BatchMark) (s : FaultyStore σ) : FaultyStore σ :=
  { s with marks := s.marks ++ [mark] }

instance [EntityStore σ] : EntityStore (FaultyStore σ) where
  get s id := s.reading "get" id (EntityStore.get · id)
  contains s id := s.reading "contains" id (EntityStore.contains · id)
  members s c := s.reading "members" c (EntityStore.members · c)
  hasCategory s c := s.reading "has_category" c (EntityStore.hasCategory · c)
  categories s := s.reading "categories" "" EntityStore.categories
  entityCount s := s.reading "entity_count" "" EntityStore.entityCount
  entities s := s.reading "entities" "" EntityStore.entities
  put e := changing "put" e.id (EntityStore.put e)
  remove id := changing "remove" id (EntityStore.remove id)
  indexInsert c id := changing "index_insert" c (EntityStore.indexInsert c id)
  indexRemove c id := changing "index_remove" c (EntityStore.indexRemove c id)
  begin := do
    modify (note .begin)
    changing "begin" "" EntityStore.begin
  commit := do
    modify (note .commit)
    changing "commit" "" EntityStore.commit
  abort s :=
    let s := s.note .abort
    { s with inner := EntityStore.abort s.inner }
  reopen s := { s with inner := EntityStore.reopen s.inner }
  extent s := EntityStore.extent s.inner

end FaultyStore

end LinkGraph
