import LinkGraph.Cursor
import LinkGraph.Graph.Delete
import LinkGraph.Graph.Restore
import LinkGraph.Graph.Save
import LinkGraph.Store.Durable
import LinkGraph.Store.Volatile

/-!
# Sessions

A graph together with the cursors over its listings.
-/

namespace LinkGraph

/-- Where the entities of a session are kept. -/
inductive Backend where
  | volatile
  | durable
  deriving Repr, DecidableEq

def Backend.word : Backend → String
  | volatile => "memory"
  | durable => "redb"

def Backend.ofWord? (word : String) : Option Backend :=
  [volatile, durable].find? (·.word = word)

/-- A graph, its open cursors, and where its entities are kept. -/
structure Session (σ : Type) where
  graph : Graph σ
  cursors : CursorRegistry := {}
  backend : Backend

/-- An operation that changes a session. -/
abbrev SessionM (σ α : Type) := ExceptT StoreError (StateM (Session σ)) α

namespace Session

variable {σ α : Type}

def inMemory
    (registry : HookRegistry) (validates : Bool) : Session VolatileStore where
  graph := { store := {}, registry, validates }
  backend := .volatile

def onTables (tables : Tables) (registry : HookRegistry) (validates : Bool) :
    Session DurableStore where
  graph := { store := { tables }, registry, validates }
  backend := .durable

def run (op : GraphM σ α) : SessionM σ α := fun s =>
  let (result, graph) := op.run s.graph
  (result, { s with graph })

def lookup (read : Graph σ → Except StoreError α) : SessionM σ α := fun s =>
  (read s.graph, s)

/-- Opens a cursor over a listing. -/
def list [EntityStore σ] (name : String) : SessionM σ CursorHandle := do
  let items ← lookup (·.listItems name)
  modifyGet fun s =>
    let (handle, cursors) := s.cursors.openCursor items
    (handle, { s with cursors })

def next (id : String) (start count : Nat) : SessionM σ (List Item) := fun s =>
  let (result, cursors) := s.cursors.read id start count
  (result, { s with cursors })

/-- The session after its store has been closed and opened again. -/
def reopen [EntityStore σ] (s : Session σ) : Session σ where
  graph := { s.graph with store := EntityStore.reopen s.graph.store }
  backend := s.backend

end Session

end LinkGraph
