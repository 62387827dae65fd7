import LinkGraph.Proofs.CommandLine.Saving
import LinkGraph.Proofs.Files.Locating
import LinkGraph.Proofs.Store.TableFile

/-!
# Where a graph is kept between commands

A backend keeps a graph in one file, as a snapshot or as tables; as long as the
file is missing, the graph is empty.  Sessions are opened from it with the graph
that it keeps, and saved to it.
-/

namespace LinkGraph

/-- What a backend writes to keep a graph. -/
def Backend.content : Backend → VolatileStore → List UInt8
  | volatile, m => Snapshot.write m.entities.values
  | durable, m => (Tables.holding m).toBytes

namespace VolatileStore

/-- The graph is of the kind that operations leave, and small enough for a
snapshot to be read. -/
structure Keepable (m : VolatileStore) : Prop where
  anchored : m.Anchored
  indexed : m.Indexed
  small : (Snapshot.write m.entities.values).length ≤ Snapshot.maxSize

theorem Keepable.empty : Keepable {} where
  anchored := anchored_empty
  indexed := indexed_empty
  small := by decide +kernel

end VolatileStore

namespace OpenSession

/-- The session is on the backend, and what is saved of it is the graph. -/
def Stores (backend : Backend) (m : VolatileStore) : OpenSession → Prop
  | volatile session => backend = .volatile ∧ session.graph.store = m
  | durable session =>
    backend = .durable ∧ session.graph.store.tables = .holding m

end OpenSession

namespace CommandLine

open FileTree (absolute)

variable {settings : Settings} {t : FileTree} {place place' : List String}
  {m m' : VolatileStore}

def memorySession
    (settings : Settings) (m : VolatileStore) : Session VolatileStore where
  graph := { store := m, registry := settings.registry,
             validates := settings.validates }
  backend := .volatile

def tablesSession
    (settings : Settings) (m : VolatileStore) : Session DurableStore :=
  .onTables (.holding m) settings.registry settings.validates

/-- The session on a graph that has been kept. -/
def keptSession (settings : Settings) (m : VolatileStore) : OpenSession :=
  match settings.backend with
  | .volatile => .volatile (memorySession settings m)
  | .durable => .durable (tablesSession settings m)

/-- The settings keep the graph at a place of the tree.  A snapshot is found
again only if its absolute path is not too long. -/
structure Kept
    (settings : Settings) (place : List String) (m : VolatileStore)
    (t : FileTree) : Prop where
  finds : t.Finds settings.database place
  node : t.node? place = some (.file ⟨settings.backend.content m, 0⟩) ∨
    t.node? place = none ∧ m = {}
  length : settings.backend = .volatile →
    (absolute place).utf8ByteSize ≤ FileTree.maxPath

namespace Kept

/-- A file that is put elsewhere leaves the graph where it is. -/
theorem put_other
    {content : FileContent} (h : Kept settings place m t)
    (hplace' : t.node? place' ≠ some .directory)
    (hother : absolute place' ≠ absolute place) :
    Kept settings place m (t.put place' (.file content)) where
  finds := h.finds.put hplace'
  node := by
    rw [FileTree.node?_put_of_ne t place' _ h.finds.ne_nil, if_neg hother]
    exact h.node
  length := h.length

/-- Another graph is kept after it has been put there. -/
theorem put_self (h : Kept settings place m t) (m' : VolatileStore) :
    Kept settings place m'
      (t.put place (.file ⟨settings.backend.content m', 0⟩)) where
  finds := h.finds.put h.finds.free
  node := Or.inl (FileTree.node?_put t _ h.finds.ne_nil)
  length := h.length

/-- What has been committed is in the file afterwards, whether or not the tables
have changed. -/
theorem persist_durable
    (h : Kept settings place m t) (hbackend : settings.backend = .durable)
    (hnode : t.node? place = some (.file ⟨settings.backend.content m, 0⟩))
    (session : Session DurableStore) :
    (persist settings (keptSession settings m) (.durable session) :
      StoreM FileTree Unit) t =
      (.ok (),
        t.put place (.file ⟨session.graph.store.tables.toBytes, 0⟩)) := by
  have hkept : (keptSession settings m).tables? = some (.holding m) := by
    rw [keptSession, hbackend]
    rfl
  rw [persist, hkept]
  dsimp only [OpenSession.tables?]
  by_cases hsame : some (Tables.holding m) = some session.graph.store.tables
  · rw [if_pos hsame, ← Option.some.inj hsame]
    rw [hbackend] at hnode
    exact congrArg (Prod.mk _) (FileTree.put_self h.finds.ne_nil hnode).symm
  · rw [if_neg hsame]
    exact attempt_write_ok _ (h.finds.write_eq _)

/-- What a session stores is saved, by its commits or at the end. -/
theorem saved_run (h : Kept settings place m t)
    (hnode : settings.backend = .durable →
      t.node? place = some (.file ⟨settings.backend.content m, 0⟩))
    {session : OpenSession} (hsession : session.Stores settings.backend m') :
    ∃ t', (persist settings (keptSession settings m) session :
        StoreM FileTree Unit) t =
        (.ok (), t') ∧
      (saveSession settings session : StoreM FileTree Unit) t' =
        (.ok (), t.put place (.file ⟨settings.backend.content m', 0⟩)) := by
  cases session with
  | volatile session =>
    obtain ⟨hbackend, rfl⟩ := hsession
    have hexport : session.graph.exportBytes =
        .ok (settings.backend.content session.graph.store) := by
      rw [hbackend]
      rfl
    refine ⟨t, rfl, ?_⟩
    rw [saveSession, hexport]
    exact attempt_write_ok _ (h.finds.write_eq _)
  | durable session =>
    obtain ⟨hbackend, htables⟩ := hsession
    refine ⟨_, h.persist_durable hbackend (hnode hbackend) session, ?_⟩
    rw [htables, hbackend]
    rfl

theorem openSession_volatile (h : Kept settings place m t) (hm : m.Keepable)
    (hworking : t.Sound t.working) (hbackend : settings.backend = .volatile) :
    (openSession settings : StoreM FileTree OpenSession) t =
      (.ok (keptSession settings m), t) := by
  have hkept : keptSession settings m =
      .volatile (restoredSession settings m.entities.values) := by
    rw [keptSession, hbackend, restoredSession, Session.inMemory,
      VolatileStore.restored_values hm.indexed hm.anchored.moored]
    rfl
  rcases h.node with hnode | ⟨hnode, rfl⟩
  · rw [hbackend] at hnode
    have hsome : (t.node? place).isSome := by
      rw [hnode]
      rfl
    have hresolve := h.finds.resolve_found hsome
    have hagain := (h.finds.sound hworking).resolve_absolute h.finds.ne_nil
      hsome (h.length hbackend)
    have hread := readSnapshot_run (FileTree.canonical_of_resolve hresolve)
      (FileTree.kind?_of_resolve hagain hnode)
      (FileTree.read_of_resolve hagain hnode) hm.small
    rw [hkept]
    exact openSession_run hbackend (FileTree.kind?_of_resolve hresolve hnode)
      hread (snapshotEntities_write hm.small)
  · have hmissing := h.finds.kind?_eq_none hnode
    rw [openSession, hbackend]
    dsimp only
    rw [bind_run_ok (kindOf_run t settings.database), hmissing,
      keptSession, hbackend]
    rfl

/-- Opening the tables makes their file if it is missing. -/
theorem openTables_run (h : Kept settings place m t) (hm : m.Keepable)
    (hbackend : settings.backend = .durable) :
    (openTables settings.database : StoreM FileTree Tables) t =
      (.ok (.holding m),
        t.put place (.file ⟨settings.backend.content m, 0⟩)) := by
  rw [hbackend, openTables]
  dsimp only
  rcases h.node with hnode | ⟨hnode, rfl⟩
  · rw [hbackend] at hnode
    have hopen : (FileAccess.openFile settings.database : StateM FileTree _) t =
        (.ok ⟨Backend.durable.content m, 0⟩, t) := by
      simp only [FileAccess.openFile, h.finds.openFile_found hnode]
    have hsize : ¬FileContent.size ⟨Backend.durable.content m, 0⟩ = 0 := by
      simp [FileContent.size, Backend.content, Tables.toBytes,
        Tables.magicBytes]
    rw [FileTree.put_self h.finds.ne_nil hnode,
      bind_run_ok (attempt_run_ok hopen), if_neg hsize, if_pos rfl]
    simp only [Backend.content, Tables.ofBytes?_holding hm.indexed hm.small]
    rfl
  · have hopen : (FileAccess.openFile settings.database : StateM FileTree _) t =
        (.ok ⟨[], 0⟩, t.put place (.file ⟨[], 0⟩)) := by
      simp only [FileAccess.openFile, h.finds.openFile_missing hnode]
    have hfinds : (t.put place (.file ⟨[], 0⟩)).Finds settings.database place :=
      h.finds.put h.finds.free
    have hempty : FileContent.size ⟨[], 0⟩ = 0 := rfl
    rw [bind_run_ok (attempt_run_ok hopen), if_pos hempty,
      bind_run_ok (attempt_write_ok _ (hfinds.write_eq _)), FileTree.put_put]
    rfl

theorem openSession_durable (h : Kept settings place m t) (hm : m.Keepable)
    (hbackend : settings.backend = .durable) :
    (openSession settings : StoreM FileTree OpenSession) t =
      (.ok (keptSession settings m),
        t.put place (.file ⟨settings.backend.content m, 0⟩)) := by
  have hopened := h.openTables_run hm hbackend
  rw [openSession, hbackend]
  dsimp only
  rw [bind_run_ok hopened, keptSession, hbackend]
  rfl

/-- Opening a session in memory leaves the tree as it is; opening one over
tables puts into it what was there or was not there yet. -/
theorem openSession_run (h : Kept settings place m t) (hm : m.Keepable)
    (hworking : t.Sound t.working) :
    ∃ t', (openSession settings : StoreM FileTree OpenSession) t =
        (.ok (keptSession settings m), t') ∧
      (settings.backend = .volatile ∧ t' = t ∨
        t' = t.put place (.file ⟨settings.backend.content m, 0⟩)) := by
  cases hbackend : settings.backend with
  | volatile =>
    exact ⟨t, h.openSession_volatile hm hworking hbackend, Or.inl ⟨rfl, rfl⟩⟩
  | durable =>
    exact ⟨_, hbackend ▸ h.openSession_durable hm hbackend, Or.inr rfl⟩

end Kept

end CommandLine

end LinkGraph
