import LinkGraph.CommandLine.Report
import LinkGraph.Proofs.CommandLine.Keeping
import LinkGraph.Proofs.Graph.Sturdy
import LinkGraph.Proofs.Http.Refusing

/-!
# What commands report and change

Reports are made of lookups and of cursors, so that sessions on matching graphs
give the same ones.  Deleting and importing report numbers that follow from the
graph, and leave what the same operation leaves in memory.
-/

namespace LinkGraph

open LinkGraph.Graph (Related tables_of_follows)

/-! ## Sessions that show the same -/

section Echoes

variable {σ τ α β : Type} [EntityStore σ] [EntityStore τ]

/-- The graphs of the sessions match, and the cursors are the same. -/
structure Session.Mirrors (s : Session σ) (s' : Session τ) : Prop where
  graph : Graph.Matches s.graph s'.graph
  cursors : s.cursors = s'.cursors

/-- On sessions that show the same, the operations answer the same, leave the
graphs as they are and do the same to the cursors. -/
def Echoes (p : SessionM σ α) (q : SessionM τ α) : Prop :=
  ∀ s s', Session.Mirrors s s' → (p s).1 = (q s').1 ∧ (p s).2.graph = s.graph ∧
    (q s').2.graph = s'.graph ∧ (p s).2.cursors = (q s').2.cursors

namespace Echoes

theorem pure (a : α) : Echoes (pure a : SessionM σ α) (pure a : SessionM τ α) :=
  fun _ _ h => ⟨rfl, rfl, rfl, h.cursors⟩

theorem bind
    {p : SessionM σ α} {q : SessionM τ α} {f : α → SessionM σ β}
    {k : α → SessionM τ β} (hp : Echoes p q) (hf : ∀ a, Echoes (f a) (k a)) :
    Echoes (p >>= f) (q >>= k) := by
  intro s s' h
  obtain ⟨hr, hgraph, hgraph', hcursors⟩ := hp s s' h
  rcases hrun : p s with ⟨r, s₁⟩
  rcases hrun' : q s' with ⟨r', s₁'⟩
  rw [hrun] at hr hgraph hcursors
  rw [hrun'] at hr hgraph' hcursors
  dsimp only at hr hgraph hgraph' hcursors
  subst hr
  cases r with
  | error e =>
    rw [bind_run_error hrun, bind_run_error hrun']
    exact ⟨rfl, hgraph, hgraph', hcursors⟩
  | ok a =>
    rw [bind_run_ok hrun, bind_run_ok hrun']
    have hmirrors : Session.Mirrors s₁ s₁' :=
      ⟨by rw [hgraph, hgraph']; exact h.graph, hcursors⟩
    obtain ⟨hanswer, hleft, hleft', hrest⟩ := hf a s₁ s₁' hmirrors
    exact ⟨hanswer, hleft.trans hgraph, hleft'.trans hgraph', hrest⟩

theorem lookup
    {read : Graph σ → Except StoreError α}
    {read' : Graph τ → Except StoreError α}
    (h : ∀ g g', Graph.Matches g g' → read g = read' g') :
    Echoes (Session.lookup read) (Session.lookup read') :=
  fun s s' hs => ⟨h s.graph s'.graph hs.graph, rfl, rfl, hs.cursors⟩

theorem list (name : String) :
    Echoes (Session.list name : SessionM σ CursorHandle)
      (Session.list name : SessionM τ _) := by
  refine .bind (.lookup fun _ _ h => h.listItems name) fun items s s' hs => ?_
  refine ⟨?_, rfl, rfl, ?_⟩
  · change Except.ok (s.cursors.openCursor items).1 =
      .ok (s'.cursors.openCursor items).1
    rw [hs.cursors]
  · change (s.cursors.openCursor items).2 = (s'.cursors.openCursor items).2
    rw [hs.cursors]

theorem next (id : String) (start count : Nat) :
    Echoes (Session.next id start count : SessionM σ (List Item))
      (Session.next id start count : SessionM τ _) := by
  intro s s' hs
  refine ⟨?_, rfl, rfl, ?_⟩
  · change (s.cursors.read id start count).1 =
      (s'.cursors.read id start count).1
    rw [hs.cursors]
  · change (s.cursors.read id start count).2 =
      (s'.cursors.read id start count).2
    rw [hs.cursors]

end Echoes

namespace CommandLine

theorem reportStatus_echoes (settings : Settings) (json : Bool) :
    Echoes (reportStatus settings json : SessionM σ (List String))
      (reportStatus settings json : SessionM τ _) :=
  .bind (.lookup fun _ _ h => h.stats) fun _ => .pure _

theorem reportFound_echoes (json : Bool) (id : String) :
    Echoes (reportFound json id : SessionM σ (List String))
      (reportFound json id : SessionM τ _) :=
  .bind (.lookup fun _ _ h => h.find? id) fun _ => .pure _

theorem reportLoaded_echoes (json : Bool) (id : String) :
    Echoes (reportLoaded json id : SessionM σ (List String))
      (reportLoaded json id : SessionM τ _) :=
  .bind (.lookup fun _ _ h => h.load id) fun _ =>
    .bind (.lookup fun _ _ h => h.attributes id) fun _ => .pure _

theorem reportListed_echoes (json : Bool) (name : String) :
    Echoes (reportListed json name : SessionM σ (List String))
      (reportListed json name : SessionM τ _) :=
  .bind (.list name) fun handle => .bind (.next handle.id 0 0) fun _ => .pure _

theorem exportBytes_echoes :
    Echoes (Session.lookup Graph.exportBytes : SessionM σ (List UInt8))
      (Session.lookup Graph.exportBytes : SessionM τ _) :=
  .lookup fun _ _ h => h.exportBytes

end CommandLine

end Echoes

/-! ## On graphs that have been kept -/

/-- As long as no batch is open, entities are counted by their rows. -/
theorem DurableStore.entityCount_of_idle
    {s : DurableStore} {m : VolatileStore} (hidle : s.batch = none)
    (htables : s.tables = .holding m) :
    EntityStore.entityCount s = .ok m.entities.size := by
  have hpending : s.pending.entities.isEmpty = true := by simp [pending, hidle]
  change (if s.pending.entities.isEmpty then Except.ok s.tables.entities.size
    else _) = _
  rw [if_pos hpending, htables]
  exact congrArg Except.ok Std.ExtTreeMap.size_map

namespace VolatileStore.Keepable

variable {m : VolatileStore}

theorem sturdy
    (h : m.Keepable) :
    ({ tables := .holding m } : DurableStore).Sturdy m where
  reflects := .of_idle h.indexed.keyed h.indexed.pruned rfl rfl
  fits := Tables.fits_holding h.indexed h.small
  accepts := rfl
  idle := rfl

end VolatileStore.Keepable

namespace CommandLine

variable {α : Type} {settings : Settings} {m : VolatileStore}
  {session : OpenSession}

theorem perform_volatile
    (op : {σ : Type} → [EntityStore σ] → SessionM σ α)
    {s s' : Session VolatileStore} {r : Except StoreError α}
    (h : op s = (r, s')) :
    OpenSession.perform op (.volatile s) = (r, .volatile s') := by
  change ((op s).1, OpenSession.volatile (op s).2) = _
  rw [h]

theorem perform_durable
    (op : {σ : Type} → [EntityStore σ] → SessionM σ α)
    {s s' : Session DurableStore} {r : Except StoreError α}
    (h : op s = (r, s')) :
    OpenSession.perform op (.durable s) = (r, .durable s') := by
  change ((op s).1, OpenSession.durable (op s).2) = _
  rw [h]

theorem related_kept (hm : m.Keepable) :
    Related (tablesSession settings m).graph (memorySession settings m).graph :=
  ⟨⟨m, hm.sturdy.reflects⟩, rfl, rfl, .nil⟩

/-- The sessions on both backends show the same. -/
theorem mirrors_kept (settings : Settings) (hm : m.Keepable) :
    (tablesSession settings m).Mirrors (memorySession settings m) where
  graph := Graph.matches_of_reads hm.sturdy.agrees.read
  cursors := rfl

/-- What depends only on what a session shows is answered as in memory, and
changes no tables. -/
theorem perform_kept
    (settings : Settings) (op : {σ : Type} → [EntityStore σ] → SessionM σ α)
    (hop : Echoes (op : SessionM DurableStore α)
      (op : SessionM VolatileStore α))
    (hm : m.Keepable) :
    ∃ session, OpenSession.perform op (keptSession settings m) =
        ((op (memorySession settings m)).1, session) ∧
      session.tables? = (keptSession settings m).tables? := by
  rw [keptSession]
  cases settings.backend with
  | volatile => exact ⟨_, perform_volatile op rfl, rfl⟩
  | durable =>
    obtain ⟨hanswer, hgraph, -⟩ := hop _ _ (mirrors_kept settings hm)
    refine ⟨_, perform_durable op (Prod.ext hanswer rfl), ?_⟩
    dsimp only [OpenSession.tables?]
    rw [hgraph]

/-- The graph that a deletion leaves. -/
def deleted
    (settings : Settings) (m : VolatileStore) (name : String) : VolatileStore :=
  (Graph.delete name (memorySession settings m).graph).2.store

def deletedLine (name : String) (before after : VolatileStore) : String :=
  s!"Deleted {name} ({before.entities.size - after.entities.size} entities removed)"

theorem delete_kept (settings : Settings) (hm : m.Keepable) (name : String) :
    (Graph.delete name (memorySession settings m).graph).1 = .ok () ∧
      (Graph.delete name (tablesSession settings m).graph).1 = .ok () ∧
      (Graph.delete name (tablesSession settings m).graph).2.store.batch = none ∧
      (Graph.delete name (tablesSession settings m).graph).2.store.tables =
        .holding (deleted settings m name) := by
  obtain ⟨u, hok⟩ :=
    Graph.delete_run_ok (g := (tablesSession settings m).graph) hm.sturdy name
  obtain ⟨hok', hidle, htables⟩ :=
    tables_of_follows (Graph.delete_simulates name _ _ (related_kept hm))
      (Graph.delete_atomic name) rfl hok
  exact ⟨hok', hok, hidle, htables⟩

theorem restore_kept
    (settings : Settings) (hm : m.Keepable) (es : List Entity) :
    (Graph.restore es (memorySession settings m).graph).1 = .ok es.length ∧
      (Graph.restore es (memorySession settings m).graph).2.store =
        m.restored es ∧
      (Graph.restore es (tablesSession settings m).graph).1 = .ok es.length ∧
      (Graph.restore es (tablesSession settings m).graph).2.store.tables =
        .holding (m.restored es) := by
  have hrestore := Graph.restore_run (g := (memorySession settings m).graph)
    hm.indexed.keyed es
  obtain ⟨n, hok⟩ :=
    Graph.restore_run_ok (g := (tablesSession settings m).graph) hm.sturdy es
  obtain ⟨hok', -, htables⟩ :=
    tables_of_follows (Graph.restore_simulates es _ _ (related_kept hm))
      (Graph.restore_atomic es) rfl hok
  rw [hrestore] at hok' htables
  obtain rfl : es.length = n := Except.ok.inj hok'
  rw [hrestore]
  exact ⟨rfl, rfl, hok, htables⟩

section Changes

variable {σ : Type} [EntityStore σ] {s : Session σ}

omit [EntityStore σ] in
theorem run_run_ok {p : GraphM σ α} {a : α} (h : (p s.graph).1 = .ok a) :
    Session.run p s = (.ok a, { s with graph := (p s.graph).2 }) :=
  Prod.ext h rfl

theorem reportDeleted_run {name : String} {before after : Nat}
    (hbefore : s.graph.entityCount = .ok before)
    (hdelete : (Graph.delete name s.graph).1 = .ok ())
    (hafter : (Graph.delete name s.graph).2.entityCount = .ok after) :
    reportDeleted name s =
      (.ok [s!"Deleted {name} ({before - after} entities removed)"],
      { s with graph := (Graph.delete name s.graph).2 }) := by
  have hlookup {s : Session σ} {n : Nat} (h : s.graph.entityCount = .ok n) :
      Session.lookup Graph.entityCount s = (.ok n, s) := Prod.ext h rfl
  rw [reportDeleted, bind_run_ok (hlookup hbefore),
    bind_run_ok (run_run_ok hdelete), bind_run_ok (hlookup hafter)]
  rfl

theorem reportImported_run {es : List Entity} {count : Nat}
    (hrestore : (Graph.restore es s.graph).1 = .ok count) :
    reportImported es s =
      (.ok [s!"Imported {count} entities"],
        { s with graph := (Graph.restore es s.graph).2 }) := by
  rw [reportImported, bind_run_ok (run_run_ok hrestore)]
  rfl

end Changes

/-- A deletion says how many entities have gone, and leaves on both backends
what it leaves in memory. -/
theorem perform_reportDeleted
    (settings : Settings) (hm : m.Keepable) (name : String) :
    ∃ session,
      OpenSession.perform (reportDeleted name) (keptSession settings m) =
        (.ok [deletedLine name m (deleted settings m name)], session) ∧
      session.Stores settings.backend (deleted settings m name) := by
  obtain ⟨hmemory, htables, hidle, hholds⟩ := delete_kept settings hm name
  rw [keptSession]
  cases settings.backend with
  | volatile =>
    have hrun :=
      reportDeleted_run (s := memorySession settings m) rfl hmemory rfl
    exact ⟨_, perform_volatile _ hrun, rfl, rfl⟩
  | durable =>
    have hbefore :
        (tablesSession settings m).graph.entityCount = .ok m.entities.size :=
      hm.sturdy.agrees.entityCount
    have hafter :
        (Graph.delete name (tablesSession settings m).graph).2.entityCount =
          .ok (deleted settings m name).entities.size :=
      DurableStore.entityCount_of_idle hidle hholds
    have hrun := reportDeleted_run hbefore htables hafter
    exact ⟨_, perform_durable _ hrun, rfl, hholds⟩

/-- An import restores the entities, and leaves on both backends what it leaves
in memory. -/
theorem perform_reportImported
    (settings : Settings) (hm : m.Keepable) (es : List Entity) :
    ∃ session,
      OpenSession.perform (reportImported es) (keptSession settings m) =
        (.ok [s!"Imported {es.length} entities"], session) ∧
      session.Stores settings.backend (m.restored es) := by
  obtain ⟨hmemory, hstore, htables, hholds⟩ := restore_kept settings hm es
  rw [keptSession]
  cases settings.backend with
  | volatile =>
    have hrun := reportImported_run (s := memorySession settings m) hmemory
    exact ⟨_, perform_volatile _ hrun, rfl, hstore⟩
  | durable =>
    have hrun := reportImported_run (s := tablesSession settings m) htables
    exact ⟨_, perform_durable _ hrun, rfl, hholds⟩

/-- What an import does in its session: the content is looked at, and its
entities are restored. -/
def importing
    (content : FileContent) {σ : Type} [EntityStore σ] :
    SessionM σ (List String) := do
  reportImported (← snapshotEntities content)

theorem perform_importing_refused {content : FileContent} {e : StoreError}
    (h : snapshotEntities content = .error e) (session : OpenSession) :
    OpenSession.perform (importing content) session = (.error e, session) := by
  simp only [importing, h]
  cases session with
  | volatile s => rfl
  | durable s => rfl

theorem perform_importing
    (settings : Settings) (hm : m.Keepable) {content : FileContent}
    {es : List Entity} (h : snapshotEntities content = .ok es) :
    ∃ session,
      OpenSession.perform (importing content) (keptSession settings m) =
        (.ok [s!"Imported {es.length} entities"], session) ∧
      session.Stores settings.backend (m.restored es) := by
  simp only [importing, h]
  exact perform_reportImported settings hm es

end CommandLine

end LinkGraph
