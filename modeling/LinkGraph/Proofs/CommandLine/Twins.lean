import LinkGraph.CommandLine.Run
import LinkGraph.Proofs.CommandLine.Lookups
import LinkGraph.Proofs.CommandLine.Performing

/-!
# Trees that keep the same graph

A command opens a session on the graph that is kept, and saves it if it changes
it.  Twin trees keep the same graph, one as a snapshot and one as tables, and
nothing else tells them apart.
-/

namespace LinkGraph

open FileTree (Apart absolute)

/-- The settings with a backend and the path of its file. -/
def Settings.on
    (settings : Settings) (backend : Backend) (database : String) : Settings :=
  { settings with backend, database }

def Outcome.ofAnswer : Except StoreError (List String) → Outcome
  | .ok lines => { lines }
  | .error e => { lines := [], failure := some (.store e) }

namespace CommandLine

/-! ## Sessions from and to a file -/

section InSession

variable {α : Type} {settings : Settings} {t t' t'' : FileTree}
  {session session' : OpenSession}

theorem outcome_run (op : StoreM FileTree (List String)) (t : FileTree) :
    (outcome op : StateM FileTree Outcome) t =
      (.ofAnswer (op t).1, (op t).2) := by
  rw [outcome]
  simp only [bind, StateT.bind, ExceptT.run]
  rcases op t with ⟨r, t'⟩
  cases r with
  | ok lines => rfl
  | error e => rfl

/-- A session whose tables are the same as before has nothing to write. -/
theorem persist_same (h : session'.tables? = session.tables?) (t : FileTree) :
    (persist settings session session' : StoreM FileTree Unit) t =
      (.ok (), t) := by
  rw [persist, ← h]
  cases session'.tables? with
  | none => rfl
  | some tables =>
    dsimp only
    rw [if_pos rfl]
    rfl

variable (op : {σ : Type} → [EntityStore σ] → SessionM σ α)

/-- Once what an operation has committed is written, only a session that is to
be saved has work left. -/
theorem inSession_run
    (saves : Bool) {r : Except StoreError α}
    (hopen : (openSession settings : StoreM FileTree OpenSession) t =
      (.ok session, t'))
    (hperform : OpenSession.perform op session = (r, session'))
    (hpersist : (persist settings session session' : StoreM FileTree Unit) t' =
      (.ok (), t'')) :
    (inSession settings saves op : StoreM FileTree α) t =
      (do
        let value ← r
        if saves then saveSession settings session'
        return value : StoreM FileTree α) t'' := by
  rw [inSession, bind_run_ok hopen, hperform]
  dsimp only
  rw [bind_run_ok hpersist]

theorem inSession_failed
    (saves : Bool) {e : StoreError}
    (hopen : (openSession settings : StoreM FileTree OpenSession) t =
      (.ok session, t'))
    (hperform : OpenSession.perform op session = (.error e, session'))
    (hpersist : (persist settings session session' : StoreM FileTree Unit) t' =
      (.ok (), t'')) :
    (inSession settings saves op : StoreM FileTree α) t = (.error e, t'') :=
  inSession_run op saves hopen hperform hpersist

theorem inSession_look
    {r : Except StoreError α}
    (hopen : (openSession settings : StoreM FileTree OpenSession) t =
      (.ok session, t'))
    (hperform : OpenSession.perform op session = (r, session'))
    (hpersist : (persist settings session session' : StoreM FileTree Unit) t' =
      (.ok (), t'')) :
    (inSession settings false op : StoreM FileTree α) t = (r, t'') := by
  rw [inSession_run op false hopen hperform hpersist]
  cases r with
  | error e => rfl
  | ok a => rfl

theorem inSession_saved
    {a : α} {u : FileTree}
    (hopen : (openSession settings : StoreM FileTree OpenSession) t =
      (.ok session, t'))
    (hperform : OpenSession.perform op session = (.ok a, session'))
    (hpersist : (persist settings session session' : StoreM FileTree Unit) t' =
      (.ok (), t''))
    (hsave : (saveSession settings session' : StoreM FileTree Unit) t'' =
      (.ok (), u)) :
    (inSession settings true op : StoreM FileTree α) t = (.ok a, u) := by
  rw [inSession_run op true hopen hperform hpersist]
  change (do saveSession settings session'; return a : StoreM FileTree α) t'' = _
  rw [bind_run_ok hsave]
  rfl

section Export

variable {output file : String} {bs : List UInt8}

/-- An export writes a snapshot of the graph to the file that has been found. -/
theorem runExport_written
    (hfile : (outputFile output : StoreM FileTree String) t = (.ok file, t))
    (hsession : (inSession settings false (Session.lookup Graph.exportBytes) :
      StoreM FileTree (List UInt8)) t = (.ok bs, t'))
    (hwrite : t'.write file ⟨bs, 0⟩ = .ok t'') :
    (runExport settings output : StoreM FileTree (List String)) t =
      (.ok [s!"Exported {bs.length} bytes to {Text.quoted file}"], t'') := by
  rw [runExport, bind_run_ok hfile, bind_run_ok hsession,
    bind_run_ok (attempt_write_ok _ hwrite)]
  rfl

theorem runExport_failed {e : FileError}
    (hfile : (outputFile output : StoreM FileTree String) t = (.ok file, t))
    (hsession : (inSession settings false (Session.lookup Graph.exportBytes) :
      StoreM FileTree (List UInt8)) t = (.ok bs, t'))
    (hwrite : t'.write file ⟨bs, 0⟩ = .error e) :
    (runExport settings output : StoreM FileTree (List String)) t =
      (.error (.io ("Write file: " ++ e.message)), t') := by
  rw [runExport, bind_run_ok hfile, bind_run_ok hsession,
    bind_run_error (attempt_write_error _ hwrite)]

end Export

end InSession

/-! ## Rewritten files -/

/-- The tree, or the tree with a file at the place. -/
def Rewritten (place : List String) (t t' : FileTree) : Prop :=
  t' = t ∨ ∃ content, t' = t.put place (.file content)

namespace Rewritten

variable {t t' u : FileTree} {place : List String} {keys : List String}

theorem put (h : Rewritten place t t') (content : FileContent) :
    Rewritten place t (t'.put place (.file content)) := by
  rcases h with rfl | ⟨old, rfl⟩
  · exact Or.inr ⟨content, rfl⟩
  · rw [FileTree.put_put]
    exact Or.inr ⟨content, rfl⟩

theorem apart_left
    (h : Rewritten place t t') (hapart : Apart keys t u)
    (hkey : absolute place ∈ keys) :
    Apart keys t' u := by
  rcases h with rfl | ⟨content, rfl⟩
  · exact hapart
  · exact hapart.put_left hkey

theorem apart_right
    (h : Rewritten place t t') (hapart : Apart keys u t)
    (hkey : absolute place ∈ keys) :
    Apart keys u t' :=
  (h.apart_left hapart.symm hkey).symm

end Rewritten

section Keeping

variable {α : Type} {settings : Settings} {t : FileTree} {place : List String}
  {m m' : VolatileStore}

theorem Kept.sound_working
    (h : Kept settings place m t) {t' : FileTree}
    (hrewritten : Rewritten place t t') (hworking : t.Sound t.working) :
    t'.Sound t'.working := by
  rcases hrewritten with rfl | ⟨content, rfl⟩
  · exact hworking
  · exact hworking.put h.finds.ne_nil h.finds.free

/-- A session is opened on the graph that is kept, and the graph is kept on, in
a file if it is kept as tables. -/
theorem Kept.opened (h : Kept settings place m t) (hm : m.Keepable)
    (hworking : t.Sound t.working) :
    ∃ t', (openSession settings : StoreM FileTree OpenSession) t =
        (.ok (keptSession settings m), t') ∧
      Rewritten place t t' ∧ Kept settings place m t' ∧
      (settings.backend = .durable →
        t'.node? place = some (.file ⟨settings.backend.content m, 0⟩)) := by
  obtain ⟨t', hopen, ⟨hbackend, rfl⟩ | rfl⟩ := h.openSession_run hm hworking
  · refine ⟨_, hopen, Or.inl rfl, h, fun hdurable => ?_⟩
    rw [hbackend] at hdurable
    cases hdurable
  · exact ⟨_, hopen, Or.inr ⟨_, rfl⟩, h.put_self m,
      fun _ => FileTree.node?_put t _ h.finds.ne_nil⟩

/-- Whatever becomes of an operation over tables, what it has committed is in
the file afterwards. -/
theorem Kept.committed
    (h : Kept settings place m t) (hm : m.Keepable)
    (hworking : t.Sound t.working) (hbackend : settings.backend = .durable)
    (saves : Bool) (op : {σ : Type} → [EntityStore σ] → SessionM σ α) :
    ((inSession settings saves op : StoreM FileTree α) t).2.node? place =
      some (.file
        ⟨(op (tablesSession settings m)).2.graph.store.tables.toBytes, 0⟩) := by
  obtain ⟨t', hopen, -, hkept, hnode⟩ := h.opened hm hworking
  rcases hop : op (tablesSession settings m) with ⟨r, session⟩
  have hperform : OpenSession.perform op (keptSession settings m) =
      (r, .durable session) := by
    rw [keptSession, hbackend]
    exact perform_durable op hop
  have hpersist := hkept.persist_durable hbackend (hnode hbackend) session
  have hput := FileTree.node?_put t'
    (.file ⟨session.graph.store.tables.toBytes, 0⟩) hkept.finds.ne_nil
  -- Saving a session over tables does nothing, whether or not it is asked for.
  rw [inSession_run op saves hopen hperform hpersist]
  cases r with
  | error e => exact hput
  | ok a =>
    cases saves with
    | false => exact hput
    | true => exact hput

/-- An operation that fails leaves the graph that is kept, if it has committed
nothing. -/
theorem Kept.refused
    (h : Kept settings place m t) (hm : m.Keepable)
    (hworking : t.Sound t.working)
    (op : {σ : Type} → [EntityStore σ] → SessionM σ α) {e : StoreError}
    (hop : ∀ session, OpenSession.perform op session = (.error e, session)) :
    ∃ t', (inSession settings true op : StoreM FileTree α) t = (.error e, t') ∧
      Rewritten place t t' ∧ Kept settings place m t' := by
  obtain ⟨t', hopen, hrewritten, hkept, -⟩ := h.opened hm hworking
  have hperform := hop (keptSession settings m)
  exact ⟨t', inSession_failed op true hopen hperform (persist_same rfl t'),
    hrewritten, hkept⟩

/-- After an operation that succeeds, what it leaves is kept. -/
theorem Kept.changed
    (h : Kept settings place m t) (hm : m.Keepable)
    (hworking : t.Sound t.working)
    (op : {σ : Type} → [EntityStore σ] → SessionM σ α) {a : α}
    (hop : ∃ session, OpenSession.perform op (keptSession settings m) =
        (.ok a, session) ∧ session.Stores settings.backend m') :
    ∃ t', (inSession settings true op : StoreM FileTree α) t = (.ok a, t') ∧
      Rewritten place t t' ∧ Kept settings place m' t' := by
  obtain ⟨t', hopen, hrewritten, hkept, hnode⟩ := h.opened hm hworking
  obtain ⟨session, hperform, hstores⟩ := hop
  obtain ⟨t'', hpersist, hsave⟩ := hkept.saved_run hnode hstores
  exact ⟨_, inSession_saved op hopen hperform hpersist hsave, hrewritten.put _,
    hkept.put_self m'⟩

end Keeping

/-! ## Twin trees -/

section Twins

variable {α : Type} {settings : Settings} {d d' : String}
  {place place' : List String} {m m' : VolatileStore} {t t' u u' : FileTree}

/-- The trees keep the same graph, one in memory and one over tables, and
nothing else tells them apart. -/
structure Twins
    (settings : Settings) (d d' : String) (place place' : List String)
    (m : VolatileStore) (t t' : FileTree) : Prop where
  apart : Apart [absolute place, absolute place'] t t'
  memory : Kept (settings.on .volatile d) place m t
  tables : Kept (settings.on .durable d') place' m t'
  working : t.Sound t.working

namespace Twins

theorem working'
    (h : Twins settings d d' place place' m t t') :
    t'.Sound t'.working := by
  rw [← h.apart.working]
  exact h.apart.sound h.working

theorem rewritten
    (h : Twins settings d d' place place' m t t') (hleft : Rewritten place t u)
    (hright : Rewritten place' t' u')
    (hmemory : Kept (settings.on .volatile d) place m' u)
    (htables : Kept (settings.on .durable d') place' m' u') :
    Twins settings d d' place place' m' u u' where
  apart := by
    refine hleft.apart_left ?_ List.mem_cons_self
    exact hright.apart_right h.apart (List.mem_cons_of_mem _ List.mem_cons_self)
  memory := hmemory
  tables := htables
  working := h.memory.sound_working hleft h.working

/-- A file that is put elsewhere into both trees keeps them twins. -/
theorem put_both
    {content : FileContent} {elsewhere : List String}
    (h : Twins settings d d' place place' m t t')
    (hfree : t.node? elsewhere ≠ some .directory)
    (hkey : absolute elsewhere ∉ [absolute place, absolute place']) :
    Twins settings d d' place place' m (t.put elsewhere (.file content))
      (t'.put elsewhere (.file content)) := by
  have hroot : elsewhere ≠ [] := by
    rintro rfl
    exact hfree rfl
  have hfree' : t'.node? elsewhere ≠ some .directory :=
    h.apart.node hkey ▸ hfree
  rw [List.mem_cons, List.mem_singleton, not_or] at hkey
  constructor
  · exact h.apart.put_both (by simp [hkey])
  · exact h.memory.put_other hfree hkey.1
  · exact h.tables.put_other hfree' hkey.2
  · exact h.working.put hroot hfree

/-- What depends only on what a session shows is answered as in memory, on both
trees. -/
theorem shown
    (h : Twins settings d d' place place' m t t') (hm : m.Keepable)
    (op op' : {σ : Type} → [EntityStore σ] → SessionM σ α)
    (hop : Echoes (op : SessionM DurableStore α)
      (op : SessionM VolatileStore α))
    (hop' : Echoes (op' : SessionM DurableStore α)
      (op' : SessionM VolatileStore α)) :
    (inSession (settings.on .volatile d) false op : StoreM FileTree α) t =
        ((op (memorySession settings m)).1, t) ∧
      ∃ u', (inSession (settings.on .durable d') false op' :
        StoreM FileTree α) t' =
          ((op' (memorySession settings m)).1, u') ∧
        Twins settings d d' place place' m t u' := by
  constructor
  · obtain ⟨session, hperform, htables⟩ :=
      perform_kept (settings.on .volatile d) op hop hm
    have hopen := h.memory.openSession_volatile hm h.working rfl
    exact inSession_look op hopen hperform (persist_same htables t)
  · obtain ⟨session, hperform, htables⟩ :=
      perform_kept (settings.on .durable d') op' hop' hm
    obtain ⟨u', hopen, hrewritten, hkept, -⟩ := h.tables.opened hm h.working'
    exact ⟨u', inSession_look op' hopen hperform (persist_same htables u'),
      h.rewritten (Or.inl rfl) hrewritten h.memory hkept⟩

/-- What fails in every session leaves the same graph in both files. -/
theorem refused (h : Twins settings d d' place place' m t t') (hm : m.Keepable)
    (op : {σ : Type} → [EntityStore σ] → SessionM σ α) {e : StoreError}
    (hop : ∀ session, OpenSession.perform op session = (.error e, session)) :
    ∃ u u', (inSession (settings.on .volatile d) true op :
      StoreM FileTree α) t = (.error e, u) ∧
      (inSession (settings.on .durable d') true op : StoreM FileTree α) t' =
        (.error e, u') ∧
      Twins settings d d' place place' m u u' := by
  obtain ⟨u, hleft, hrewritten, hmemory⟩ := h.memory.refused hm h.working op hop
  obtain ⟨u', hright, hrewritten', htables⟩ :=
    h.tables.refused hm h.working' op hop
  exact ⟨u, u', hleft, hright,
    h.rewritten hrewritten hrewritten' hmemory htables⟩

/-- What changes the graph alike on both backends is saved in both files. -/
theorem changed
    (h : Twins settings d d' place place' m t t') (hm : m.Keepable)
    (op : {σ : Type} → [EntityStore σ] → SessionM σ α) {a : α}
    (hop : ∀ backend database, ∃ session,
      OpenSession.perform op (keptSession (settings.on backend database) m) =
        (.ok a, session) ∧ session.Stores backend m') :
    ∃ u u', (inSession (settings.on .volatile d) true op :
      StoreM FileTree α) t = (.ok a, u) ∧
      (inSession (settings.on .durable d') true op : StoreM FileTree α) t' =
        (.ok a, u') ∧
      Twins settings d d' place place' m' u u' := by
  obtain ⟨u, hleft, hrewritten, hmemory⟩ :=
    h.memory.changed hm h.working op (hop .volatile d)
  obtain ⟨u', hright, hrewritten', htables⟩ :=
    h.tables.changed hm h.working' op (hop .durable d')
  exact ⟨u, u', hleft, hright,
    h.rewritten hrewritten hrewritten' hmemory htables⟩

end Twins

end Twins

end CommandLine

end LinkGraph
