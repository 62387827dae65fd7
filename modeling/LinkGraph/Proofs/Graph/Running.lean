import LinkGraph.Graph.Delete
import LinkGraph.Graph.Restore
import LinkGraph.Graph.Save
import LinkGraph.Proofs.Store.Content
import LinkGraph.Proofs.Store.Sequencing

/-!
# Running operations on volatile stores

An operation of a graph is run by applying it to the graph.  On a volatile store
no call fails, so that each building block of an operation has one outcome; this
file computes it as a function of the graph.
-/

namespace LinkGraph.Graph

/-! ## Calls and handlers -/

section Calls

variable {σ α : Type} {g : Graph σ}

theorem change_run (op : StoreM σ α) :
    change op g = ((op g.store).1, { g with store := (op g.store).2 }) := rfl

theorem change_run_of_eq {op : StoreM σ α} {r : Except StoreError α} {s : σ}
    (h : op g.store = (r, s)) : change op g = (r, { g with store := s }) := by
  rw [change_run, h]

/-- What a call of a handler adds to the journal. -/
def reports (g : Graph σ) (point : HookPoint) (e : Entity) : Journal σ :=
  let hook := g.registry.handlerFor e
  .called g.store hook.style point e ::
    match hook.answer point e with
    | .ok () => []
    | .error error => [.failed point e.id error]

/-- The graph after a call of a handler. -/
def notified (g : Graph σ) (point : HookPoint) (e : Entity) : Graph σ :=
  { g with journal := g.journal ++ g.reports point e }

@[simp] theorem store_notified (g : Graph σ) (point : HookPoint) (e : Entity) :
    (g.notified point e).store = g.store := rfl

theorem notify_run (g : Graph σ) (point : HookPoint) (e : Entity) :
    notify point e g = (.ok (), g.notified point e) := by
  have hcall : callHandler point e g =
      (.ok ((g.registry.handlerFor e).answer point e),
        { g with journal := g.journal ++
          [.called g.store (g.registry.handlerFor e).style point e] }) := rfl
  rw [notify, bind_run_ok hcall]
  cases hanswer : (g.registry.handlerFor e).answer point e with
  | ok _ => simp [notified, reports, hanswer]
  | error error =>
    simp only [notified, reports, hanswer]
    change (Except.ok (), { g with journal := (g.journal ++ _) ++ [_] }) = _
    simp

/-- The graph takes entities of a kind. -/
def admits (g : Graph σ) (kind : Category) : Bool :=
  !g.validates || g.registry.isRegistered kind

theorem checkCategory_run (g : Graph σ) (kind : Category) :
    checkCategory kind g =
      if g.admits kind then (.ok (), g)
      else (.error (.unknownCategory kind), g) := by
  have hget : (get : GraphM σ (Graph σ)) g = (.ok g, g) := rfl
  rw [checkCategory, bind_run_ok hget, admits]
  cases g.validates with
  | false => simp
  | true =>
    cases g.registry.isRegistered kind with
    | false => rfl
    | true => simp

theorem forM_change_run {op : α → StoreM σ Unit} {step : σ → α → σ}
    (hop : ∀ a s, op a s = (.ok (), step s a)) (as : List α) :
    as.forM (fun a => change (op a)) g =
      (.ok (), { g with store := as.foldl step g.store }) := by
  induction as generalizing g with
  | nil => rfl
  | cons a as ih =>
    have hrun :
        change (op a) g = (.ok (), { g with store := step g.store a }) := by
      rw [change_run, hop]
    change (change (op a) >>= fun _ => as.forM fun a => change (op a)) g = _
    rw [bind_run_ok hrun]
    exact ih

/-- What each element keeps, a list of operations keeps. -/
theorem forM_run_induction
    {p : α → GraphM σ Unit} (P : Graph σ → Prop)
    (hstep : ∀ a g, P g → ∃ g', p a g = (.ok (), g') ∧ P g') (as : List α)
    (hg : P g) :
    ∃ g', as.forM p g = (.ok (), g') ∧ P g' := by
  induction as generalizing g with
  | nil => exact ⟨g, rfl, hg⟩
  | cons a as ih =>
    obtain ⟨g₁, hrun, hg₁⟩ := hstep a g hg
    obtain ⟨g₂, hrest, hg₂⟩ := ih hg₁
    refine ⟨g₂, ?_, hg₂⟩
    change (p a >>= fun _ => as.forM p) g = _
    rw [bind_run_ok hrun, hrest]

end Calls

/-! ## Building blocks on a volatile store -/

variable {α : Type} {g g' : Graph VolatileStore} {id source link : EntityId}
  {e : Entity}

@[simp] theorem fetch_run (g : Graph VolatileStore) (id : EntityId) :
    fetch id g = (.ok g.store.entities[id]?, g) := rfl

theorem put_run (g : Graph VolatileStore) (e : Entity) :
    change (EntityStore.put e) g =
      (.ok g.store.entities[e.id]?, { g with store := g.store.place e }) := rfl

theorem begin_run
    (g : Graph VolatileStore) :
    change EntityStore.begin g = (.ok (), g) := rfl

theorem commit_run
    (g : Graph VolatileStore) :
    change EntityStore.commit g = (.ok (), g) := rfl

theorem batched_run_ok
    {op : GraphM VolatileStore α} {a : α} (h : op g = (.ok a, g')) :
    batched op g = (.ok a, g') := by
  rw [batched, bind_run_ok (begin_run g), bind_run_ok (tryCatch_run_ok h),
    bind_run_ok (commit_run g'), pure_run]

theorem attach_run (hs : g.store.Keyed) (source link : EntityId) :
    attach source link g =
      (.ok (), { g with store := g.store.revise source (·.linked link) }) := by
  rw [attach, bind_run_ok (fetch_run g source)]
  cases he : g.store.entities[source]? with
  | none => simp [VolatileStore.revise_of_none he]
  | some e =>
    by_cases hmem : link ∈ e.linkedFrom
    · have hself : g.store.revise source (·.linked link) = g.store :=
        VolatileStore.revise_of_eq he (Entity.linked_of_mem hmem)
      simp [hmem, hself]
    · have hplace := VolatileStore.place_eq_revise hs (·.linked link) he rfl
      simp only [hmem, if_false]
      rw [← hplace]
      rfl

theorem detach_run (hs : g.store.Keyed) (source link : EntityId) :
    detach source link g =
      (.ok (),
        { g with store := g.store.revise source (·.unlinked link) }) := by
  rw [detach, bind_run_ok (fetch_run g source)]
  cases he : g.store.entities[source]? with
  | none => simp [VolatileStore.revise_of_none he]
  | some e =>
    by_cases hmem : link ∈ e.linkedFrom
    · have hplace := VolatileStore.place_eq_revise hs (·.unlinked link) he rfl
      simp only [hmem, if_true]
      rw [← hplace]
      rfl
    · have hself : g.store.revise source (·.unlinked link) = g.store :=
        VolatileStore.revise_of_eq he (Entity.unlinked_of_notMem hmem)
      simp [hmem, hself]

theorem detachFromSource_run (hs : g.store.Keyed) (e : Entity) :
    detachFromSource e g = (.ok (), { g with store := g.store.release e }) := by
  unfold detachFromSource VolatileStore.release
  cases e.source? with
  | none => rfl
  | some source => exact detach_run hs source e.id

theorem enterIndex_run (g : Graph VolatileStore) (e : Entity) :
    enterIndex e g =
      (.ok (), { g with store := g.store.enter e.id e.categories }) :=
  forM_change_run (fun _ _ => rfl) e.categories

theorem leaveIndex_run (g : Graph VolatileStore) (id : EntityId) (e : Entity) :
    leaveIndex id e g =
      (.ok (), { g with store := g.store.leave id e.categories }) :=
  forM_change_run (fun _ _ => rfl) e.categories

end LinkGraph.Graph
