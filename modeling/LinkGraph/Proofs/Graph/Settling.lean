import LinkGraph.Proofs.Graph.Journal
import LinkGraph.Proofs.Store.Brackets

/-!
# Operations take effect as a whole

The work of each operation is one batch, or one write, with nothing but checks
before it and nothing but handlers after it.  On a store whose batches take
effect as a whole or not at all, so does the operation.
-/

namespace LinkGraph.Graph

open DurableStore (Contained)

variable {α β : Type}

/-! ## Inside a batch -/

theorem change_contained {op : StoreM DurableStore α} (hop : Contained id op) :
    Contained Graph.store (change op) := by
  intro g hlevel
  exact hop g.store hlevel

def bracketing : DurableStore.Bracketing (Graph.store (σ := DurableStore)) where
  begin := change EntityStore.begin
  commit := change EntityStore.commit
  abort g := { g with store := EntityStore.abort g.store }
  begin_run g := ⟨{ g with store := g.store.opening }, rfl, rfl⟩
  commit_run _ := ⟨rfl, rfl⟩
  store_abort _ := rfl

theorem batched_eq_around
    (p : GraphM DurableStore α) :
    batched p = bracketing.around p := rfl

/-- Whatever an operation is composed of stays inside the batch that is open. -/
theorem Composed.contained
    {points : HookPoint → Prop} {refusals : StoreError → Prop}
    {p : GraphM DurableStore α} (h : Composed points refusals p) :
    Contained Graph.store p := by
  induction h with
  | pure a => exact .of_store_eq fun _ => rfl
  | refuse => exact .of_store_eq fun _ => rfl
  | bind _ _ ihp ihf => exact ihp.bind ihf
  | asking view hview _ ih =>
    intro g hlevel
    exact ih (view g) g hlevel
  | query r => exact .of_store_eq fun _ => rfl
  | change w =>
    exact change_contained (DurableStore.write_bracketed w).contained
  | notify _ e =>
    refine .of_store_eq fun g => ?_
    rw [notify_run, store_notified]
  | batched _ ih =>
    rw [batched_eq_around]
    exact bracketing.contained ih

/-! ## Stores on which batches take effect as a whole -/

end LinkGraph.Graph

namespace LinkGraph

/-- The work fails and leaves the store as it is, or succeeds and leaves a
steady store. -/
def Settles
    {σ α : Type} (steady : σ → Prop) (s : σ) (r : Except StoreError α)
    (s' : σ) : Prop :=
  (∃ e, r = .error e ∧ s' = s) ∨ ∃ a, r = .ok a ∧ steady s'

/-- Stores whose batches, and single writes, take effect as a whole or not at
all from a steady state on. -/
class SettlingStore (σ : Type) [EntityStore σ] where
  /-- The store is between two operations. -/
  Steady : σ → Prop
  batched {points : HookPoint → Prop} {α : Type} {p : GraphM σ α}
    {g : Graph σ} :
    Graph.Composed points (fun _ => False) p → Steady g.store →
    Settles Steady g.store (Graph.batched p g).1 (Graph.batched p g).2.store
  put {s : σ} (e : Entity) :
    Steady s → Settles Steady s (EntityStore.put e s).1 (EntityStore.put e s).2

/-- No batch is open in a durable store between two operations.  What its tables
hold, and what the medium refuses, does not matter. -/
instance : SettlingStore DurableStore where
  Steady s := s.batch = none
  batched hp hidle := by
    rw [Graph.batched_eq_around]
    exact Graph.bracketing.settles hp.contained hidle
  put e hidle := (DurableStore.put_bracketed e).settles hidle

namespace Graph

/-- On a volatile store nothing fails but what is refused. -/
theorem Composed.run_ok
    {points : HookPoint → Prop} {α : Type} {p : GraphM VolatileStore α}
    (hp : Composed points (fun _ => False) p) (g : Graph VolatileStore) :
    ∃ a, (p g).1 = .ok a := by
  generalize hnone : (fun _ : StoreError => False) = refusals at hp
  induction hp generalizing g with
  | pure a => exact ⟨a, rfl⟩
  | refuse he =>
    subst hnone
    exact he.elim
  | bind _ _ ihp ihf =>
    obtain ⟨a, ha⟩ := ihp g hnone
    rw [bind_run_ok (Prod.ext ha rfl)]
    exact ihf a _ hnone
  | asking view _ _ ih => exact ih (view g) g hnone
  | query r => cases r <;> exact ⟨_, rfl⟩
  | change w => cases w <;> exact ⟨_, rfl⟩
  | notify _ e =>
    rw [notify_run]
    exact ⟨(), rfl⟩
  | batched _ ih =>
    obtain ⟨a, ha⟩ := ih g rfl
    rw [batched_run_ok (Prod.ext ha rfl)]
    exact ⟨a, rfl⟩

end Graph

/-- A volatile store has no batches to speak of, and needs none. -/
instance : SettlingStore VolatileStore where
  Steady _ := True
  batched {_ _ p g} hp _ := by
    obtain ⟨a, ha⟩ := hp.run_ok g
    rw [Graph.batched_run_ok (Prod.ext ha rfl)]
    exact Or.inr ⟨a, rfl, trivial⟩
  put _ _ := Or.inr ⟨_, rfl, trivial⟩

end LinkGraph

namespace LinkGraph.Graph

open SettlingStore (Steady)

/-! ## From one batch to an operation -/

section Settling

variable {σ α β : Type}

/-- The operation leaves the store as it is. -/
def Still (p : GraphM σ α) : Prop :=
  ∀ g, (p g).2.store = g.store

/-- The operation leaves the store as it is, and does not fail. -/
def Quiet (p : GraphM σ α) : Prop :=
  ∀ g, ∃ a, (p g).1 = .ok a ∧ (p g).2.store = g.store

theorem Quiet.pure (a : α) : Quiet (pure a : GraphM σ α) := by
  intro g
  exact ⟨a, rfl, rfl⟩

theorem Quiet.notify
    (point : HookPoint) (e : Entity) :
    Quiet (notify point e : GraphM σ Unit) := by
  intro g
  rw [notify_run]
  exact ⟨(), rfl, rfl⟩

theorem Quiet.bind {p : GraphM σ α} {f : α → GraphM σ β} (hp : Quiet p)
    (hf : ∀ a, Quiet (f a)) : Quiet (p >>= f) := by
  intro g
  obtain ⟨a, hr, hstore⟩ := hp g
  rcases hrun : p g with ⟨r, g₁⟩
  rw [hrun] at hr hstore
  obtain rfl : r = .ok a := hr
  obtain ⟨b, hb, hstore'⟩ := hf a g₁
  rw [bind_run_ok hrun]
  exact ⟨b, hb, hstore'.trans hstore⟩

theorem Quiet.still {p : GraphM σ α} (hp : Quiet p) : Still p := by
  intro g
  obtain ⟨a, -, hstore⟩ := hp g
  exact hstore

theorem query_still (read : σ → Except StoreError α) : Still (query read) := by
  intro g
  rfl

theorem checkCategory_still
    (kind : Category) :
    Still (checkCategory kind : GraphM σ Unit) := by
  intro g
  rw [checkCategory_run]
  cases g.admits kind with
  | false => rfl
  | true => rfl

variable [EntityStore σ]

theorem checkEndpoint_still (link endpoint : EntityId) :
    Still (checkEndpoint link endpoint : GraphM σ Unit) := by
  intro g
  unfold checkEndpoint
  rcases hquery : query (EntityStore.contains · endpoint) g with ⟨r, g₁⟩
  obtain rfl : g = g₁ := congrArg Prod.snd hquery
  cases r with
  | error e => rw [bind_run_error hquery]
  | ok stored =>
    rw [bind_run_ok hquery]
    cases stored with
    | false => rfl
    | true => rfl

section Atomic

variable [SettlingStore σ]

/-- From a steady store on the operation takes effect as a whole, or not at
all. -/
def Atomic (p : GraphM σ α) : Prop :=
  ∀ g, Steady g.store → Settles Steady g.store (p g).1 (p g).2.store

theorem Still.atomic {p : GraphM σ α} (hp : Still p) : Atomic p := by
  intro g hsteady
  have hstore := hp g
  cases hr : (p g).1 with
  | error e => exact Or.inl ⟨e, rfl, hstore⟩
  | ok a => exact Or.inr ⟨a, rfl, hstore ▸ hsteady⟩

/-- What leaves the store as it is may precede an atomic operation. -/
theorem Still.bind {p : GraphM σ α} {f : α → GraphM σ β} (hp : Still p)
    (hf : ∀ a, Atomic (f a)) : Atomic (p >>= f) := by
  intro g hsteady
  have hstore := hp g
  rcases hrun : p g with ⟨r, g₁⟩
  rw [hrun] at hstore
  cases r with
  | error e =>
    rw [bind_run_error hrun]
    exact Or.inl ⟨e, rfl, hstore⟩
  | ok a =>
    rw [bind_run_ok hrun, ← hstore]
    exact hf a g₁ (hstore ▸ hsteady)

/-- What is quiet may follow an atomic operation. -/
theorem Atomic.bind {p : GraphM σ α} {f : α → GraphM σ β} (hp : Atomic p)
    (hf : ∀ a, Quiet (f a)) : Atomic (p >>= f) := by
  intro g hsteady
  have hsettles := hp g hsteady
  rcases hrun : p g with ⟨r, g₁⟩
  rw [hrun] at hsettles
  rcases hsettles with ⟨e, hr, hstore⟩ | ⟨a, hr, hsteady'⟩
  · obtain rfl : r = .error e := hr
    rw [bind_run_error hrun]
    exact Or.inl ⟨e, rfl, hstore⟩
  · obtain rfl : r = .ok a := hr
    obtain ⟨b, hb, hstore⟩ := hf a g₁
    rw [bind_run_ok hrun]
    exact Or.inr ⟨b, hb, by rw [hstore]; exact hsteady'⟩

theorem batched_atomic
    {p : GraphM σ α} (hp : Composed (fun _ => True) (fun _ => False) p) :
    Atomic (batched p) :=
  fun _ hsteady => SettlingStore.batched hp hsteady

theorem put_atomic
    (e : Entity) :
    Atomic (change (EntityStore.put e) : GraphM σ (Option Entity)) :=
  fun _ hsteady => SettlingStore.put e hsteady

/-! ## The operations -/

theorem saveResource_atomic
    (d : Draft) :
    Atomic (saveResource d : GraphM σ EntityId) :=
  (checkCategory_still d.kind).bind fun _ =>
    (batched_atomic (.replace _)).bind fun e =>
    (Quiet.notify .created e).bind fun _ => .pure d.id

theorem saveLink_atomic (d : Draft) (ends : Endpoints) :
    Atomic (saveLink d ends : GraphM σ EntityId) :=
  (checkCategory_still d.kind).bind fun _ =>
    (checkEndpoint_still d.id ends.source).bind fun _ =>
    (checkEndpoint_still d.id ends.target).bind fun _ =>
      (batched_atomic (.replaceAndAttach _ _)).bind fun e =>
        (Quiet.notify .created e).bind fun _ => .pure d.id

theorem update_atomic (id : EntityId) (attributes : WireAttributes) :
    Atomic (update id attributes : GraphM σ WireAttributes) := by
  refine Still.bind (query_still _) fun e? => ?_
  cases e? with
  | none => exact (Quiet.pure attributes).still.atomic
  | some e =>
    exact (put_atomic _).bind fun _ =>
      (Quiet.notify .updated _).bind fun _ => .pure _

theorem saveMixin_atomic (mixin : Category) (ids : List EntityId) :
    Atomic (saveMixin mixin ids : GraphM σ Unit) :=
  batched_atomic (.forM (.associate trivial) ids)

theorem delete_atomic
    (name : String) :
    Atomic (delete name : GraphM σ Unit) := by
  refine (query_still _).bind fun stored => ?_
  cases stored with
  | true =>
    have hget : Still (get : GraphM σ (Graph σ)) := fun _ => rfl
    refine hget.bind fun g => ?_
    exact (batched_atomic (.cascade trivial _ name ∅)).bind fun _ => .pure ()
  | false =>
    refine (query_still _).bind fun known => ?_
    cases known with
    | false => exact (Quiet.pure ()).still.atomic
    | true => exact batched_atomic (.dissociateAll trivial)

theorem restore_atomic (entities : List Entity) :
    Atomic (restore entities : GraphM σ Nat) :=
  (batched_atomic (.replaceAndAttachAll entities)).bind fun _ => .pure _

theorem reply_atomic (op : Operation) : Atomic (op.reply : GraphM σ Reply) := by
  cases op with
  | saveResource d => exact (saveResource_atomic d).bind fun _ => .pure _
  | saveLink d ends => exact (saveLink_atomic d ends).bind fun _ => .pure _
  | update id attributes =>
    exact (update_atomic id attributes).bind fun _ => .pure _
  | saveMixin mixin ids =>
    exact (saveMixin_atomic mixin ids).bind fun _ => .pure _
  | updateMixin mixin ids =>
    exact (saveMixin_atomic mixin ids).bind fun _ => .pure _
  | delete name => exact (delete_atomic name).bind fun _ => .pure _
  | restore entities => exact (restore_atomic entities).bind fun _ => .pure _

end Atomic

end Settling

end LinkGraph.Graph
