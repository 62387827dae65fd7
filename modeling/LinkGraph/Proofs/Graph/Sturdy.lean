import LinkGraph.Proofs.Graph.Exporting
import LinkGraph.Proofs.Graph.Settling
import LinkGraph.Proofs.Graph.Transfer
import LinkGraph.Proofs.Store.TableFile

/-!
# Operations that do not fail

The tables are decoded only where nothing has been staged over them, so that
inside a batch nothing fails as long as no row is too long that was there before
it.  A deletion and a restoring are one batch after some looks: on a store whose
rows are short, and whose medium accepts write transactions, they succeed and do
what they do on the volatile store of the same content.
-/

namespace LinkGraph

namespace DurableStore

variable {s s' : DurableStore} {base m : VolatileStore}

/-- Inside a batch every write succeeds, as long as no row of the tables is too
long. -/
theorem Reflects.write_run_ok
    (h : s.Reflects base m) (hfits : s.tables.Fits) (hlevel : 0 < s.level)
    (w : StoreWrite) :
    ∃ a s', w.perform s = (.ok a, s') ∧ s'.level = s.level ∧
      s'.Reflects base (w.perform m).2 := by
  have hget (id : EntityId) := (h.get_reads id).eq_of_fits hfits
  have hmembers (c : Category) := (h.members?_reads c).eq_of_fits hfits
  have hok : ∃ a s', w.perform s = (.ok a, s') := by
    cases w with
    | put e => exact ⟨_, _, put_run_ok hlevel (hget e.id)⟩
    | remove id => exact ⟨_, _, remove_run_ok hlevel (hget id)⟩
    | indexInsert c id =>
      obtain ⟨s', hrun, -⟩ :=
        changeBucket_run_ok hlevel (hmembers c) (Bucket.insert? · id)
      exact ⟨(), s', hrun⟩
    | indexRemove c id =>
      obtain ⟨s', hrun, -⟩ :=
        changeBucket_run_ok hlevel (hmembers c) (Bucket.erase? · id)
      exact ⟨(), s', hrun⟩
  obtain ⟨a, s', hrun⟩ := hok
  obtain ⟨a', -, hleads⟩ := h.write_leads w
  rw [hrun] at hleads
  rcases hleads with ⟨hr, hlevel', hreflects⟩ | ⟨e, he, -⟩
  · rw [if_neg hlevel.ne'] at hreflects
    exact ⟨a, s', hrun, hlevel', hreflects⟩
  · cases he

theorem write_run_ok (hrefusal : s.refusal = none) (b : Batch) :
    ∃ s', write b s.abort = (.ok (), s') := by
  have hrefusal : s.abort.refusal = none := hrefusal
  unfold write
  split
  · exact ⟨_, rfl⟩
  · rw [hrefusal]
    exact ⟨_, rfl⟩

/-- The tables hold the content of `m` in rows that are not too long, the medium
accepts write transactions, and no batch is open. -/
structure Sturdy (s : DurableStore) (m : VolatileStore) : Prop where
  reflects : s.Reflects m m
  fits : s.tables.Fits
  accepts : s.refusal = none
  idle : s.batch = none

theorem Sturdy.empty : Sturdy {} {} where
  reflects := (tracks_empty none).reflects
  fits := by decide
  accepts := rfl
  idle := rfl

theorem Sturdy.agrees (h : s.Sturdy m) : Agrees s m :=
  h.reflects.agrees h.fits

/-- As long as no batch is open, a store is what its tables hold. -/
theorem Reflects.tables_of_idle
    (h : s.Reflects base m) (hidle : s.batch = none) :
    s.tables = .holding m := by
  have hpending : s.pending = {} := by simp [pending, hidle]
  have happly := h.tables_apply
  rw [hpending] at happly
  exact (Tables.apply_of_isEmpty s.tables rfl rfl).symm.trans happly

end DurableStore

namespace Graph

open DurableStore (Sturdy)

variable {points : HookPoint → Prop} {α : Type} {g : Graph DurableStore}
  {base m : VolatileStore}

theorem Composed.run_ok_inside
    {p : GraphM DurableStore α} (hp : Composed points (fun _ => False) p)
    (hs : ∃ m, g.store.Reflects base m) (hfits : (Tables.holding base).Fits)
    (hlevel : 0 < g.store.level) :
    ∃ a g', p g = (.ok a, g') ∧ g'.store.level = g.store.level ∧
      ∃ m, g'.store.Reflects base m := by
  generalize hnone : (fun _ : StoreError => False) = refusals at hp
  induction hp generalizing g with
  | pure a => exact ⟨a, g, rfl, rfl, hs⟩
  | refuse he =>
    subst hnone
    exact he.elim
  | bind _ _ ihp ihf =>
    obtain ⟨a, g₁, hrun, hlevel₁, hs₁⟩ := ihp hs hlevel hnone
    obtain ⟨b, g₂, hrest, hlevel₂, hs₂⟩ := ihf a hs₁ (hlevel₁ ▸ hlevel) hnone
    exact ⟨b, g₂, (bind_run_ok hrun).trans hrest, hlevel₂.trans hlevel₁, hs₂⟩
  | asking view _ _ ih => exact ih (view g) hs hlevel hnone
  | query r =>
    obtain ⟨m, hm⟩ := hs
    have hread := (hm.agrees (hm.tables ▸ hfits)).read r
    have hvolatile : ∃ a, r.perform m = .ok a := by cases r <;> exact ⟨_, rfl⟩
    obtain ⟨a, ha⟩ := hvolatile
    exact ⟨a, g, Prod.ext (hread.trans ha) rfl, rfl, m, hm⟩
  | change w =>
    obtain ⟨m, hm⟩ := hs
    obtain ⟨a, s', hrun, hlevel', hs'⟩ :=
      hm.write_run_ok (hm.tables ▸ hfits) hlevel w
    refine ⟨a, { g with store := s' }, ?_, hlevel', _, hs'⟩
    rw [change_run, hrun]
  | @notify _ point _ e =>
    exact ⟨(), g.notified point e, notify_run g point e, rfl, hs⟩
  | batched _ ih =>
    obtain ⟨m, hm⟩ := hs
    have hbegin : Graph.change EntityStore.begin g =
        (.ok (), { g with store := g.store.opening }) := rfl
    obtain ⟨a, g₁, hrun, hlevel₁, m₁, hm₁⟩ :=
      ih (g := { g with store := g.store.opening }) ⟨m, hm.opening⟩
        g.store.level_opening_pos rfl
    have hlevel₁ : g₁.store.level = g.store.level + 1 := hlevel₁
    obtain ⟨s₂, hcommit, hm₂, hlevel₂⟩ :=
      DurableStore.commit_inner hm₁ (by omega)
    refine ⟨a, { g₁ with store := s₂ },
      ?_, by change s₂.level = _; omega, m₁, hm₂⟩
    have hcommit' : Graph.change EntityStore.commit g₁ =
        (.ok (), { g₁ with store := s₂ }) :=
      change_run_of_eq hcommit
    rw [batched_eq_around, bracketing.around_run_ok hbegin hrun]
    exact (bind_run_ok hcommit').trans rfl

/-- A batch of calls succeeds on a sturdy store. -/
theorem Composed.batched_run_ok {p : GraphM DurableStore α}
    (hp : Composed points (fun _ => False) p) (hs : g.store.Sturdy m) :
    ∃ a, (Graph.batched p g).1 = .ok a := by
  have hbegin : Graph.change EntityStore.begin g =
      (.ok (), { g with store := g.store.opening }) := rfl
  obtain ⟨a, g₁, hrun, hlevel₁, -⟩ :=
    hp.run_ok_inside (g := { g with store := g.store.opening })
      ⟨m, hs.reflects.opening⟩ (hs.reflects.tables ▸ hs.fits)
      g.store.level_opening_pos
  have hlevel₁ : g₁.store.level = 1 := by
    rw [hlevel₁, DurableStore.level_opening, DurableStore.level_of_idle hs.idle]
  have hrefusal : g₁.store.refusal = none := by
    have hinside :=
      hp.contained { g with store := g.store.opening } g.store.level_opening_pos
    rw [hrun] at hinside
    exact hinside.refusal.trans hs.accepts
  obtain ⟨s₂, hcommit⟩ : ∃ s₂, DurableStore.commit g₁.store = (.ok (), s₂) := by
    rw [DurableStore.commit_run_outermost hlevel₁]
    exact DurableStore.write_run_ok hrefusal g₁.store.pending
  have hcommit' :
      Graph.change EntityStore.commit g₁ = (.ok (), { g₁ with store := s₂ }) :=
    change_run_of_eq hcommit
  have hclose : (do bracketing.commit; return a : GraphM DurableStore α) g₁ =
      (.ok a, { g₁ with store := s₂ }) := bind_run_ok hcommit'
  rw [batched_eq_around, bracketing.around_run_ok hbegin hrun, hclose]
  exact ⟨a, rfl⟩

theorem restore_run_ok (hs : g.store.Sturdy m) (es : List Entity) :
    ∃ n, (restore es g).1 = .ok n := by
  have hp : Composed (fun _ => True) (fun _ => False)
      (do let stored ← es.mapM replace; stored.forM attachToSource :
            GraphM DurableStore Unit) :=
    .replaceAndAttachAll es
  obtain ⟨a, ha⟩ := hp.batched_run_ok hs
  rw [restore, bind_run_ok (Prod.ext ha rfl)]
  exact ⟨_, rfl⟩

theorem delete_run_ok
    (hs : g.store.Sturdy m) (name : String) :
    ∃ u, (delete name g).1 = .ok u := by
  have hreads := hs.agrees
  have hcontains : query (EntityStore.contains · name) g =
      (.ok (m.entities.contains name), g) :=
    Prod.ext (hreads.contains name) rfl
  have hcategory : query (EntityStore.hasCategory · name) g =
      (.ok (m.index.contains name), g) :=
    Prod.ext (hreads.hasCategory name) rfl
  have hget :
      (get : GraphM DurableStore (Graph DurableStore)) g = (.ok g, g) := rfl
  rw [delete, bind_run_ok hcontains]
  cases m.entities.contains name with
  | true =>
    have hp : Composed (fun _ => True) (fun _ => False)
        (cascade (chainBound g) name ∅ : GraphM DurableStore NameSet) :=
      .cascade trivial _ name ∅
    obtain ⟨a, ha⟩ := hp.batched_run_ok hs
    simp only [if_true]
    rw [bind_run_ok hget, bind_run_ok (Prod.ext ha rfl)]
    exact ⟨(), rfl⟩
  | false =>
    simp only [Bool.false_eq_true, if_false]
    rw [bind_run_ok hcategory]
    cases m.index.contains name with
    | false => exact ⟨(), rfl⟩
    | true =>
      have hp : Composed (fun _ => True) (fun _ => False)
          (dissociateAll name : GraphM DurableStore Unit) :=
        .dissociateAll trivial
      exact hp.batched_run_ok hs

/-- An atomic operation that succeeds on a durable store, and follows one on a
volatile store, leaves tables that hold what the other leaves. -/
theorem tables_of_follows
    {p : GraphM DurableStore α} {q : GraphM VolatileStore α}
    {v : Graph VolatileStore} {a : α} (hfollows : Follows Related (p g) (q v))
    (hatomic : Atomic p) (hidle : g.store.batch = none)
    (hok : (p g).1 = .ok a) :
    (q v).1 = .ok a ∧ (p g).2.store.batch = none ∧
      (p g).2.store.tables = .holding (q v).2.store := by
  rcases hfollows with ⟨hr, hrel⟩ | ⟨e, he, -⟩
  · rcases hatomic g hidle with ⟨e, he, -⟩ | ⟨-, -, hidle'⟩
    · cases hok.symm.trans he
    · obtain ⟨base, hreflects⟩ := hrel.store
      exact ⟨hr.symm.trans hok, hidle', hreflects.tables_of_idle hidle'⟩
  · cases hok.symm.trans he

/-! ## Importing into empty tables -/

/-- Restoring a graph over empty tables does not fail if its snapshot is small
enough. -/
theorem unfailing_restore_values
    {m : VolatileStore} (hindexed : m.Indexed) (hmoored : m.Moored)
    (hsize : (Snapshot.write m.entities.values).length ≤ Snapshot.maxSize)
    (registry : HookRegistry) (validates : Bool) :
    Unfailing { store := ({} : DurableStore), registry, validates }
      [.restore m.entities.values] := by
  have hstart : Related { store := ({} : DurableStore), registry, validates }
      { store := ({} : VolatileStore), registry, validates } :=
    ⟨holds_durable_empty, rfl, rfl, .nil⟩
  obtain ⟨n, hok⟩ :=
    restore_run_ok (g := { store := ({} : DurableStore), registry, validates })
      .empty m.entities.values
  obtain ⟨-, -, htables⟩ :=
    tables_of_follows (restore_simulates m.entities.values _ _ hstart)
      (restore_atomic m.entities.values) rfl hok
  have hfits : (Tables.holding m).Fits := Tables.fits_holding hindexed hsize
  rw [restore_run VolatileStore.keyed_empty] at htables
  dsimp only at htables
  rw [VolatileStore.restored_values hindexed hmoored] at htables
  exact unfailing_durable (Prod.ext hok rfl) (htables ▸ hfits)

/-- What a graph exports makes empty tables the same graph, as long as the
medium accepts write transactions. -/
theorem import_export_tables
    {σ : Type} [EntityStore σ] [FaithfulStore σ] {g : Graph σ} (h : Filled g) :
    ∃ all bs, g.entities = .ok all ∧ g.exportBytes = .ok bs ∧
      (bs.length ≤ Snapshot.maxSize →
      ∀ (registry : HookRegistry) (validates : Bool),
        let imported :=
          importBytes bs { store := ({} : DurableStore), registry, validates }
        imported.1 = .ok all.length ∧ Matches imported.2 g) := by
  obtain ⟨m, -, hreads, hindexed, hmoored⟩ := h.content
  obtain ⟨all, bs, hall, hbs, himports⟩ := import_export (τ := DurableStore) h
  obtain rfl : m.entities.values = all :=
    Except.ok.inj (hreads.entities.symm.trans hall)
  obtain rfl : Snapshot.write m.entities.values = bs :=
    Except.ok.inj ((exportBytes_of_agrees hreads).symm.trans hbs)
  refine ⟨_, _, hall, hbs, fun hsize registry validates => ?_⟩
  exact himports hsize {} registry validates holds_durable_empty
    (unfailing_restore_values hindexed hmoored hsize registry validates)

end Graph

end LinkGraph
