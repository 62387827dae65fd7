import LinkGraph.Proofs.Graph.Moves

/-!
# From volatile to faithful stores

A graph over a faithful store goes through the same operations as the graph over
the volatile store of the same content: unless a call on the store fails, it
answers the same, notifies the same handlers and holds the same content
afterwards.
-/

namespace LinkGraph.Graph

open FaithfulStore (Holds)

variable {σ α β : Type} [EntityStore σ] [FaithfulStore σ]

/-- Journal entries about the same call, made while the stores held the same
content. -/
inductive SameEntry : JournalEntry σ → JournalEntry VolatileStore → Prop
  | called {s : σ} {m : VolatileStore} (style : HookStyle) (point : HookPoint)
    (e : Entity) :
      Holds s m → SameEntry (.called s style point e) (.called m style point e)
  | failed (point : HookPoint) (id : EntityId) (error : StoreError) :
      SameEntry (.failed point id error) (.failed point id error)

/-- Graphs with the same content, handlers and journal. -/
structure Related (g : Graph σ) (v : Graph VolatileStore) : Prop where
  store : Holds g.store v.store
  registry : g.registry = v.registry
  validates : g.validates = v.validates
  journal : List.Forall₂ SameEntry g.journal v.journal

theorem Related.keyed
    {g : Graph σ} {v : Graph VolatileStore} (h : Related g v) :
    v.store.Keyed :=
  FaithfulStore.keyed h.store

theorem follows_bind
    {p : GraphM σ α} {q : GraphM VolatileStore α} {f : α → GraphM σ β}
    {k : α → GraphM VolatileStore β} {g : Graph σ} {v : Graph VolatileStore}
    (hp : Follows Related (p g) (q v))
    (hf : ∀ a g' v', q v = (.ok a, v') → Related g' v' →
      Follows Related (f a g') (k a v')) :
    Follows Related ((p >>= f) g) ((q >>= k) v) := by
  rcases hg : p g with ⟨r, g'⟩
  rcases hv : q v with ⟨r', v'⟩
  rw [hg, hv] at hp
  rcases hp with ⟨hr, hrel⟩ | ⟨e, hr, he⟩
  · obtain rfl : r = r' := hr
    cases r with
    | ok a =>
      rw [bind_run_ok hg, bind_run_ok hv]
      exact hf a g' v' hv hrel
    | error e =>
      rw [bind_run_error hg, bind_run_error hv]
      exact Or.inl ⟨rfl, hrel⟩
  · obtain rfl : r = .error e := hr
    rw [bind_run_error hg]
    exact Or.inr ⟨e, rfl, he⟩

/-- An operation that succeeds on the volatile store is caught only when the
other store fails, and a handler that throws the error again does not hide
that. -/
theorem follows_tryCatch
    {p : GraphM σ α} {q : GraphM VolatileStore α}
    {handler : StoreError → GraphM σ α}
    {handler' : StoreError → GraphM VolatileStore α} {g : Graph σ}
    {v v' : Graph VolatileStore} {a : α} (hp : Follows Related (p g) (q v))
    (hq : q v = (.ok a, v')) (hhandler : ∀ e g, (handler e g).1 = .error e) :
    Follows Related ((tryCatch p handler : GraphM σ α) g)
      ((tryCatch q handler' : GraphM VolatileStore α) v) := by
  rw [tryCatch_run_ok hq]
  rw [hq] at hp
  rcases hg : p g with ⟨r, g'⟩
  rw [hg] at hp
  rcases hp with ⟨hr, hrel⟩ | ⟨e, hr, he⟩
  · obtain rfl : r = .ok a := hr
    rw [tryCatch_run_ok hg]
    exact Or.inl ⟨rfl, hrel⟩
  · obtain rfl : r = .error e := hr
    rw [tryCatch_run_error hg]
    exact Or.inr ⟨e, hhandler e g', he⟩

/-- Unless a call on the store fails, `p` does to a graph what `q` does to a
related one. -/
def Simulates (p : GraphM σ α) (q : GraphM VolatileStore α) : Prop :=
  ∀ g v, Related g v → Follows Related (p g) (q v)

namespace Simulates

theorem pure (a : α) : Simulates (pure a : GraphM σ α) (pure a) :=
  fun _ _ h => Or.inl ⟨rfl, h⟩

theorem throw (e : StoreError) : Simulates (throw e : GraphM σ α) (throw e) :=
  fun _ _ h => Or.inl ⟨rfl, h⟩

theorem bind
    {p : GraphM σ α} {q : GraphM VolatileStore α} {f : α → GraphM σ β}
    {k : α → GraphM VolatileStore β} (hp : Simulates p q)
    (hf : ∀ a, Simulates (f a) (k a)) :
    Simulates (p >>= f) (q >>= k) :=
  fun g v h => follows_bind (hp g v h) fun a g' v' _ h' => hf a g' v' h'

theorem query
    {read : σ → Except StoreError α}
    {read' : VolatileStore → Except StoreError α}
    (h : ∀ s m, Holds s m → Answers (read s) (read' m)) :
    Simulates (query read) (query read') := by
  intro g v hrel
  rcases h g.store v.store hrel.store with hr | hr
  · exact Or.inl ⟨hr, hrel⟩
  · exact Or.inr hr

theorem change {op : StoreM σ α} {op' : StoreM VolatileStore α}
    (h : ∀ s m, Holds s m → Follows Holds (op s) (op' m)) :
    Simulates (change op) (change op') := by
  intro g v hrel
  rcases h g.store v.store hrel.store with ⟨hr, hs⟩ | hr
  · exact Or.inl ⟨hr, hs, hrel.registry, hrel.validates, hrel.journal⟩
  · exact Or.inr hr

theorem forM
    {f : α → GraphM σ Unit} {k : α → GraphM VolatileStore Unit}
    (h : ∀ a, Simulates (f a) (k a)) (as : List α) :
    Simulates (as.forM f) (as.forM k) := by
  induction as with
  | nil => exact pure ()
  | cons a as ih => exact (h a).bind fun _ => ih

theorem foldlM {f : β → α → GraphM σ β} {k : β → α → GraphM VolatileStore β}
    (h : ∀ b a, Simulates (f b a) (k b a)) (as : List α) (b : β) :
    Simulates (as.foldlM f b) (as.foldlM k b) := by
  induction as generalizing b with
  | nil => exact pure b
  | cons a as ih =>
    rw [List.foldlM_cons, List.foldlM_cons]
    exact (h b a).bind fun b' => ih b'

theorem mapM
    {f : α → GraphM σ β} {k : α → GraphM VolatileStore β}
    (h : ∀ a, Simulates (f a) (k a)) (as : List α) :
    Simulates (as.mapM f) (as.mapM k) := by
  induction as with
  | nil =>
    rw [List.mapM_nil, List.mapM_nil]
    exact pure []
  | cons a as ih =>
    rw [List.mapM_cons, List.mapM_cons]
    exact (h a).bind fun b => ih.bind fun bs => pure (b :: bs)

theorem notify (point : HookPoint) (e : Entity) :
    Simulates (notify point e : GraphM σ Unit) (notify point e) := by
  intro g v h
  rw [notify_run, notify_run]
  refine Or.inl ⟨rfl, h.store, h.registry, h.validates, ?_⟩
  apply List.rel_append h.journal
  unfold reports
  rw [h.registry]
  refine List.Forall₂.cons (.called _ _ _ h.store) ?_
  split
  · exact .nil
  · exact .cons (.failed _ _ _) .nil

/-- A batch is only dropped when the operation in it fails. -/
theorem batched_of_run
    {p : GraphM σ α} {q : GraphM VolatileStore α} {g : Graph σ}
    {v v' : Graph VolatileStore} {a : α} (h : Simulates p q)
    (hrel : Related g v) (hq : q v = (.ok a, v')) :
    Follows Related (batched p g) (batched q v) := by
  refine follows_bind (change (fun _ _ => FaithfulStore.begin) g v hrel) ?_
  intro _ g₁ v₁ hv₁ hrel₁
  obtain rfl : v = v₁ := congrArg Prod.snd hv₁
  refine follows_bind (follows_tryCatch (h g₁ v hrel₁) hq fun _ _ => rfl) ?_
  intro a g₂ v₂ _ hrel₂
  exact (change (fun _ _ => FaithfulStore.commit)).bind (fun _ => pure a)
    g₂ v₂ hrel₂

theorem batched
    {p : GraphM σ α} {q : GraphM VolatileStore α} (h : Simulates p q)
    (hq : ∀ v : Graph VolatileStore, v.store.Keyed →
      ∃ a v', q v = (.ok a, v')) :
    Simulates (batched p) (batched q) := by
  intro g v hrel
  obtain ⟨a, v', hrun⟩ := hq v hrel.keyed
  exact h.batched_of_run hrel hrun

end Simulates

/-! ## Building blocks -/

theorem fetch_simulates
    (id : EntityId) :
    Simulates (fetch id : GraphM σ _) (fetch id) :=
  .query fun _ _ h => FaithfulStore.get h id

theorem put_simulates (e : Entity) :
    Simulates (change (EntityStore.put e) : GraphM σ _)
      (change (EntityStore.put e)) :=
  .change fun _ _ h => FaithfulStore.put h e

theorem attach_simulates (source link : EntityId) :
    Simulates (attach source link : GraphM σ Unit) (attach source link) := by
  refine (fetch_simulates source).bind fun e? => ?_
  cases e? with
  | none => exact .pure ()
  | some e =>
    by_cases hmem : link ∈ e.linkedFrom
    · simpa only [hmem, if_true] using Simulates.pure ()
    · simpa only [hmem, if_false] using (put_simulates _).bind fun _ => .pure ()

theorem detach_simulates (source link : EntityId) :
    Simulates (detach source link : GraphM σ Unit) (detach source link) := by
  refine (fetch_simulates source).bind fun e? => ?_
  cases e? with
  | none => exact .pure ()
  | some e =>
    by_cases hmem : link ∈ e.linkedFrom
    · simpa only [hmem, if_true] using (put_simulates _).bind fun _ => .pure ()
    · simpa only [hmem, if_false] using Simulates.pure ()

theorem enterIndex_simulates (e : Entity) :
    Simulates (enterIndex e : GraphM σ Unit) (enterIndex e) :=
  .forM (fun c => .change fun _ _ h => FaithfulStore.indexInsert h c e.id)
    e.categories

theorem leaveIndex_simulates (id : EntityId) (e : Entity) :
    Simulates (leaveIndex id e : GraphM σ Unit) (leaveIndex id e) :=
  .forM (fun c => .change fun _ _ h => FaithfulStore.indexRemove h c id)
    e.categories

theorem replace_simulates
    (e : Entity) :
    Simulates (replace e : GraphM σ Entity) (replace e) := by
  have hfinish (e : Entity) : Simulates
      (do enterIndex e; let _ ← change (EntityStore.put e); return e :
            GraphM σ Entity)
      (do enterIndex e; let _ ← change (EntityStore.put e); return e) :=
    (enterIndex_simulates e).bind fun _ =>
      (put_simulates e).bind fun _ => .pure e
  refine (fetch_simulates e.id).bind fun e? => ?_
  cases e? with
  | none => exact hfinish e
  | some p =>
    refine (leaveIndex_simulates p.id p).bind fun _ => ?_
    refine Simulates.bind ?_ fun _ => hfinish (e.inheriting p)
    unfold detachFromSource
    cases p.source? with
    | none => exact .pure ()
    | some source => exact detach_simulates source p.id

theorem checkCategory_simulates (kind : Category) :
    Simulates (checkCategory kind : GraphM σ Unit) (checkCategory kind) := by
  intro g v h
  have hadmits : g.admits kind = v.admits kind := by
    rw [admits, admits, h.registry, h.validates]
  rw [checkCategory_run, checkCategory_run, hadmits]
  cases v.admits kind with
  | false => exact Or.inl ⟨rfl, h⟩
  | true => exact Or.inl ⟨rfl, h⟩

theorem erase_simulates (id : EntityId) (e : Entity) :
    Simulates (erase id e : GraphM σ Unit) (erase id e) := by
  refine (Simulates.notify .deleting e).bind fun _ =>
    (leaveIndex_simulates id e).bind fun _ => ?_
  have hremove :
      Simulates (do let _ ← change (EntityStore.remove id) : GraphM σ Unit)
        (do let _ ← change (EntityStore.remove id)) :=
    (Simulates.change fun _ _ h => FaithfulStore.remove h id).bind fun _ => .pure ()
  cases e.source? with
  | none => exact hremove
  | some source => exact (detach_simulates source id).bind fun _ => hremove

theorem cascade_simulates (depth : Nat) (id : EntityId) (V : NameSet) :
    Simulates (cascade depth id V : GraphM σ NameSet) (cascade depth id V) := by
  induction depth generalizing id V with
  | zero => exact .pure V
  | succ depth ih =>
    rw [cascade, cascade]
    by_cases hid : id ∈ V
    · simpa only [hid, if_true] using Simulates.pure V
    · simp only [hid, if_false]
      refine (fetch_simulates id).bind fun e? => ?_
      cases e? with
      | none => exact .pure _
      | some e =>
        refine (Simulates.foldlM (fun V id => ih id V) _ _).bind fun V' => ?_
        refine (fetch_simulates id).bind fun e? => ?_
        cases e? with
        | none => exact .pure V'
        | some e => exact (erase_simulates id e).bind fun _ => .pure V'

/-! ## Operations -/

theorem saveResource_simulates (d : Draft) :
    Simulates (saveResource d : GraphM σ EntityId) (saveResource d) := by
  refine (checkCategory_simulates d.kind).bind fun _ => ?_
  refine ((replace_simulates _).batched fun v hv =>
    ⟨_, _, replace_run hv _⟩).bind fun e => ?_
  exact (Simulates.notify .created e).bind fun _ => .pure d.id

theorem checkEndpoint_simulates (link endpoint : EntityId) :
    Simulates (checkEndpoint link endpoint : GraphM σ Unit)
      (checkEndpoint link endpoint) := by
  refine (Simulates.query fun _ _ h => FaithfulStore.contains h endpoint).bind
    fun stored => ?_
  cases stored with
  | false => exact .throw _
  | true => exact .pure ()

theorem replaceAndAttach_simulates (d : Draft) (ends : Endpoints) : Simulates
    (do let e ← replace (d.entity (some ends)); attach ends.source e.id;
        return e :
      GraphM σ Entity)
    (do let e ← replace (d.entity (some ends)); attach ends.source e.id;
        return e) :=
  (replace_simulates _).bind fun e =>
    (attach_simulates _ _).bind fun _ => .pure e

theorem saveLink_simulates (d : Draft) (ends : Endpoints) :
    Simulates (saveLink d ends : GraphM σ EntityId) (saveLink d ends) := by
  refine (checkCategory_simulates d.kind).bind fun _ => ?_
  refine (checkEndpoint_simulates d.id ends.source).bind fun _ => ?_
  refine (checkEndpoint_simulates d.id ends.target).bind fun _ => ?_
  have hwrite :=
    (replaceAndAttach_simulates (σ := σ) d ends).batched fun v hv =>
    ⟨_, _, replaceAndAttach_run hv d ends⟩
  exact hwrite.bind fun e => (Simulates.notify .created e).bind fun _ => .pure d.id

theorem update_simulates (id : EntityId) (attributes : WireAttributes) :
    Simulates (update id attributes : GraphM σ WireAttributes)
      (update id attributes) := by
  refine (fetch_simulates id).bind fun e? => ?_
  cases e? with
  | none => exact .pure attributes
  | some e =>
    exact (put_simulates _).bind fun _ =>
      (Simulates.notify .updated _).bind fun _ => .pure _

theorem associate_simulates (mixin : Category) (id : EntityId) :
    Simulates (associate mixin id : GraphM σ Unit) (associate mixin id) := by
  refine (fetch_simulates id).bind fun e? => ?_
  cases e? with
  | none => exact .pure ()
  | some e =>
    by_cases hcarries : e.kind = mixin ∨ mixin ∈ e.mixins
    · simpa only [hcarries, if_true] using Simulates.pure ()
    · simp only [hcarries, if_false]
      refine (Simulates.change fun _ _ h =>
        FaithfulStore.indexInsert h mixin id).bind fun _ => ?_
      exact (put_simulates _).bind fun _ => .notify _ _

theorem dissociate_simulates (mixin : Category) (id : EntityId) :
    Simulates (dissociate mixin id : GraphM σ Unit) (dissociate mixin id) := by
  refine (fetch_simulates id).bind fun e? => ?_
  cases e? with
  | none => exact .pure ()
  | some e =>
    by_cases hcarries : mixin ∈ e.mixins
    · simp only [hcarries, if_true]
      have hput : Simulates
          (do let _ ← change (EntityStore.put (e.losing mixin))
              notify (.mixinRemoved mixin) (e.losing mixin) : GraphM σ Unit)
          (do let _ ← change (EntityStore.put (e.losing mixin))
              notify (.mixinRemoved mixin) (e.losing mixin)) :=
        (put_simulates _).bind fun _ => .notify _ _
      by_cases hkind : e.kind = mixin
      · simpa [hkind, Entity.losing, Entity.bump] using hput
      · have hkind' : ({ e with mixins := e.mixins.erase mixin }.bump).kind ≠
            mixin := hkind
        simp only [hkind', ne_eq, not_false_eq_true, if_true]
        exact (Simulates.change fun _ _ h =>
          FaithfulStore.indexRemove h mixin id).bind fun _ => hput
    · simpa only [hcarries, if_false] using Simulates.pure ()

theorem saveMixin_simulates (mixin : Category) (ids : List EntityId) :
    Simulates (saveMixin mixin ids : GraphM σ Unit) (saveMixin mixin ids) := by
  refine (Simulates.forM (associate_simulates mixin) ids).batched fun v hv => ?_
  obtain ⟨v', hrun, -⟩ := Retags.forM (associate_retags mixin) ids v hv
  exact ⟨(), v', hrun⟩

theorem dissociateAll_simulates (mixin : Category) :
    Simulates (dissociateAll mixin : GraphM σ Unit) (dissociateAll mixin) :=
  (Simulates.query fun _ _ h => FaithfulStore.members h mixin).bind fun ids =>
    .forM (dissociate_simulates mixin) ids

/-- The depths that two related graphs allow a cascade may differ, but both
suffice. -/
theorem delete_simulates (name : String) :
    Simulates (delete name : GraphM σ Unit) (delete name) := by
  refine (Simulates.query fun _ _ h => FaithfulStore.contains h name).bind
    fun stored => ?_
  cases stored with
  | true =>
    simp only [if_true]
    intro g v hrel
    have hget : (get : GraphM σ (Graph σ)) g = (.ok g, g) := rfl
    have hget' :
        (get : GraphM VolatileStore (Graph VolatileStore)) v = (.ok v, v) := rfl
    rw [bind_run_ok hget, bind_run_ok hget']
    have hle := unvisited_empty_le v.store
    have hextent : v.store.entities.size ≤ EntityStore.extent g.store :=
      FaithfulStore.extent hrel.store
    have hdepth : unvisited v.store ∅ < chainBound g := by
      change _ < 2 * EntityStore.extent g.store + 1
      omega
    have hdepth' : unvisited v.store ∅ < chainBound v := by
      change _ < 2 * v.store.entities.size + 1
      omega
    obtain ⟨V₁, v₁, hrun, hwalk⟩ := cascade_walk name ∅ v hrel.keyed hdepth
    obtain ⟨V₂, v₂, hrun', hwalk'⟩ := cascade_walk name ∅ v hrel.keyed hdepth'
    obtain ⟨rfl, rfl⟩ := hwalk.unique hwalk'
    have hbatch :=
      (cascade_simulates (chainBound g) name ∅).batched_of_run hrel hrun
    have hsame : batched (cascade (chainBound g) name ∅) v =
        batched (cascade (chainBound v) name ∅) v := by
      rw [batched_run_ok hrun, batched_run_ok hrun']
    rw [hsame] at hbatch
    exact follows_bind hbatch fun _ g' v' _ h => Simulates.pure () g' v' h
  | false =>
    simp only [Bool.false_eq_true, if_false]
    refine (Simulates.query fun _ _ h => FaithfulStore.hasCategory h name).bind
      fun known => ?_
    cases known with
    | false => exact .pure ()
    | true =>
      refine (dissociateAll_simulates name).batched fun v hv => ?_
      obtain ⟨v', hrun, -⟩ := dissociateAll_retags name v hv
      exact ⟨(), v', hrun⟩

theorem attachToSource_simulates (e : Entity) :
    Simulates (attachToSource e : GraphM σ Unit) (attachToSource e) := by
  unfold attachToSource
  cases e.source? with
  | none => exact .pure ()
  | some source => exact attach_simulates source e.id

theorem restore_simulates (entities : List Entity) :
    Simulates (restore entities : GraphM σ Nat) (restore entities) := by
  have hwrite : Simulates
      (do let stored ← entities.mapM replace; stored.forM attachToSource :
            GraphM σ Unit)
      (do let stored ← entities.mapM replace; stored.forM attachToSource) :=
    (Simulates.mapM replace_simulates entities).bind fun stored =>
      .forM attachToSource_simulates stored
  exact (hwrite.batched fun v hv => ⟨(), _, restoreAll_run hv entities⟩).bind
    fun _ => .pure _

theorem perform_simulates (op : Operation) :
    Simulates (op.perform : GraphM σ Unit) op.perform := by
  cases op with
  | saveResource d => exact (saveResource_simulates d).bind fun _ => .pure ()
  | saveLink d ends => exact (saveLink_simulates d ends).bind fun _ => .pure ()
  | update id attributes =>
    exact (update_simulates id attributes).bind fun _ => .pure ()
  | saveMixin mixin ids => exact saveMixin_simulates mixin ids
  | updateMixin mixin ids => exact saveMixin_simulates mixin ids
  | delete name => exact delete_simulates name
  | restore entities =>
    exact (restore_simulates entities).bind fun _ => .pure ()

/-! ## Runs -/

theorem Related.perform
    {g : Graph σ} {v : Graph VolatileStore} (h : Related g v) (op : Operation)
    (hop : ∀ e, (op.perform g).1 = .error e → e.isRefusal) :
    (op.perform g).1 = (op.perform v).1 ∧
      Related (op.perform g).2 (op.perform v).2 := by
  rcases perform_simulates op g v h with hok | ⟨e, he, hrefusal⟩
  · exact hok
  · have := hop e he
    simp [hrefusal] at this

/-- Along a run on which no call on the store fails, a graph stays related to
the graph over the volatile store. -/
theorem Related.after
    {g : Graph σ} {v : Graph VolatileStore} (h : Related g v)
    {ops : List Operation} (hops : g.Unfailing ops) :
    Related (g.after ops) (v.after ops) := by
  induction ops generalizing g v with
  | nil => exact h
  | cons op ops ih => exact ih (h.perform op hops.2.1).2 hops.2.2

/-- A run that starts with an empty store is related to the run that starts with
an empty volatile store. -/
theorem after_related
    {s : σ} (hs : Holds s {}) {registry : HookRegistry} {validates : Bool}
    {ops : List Operation}
    (hops : Unfailing { store := s, registry, validates } ops) :
    Related (Graph.after { store := s, registry, validates } ops)
      (Graph.after { store := ({} : VolatileStore), registry, validates } ops) := by
  have hstart : Related { store := s, registry, validates }
      { store := ({} : VolatileStore), registry, validates } :=
    ⟨hs, rfl, rfl, .nil⟩
  exact hstart.after hops

theorem after_agrees
    {s : σ} (hs : Holds s {}) {registry : HookRegistry} {validates : Bool}
    {ops : List Operation}
    (hops : Unfailing { store := s, registry, validates } ops) :
    Agrees (Graph.after { store := s, registry, validates } ops).store
      (Graph.after { store := ({} : VolatileStore), registry, validates }
        ops).store :=
  hops.readable.agrees (after_related hs hops).store

end LinkGraph.Graph
