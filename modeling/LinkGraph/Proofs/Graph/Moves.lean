import LinkGraph.Proofs.Graph.Cascade
import LinkGraph.Proofs.Graph.Operation
import Mathlib.Logic.Relation

/-!
# Moves of a volatile store

What an operation can do to a volatile store, as a relation between the stores
before and after it.  Invariants of graphs are derived from this relation,
without looking into the operations again.
-/

namespace LinkGraph

/-- One entity gains a mixin, or loses one. -/
inductive Retag (s : VolatileStore) : VolatileStore → Prop
  | tagged {id : EntityId} {e : Entity} (mixin : Category) :
      s.entities[id]? = some e →
      e.kind ≠ mixin → mixin ∉ e.mixins → Retag s (s.tagged e mixin)
  | untagged {id : EntityId} {e : Entity} (mixin : Category) :
      s.entities[id]? = some e →
      mixin ∈ e.mixins → Retag s (s.untagged e mixin)

/-- What a local operation does to a store. -/
inductive Move (s : VolatileStore) : VolatileStore → Prop
  | kept : Move s s
  | saved (d : Draft) (endpoints : Option Endpoints) :
      (∀ ends, endpoints = some ends → ends.source ∈ s.entities ∧
      ends.target ∈ s.entities) →
      Move s ((s.replaced (d.entity endpoints)).attached (d.entity endpoints))
  | updated {id : EntityId} {e : Entity} (accepted : Attributes) :
      s.entities[id]? = some e →
      Move s (s.place (e.updated accepted))
  | retagged {t : VolatileStore} : Relation.ReflTransGen Retag s t → Move s t
  | deleted {id : EntityId} {e : Entity} {V : NameSet}
    {g g' : Graph VolatileStore} :
      g.store = s → s.entities[id]? = some e → Graph.Walk [id] ∅ g V g' →
        Move s g'.store

namespace Graph

open VolatileStore (Keyed)

variable {g g' : Graph VolatileStore} {name : String}

theorem forget_run {σ α : Type} (p : GraphM σ α) (g : Graph σ) :
    (do let _ ← p : GraphM σ Unit) g = ((p g).1.map fun _ => (), (p g).2) :=
  map_run p (fun _ => ()) g

/-- Unless entities are stored under wrong ids, the operation succeeds and
changes tags only. -/
def Retags (p : GraphM VolatileStore Unit) : Prop :=
  ∀ g, Keyed g.store → ∃ g', p g = (.ok (), g') ∧ Keyed g'.store ∧
    Relation.ReflTransGen Retag g.store g'.store

theorem associate_retags
    (mixin : Category) (id : EntityId) :
    Retags (associate mixin id) := by
  intro g hs
  rcases associate_run_cases hs mixin id with
    ⟨hrun, -⟩ | ⟨e, he, hkind, hmixin, hrun⟩
  · exact ⟨g, hrun, hs, .refl⟩
  · exact ⟨_, hrun, hs.tagged e mixin, .single (.tagged mixin he hkind hmixin)⟩

theorem dissociate_retags
    (mixin : Category) (id : EntityId) :
    Retags (dissociate mixin id) := by
  intro g hs
  rcases dissociate_run_cases hs mixin id with ⟨hrun, -⟩ | ⟨e, he, hmixin, hrun⟩
  · exact ⟨g, hrun, hs, .refl⟩
  · exact ⟨_, hrun, hs.untagged e mixin, .single (.untagged mixin he hmixin)⟩

theorem Retags.forM
    {p : EntityId → GraphM VolatileStore Unit} (hp : ∀ id, Retags (p id))
    (ids : List EntityId) :
    Retags (ids.forM p) := by
  intro g hs
  refine forM_run_induction (fun g' => Keyed g'.store ∧
    Relation.ReflTransGen Retag g.store g'.store) ?_ ids ⟨hs, .refl⟩
  rintro id g₁ ⟨hs₁, hsteps⟩
  obtain ⟨g₂, hrun, hs₂, hsteps'⟩ := hp id g₁ hs₁
  exact ⟨g₂, hrun, hs₂, hsteps.trans hsteps'⟩

theorem Retags.batched {p : GraphM VolatileStore Unit} (hp : Retags p) :
    Retags (Graph.batched p) := by
  intro g hs
  obtain ⟨g', hrun, hs', hsteps⟩ := hp g hs
  exact ⟨g', batched_run_ok hrun, hs', hsteps⟩

theorem saveMixin_retags (mixin : Category) (ids : List EntityId) :
    Retags (saveMixin mixin ids) :=
  (Retags.forM (associate_retags mixin) ids).batched

theorem dissociateAll_retags
    (mixin : Category) :
    Retags (dissociateAll mixin) := by
  intro g hs
  exact Retags.forM (dissociate_retags mixin) (g.store.bucket mixin).toList g hs

/-- Deleting a name under which no entity is stored takes it from the mixins of
its members. -/
theorem delete_run_unstored (hname : g.store.entities[name]? = none) :
    delete name g =
      if g.store.index.contains name then batched (dissociateAll name) g
      else (.ok (), g) := by
  have hcontains : query (EntityStore.contains · name) g = (.ok false, g) := by
    have hstored : g.store.entities.contains name = false := by
      rw [Std.ExtTreeMap.contains_eq_isSome_getElem?, hname]
      rfl
    change (Except.ok (g.store.entities.contains name), g) = _
    rw [hstored]
  have hcategory : query (EntityStore.hasCategory · name) g =
      (.ok (g.store.index.contains name), g) := rfl
  rw [delete, bind_run_ok hcontains]
  simp only [Bool.false_eq_true, if_false]
  rw [bind_run_ok hcategory]
  cases g.store.index.contains name with
  | true => rfl
  | false => rfl

theorem delete_run_move (hs : g.store.Keyed) (name : String) :
    ∃ g', delete name g = (.ok (), g') ∧ Move g.store g'.store := by
  cases he : g.store.entities[name]? with
  | some e =>
    obtain ⟨V, g', hrun, hwalk⟩ := delete_run_stored hs he
    exact ⟨g', hrun, .deleted rfl he hwalk⟩
  | none =>
    rw [delete_run_unstored he]
    split
    · obtain ⟨g', hrun, -, hsteps⟩ := (dissociateAll_retags name).batched g hs
      exact ⟨g', hrun, .retagged hsteps⟩
    · exact ⟨g, rfl, .kept⟩

theorem stored_of_missingEndpoint?_eq_none {ends : Endpoints}
    (h : g.missingEndpoint? ends = none) :
    ends.source ∈ g.store.entities ∧ ends.target ∈ g.store.entities := by
  simpa [missingEndpoint?, List.find?_eq_none] using h

end Graph

open LinkGraph.Graph

/-- A local operation makes a move, or is refused and leaves the graph alone. -/
theorem Operation.perform_cases
    {op : Operation} {g : Graph VolatileStore} (hs : g.store.Keyed)
    (hop : op.isLocal) :
    (∃ g', op.perform g = (.ok (), g') ∧ Move g.store g'.store) ∨
      ∃ e, op.perform g = (.error e, g) ∧ e.isRefusal := by
  cases op with
  | saveResource d =>
    rw [Operation.perform, forget_run, saveResource_run hs]
    split
    · exact Or.inl ⟨_, rfl, .saved d none (by simp)⟩
    · exact Or.inr ⟨_, rfl, rfl⟩
  | saveLink d ends =>
    rw [Operation.perform, forget_run, saveLink_run hs]
    split
    · cases hmissing : g.missingEndpoint? ends with
      | none =>
        refine Or.inl ⟨_, rfl, .saved d (some ends) ?_⟩
        intro ends' hends
        obtain rfl : ends = ends' := by simpa using hends
        exact stored_of_missingEndpoint?_eq_none hmissing
      | some endpoint => exact Or.inr ⟨_, rfl, rfl⟩
    · exact Or.inr ⟨_, rfl, rfl⟩
  | update id attributes =>
    rw [Operation.perform, forget_run, update_run]
    cases he : g.store.entities[id]? with
    | none => exact Or.inl ⟨_, rfl, .kept⟩
    | some e => exact Or.inl ⟨_, rfl, .updated attributes.decoded he⟩
  | saveMixin mixin ids =>
    obtain ⟨g', hrun, -, hsteps⟩ := saveMixin_retags mixin ids g hs
    exact Or.inl ⟨g', hrun, .retagged hsteps⟩
  | updateMixin mixin ids =>
    obtain ⟨g', hrun, -, hsteps⟩ := saveMixin_retags mixin ids g hs
    exact Or.inl ⟨g', hrun, .retagged hsteps⟩
  | delete name => exact Or.inl (delete_run_move hs name)
  | restore es => simp [Operation.isLocal] at hop

theorem Operation.perform_move
    {op : Operation} {g : Graph VolatileStore} (hs : g.store.Keyed)
    (hop : op.isLocal) :
    Move g.store (op.perform g).2.store := by
  rcases Operation.perform_cases hs hop with ⟨g', hrun, hmove⟩ | ⟨e, hrun, -⟩
  · rw [hrun]
    exact hmove
  · rw [hrun]
    exact .kept

theorem Operation.perform_restore {g : Graph VolatileStore} (hs : g.store.Keyed)
    (es : List Entity) : (Operation.restore es).perform g =
      (.ok (), { g with store := g.store.restored es }) := by
  rw [Operation.perform, forget_run, restore_run hs]
  rfl

theorem Retag.keyed
    {s t : VolatileStore} (h : Retag s t) (hs : s.Keyed) :
    t.Keyed := by
  cases h with
  | tagged mixin _ _ _ => exact hs.tagged _ mixin
  | untagged mixin _ _ => exact hs.untagged _ mixin

theorem Move.keyed
    {s t : VolatileStore} (h : Move s t) (hs : s.Keyed) :
    t.Keyed := by
  cases h with
  | kept => exact hs
  | saved d endpoints _ => exact (hs.replaced _).attached _
  | updated accepted _ => exact hs.place _
  | retagged hsteps =>
    induction hsteps with
    | refl => exact hs
    | tail _ hstep ih => exact hstep.keyed ih
  | deleted hg _ hwalk =>
    subst hg
    exact hwalk.keyed hs

theorem Operation.keyed_perform
    {g : Graph VolatileStore} (hs : g.store.Keyed) (op : Operation) :
    (op.perform g).2.store.Keyed := by
  cases hop : op.isLocal with
  | true => exact (Operation.perform_move hs hop).keyed hs
  | false =>
    cases op with
    | restore es =>
      rw [Operation.perform_restore hs]
      exact (hs.foldl_replaced es).foldl_attached es
    | _ => simp [Operation.isLocal] at hop

/-- On a volatile store an operation fails only when the graph refuses it. -/
theorem Operation.isRefusal_of_perform
    {op : Operation} {g : Graph VolatileStore} (hs : g.store.Keyed)
    {e : StoreError} (he : (op.perform g).1 = .error e) :
    e.isRefusal := by
  cases hop : op.isLocal with
  | true =>
    rcases Operation.perform_cases hs hop with
      ⟨g', hrun, -⟩ | ⟨e', hrun, hrefusal⟩
    · simp [hrun] at he
    · obtain rfl : e' = e := by simpa [hrun] using he
      exact hrefusal
  | false =>
    cases op with
    | restore es => simp [Operation.perform_restore hs] at he
    | _ => simp [Operation.isLocal] at hop

theorem readable_volatile (s : VolatileStore) : Readable s where
  get _ := ⟨_, rfl⟩
  contains _ := ⟨_, rfl⟩
  members _ := ⟨_, rfl⟩
  hasCategory _ := ⟨_, rfl⟩
  categories := ⟨_, rfl⟩
  entityCount := ⟨_, rfl⟩
  entities := ⟨_, rfl⟩

/-- No call on a volatile store fails in any run. -/
theorem Graph.unfailing_volatile {g : Graph VolatileStore} (hs : g.store.Keyed)
    (ops : List Operation) : g.Unfailing ops := by
  induction ops generalizing g with
  | nil => exact readable_volatile g.store
  | cons op ops ih =>
    exact ⟨readable_volatile g.store, fun _ he =>
      Operation.isRefusal_of_perform hs he, ih (Operation.keyed_perform hs op)⟩

end LinkGraph
