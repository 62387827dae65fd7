import LinkGraph.Proofs.Graph.Operation
import LinkGraph.Proofs.Graph.Writing
import LinkGraph.Proofs.Store.Calls

/-!
# How operations are composed

Every operation of a graph is put together from calls on its store, calls of
handlers, refusals and batches, and looks at the rest of the graph only for what
its journal does not tell.  What such parts have and sequences of them keep is
then a matter of one induction, whichever the operation.
-/

namespace LinkGraph

/-- What an operation answers when it succeeds. -/
inductive Reply where
  | saved (id : EntityId)
  | accepted (attributes : WireAttributes)
  | restored (count : Nat)
  | done

/-- Performs an operation, and returns what it answers. -/
def Operation.reply {σ : Type} [EntityStore σ] : Operation → GraphM σ Reply
  | saveResource d => return .saved (← Graph.saveResource d)
  | saveLink d ends => return .saved (← Graph.saveLink d ends)
  | update id attributes => return .accepted (← Graph.update id attributes)
  | saveMixin mixin ids => do Graph.saveMixin mixin ids; return .done
  | updateMixin mixin ids => do Graph.updateMixin mixin ids; return .done
  | delete name => do Graph.delete name; return .done
  | restore entities => return .restored (← Graph.restore entities)

/-- The points at which an operation may call handlers. -/
def Operation.callsAt : Operation → HookPoint → Prop
  | saveResource _, point | saveLink .., point => point = .created
  | update .., point => point = .updated
  | saveMixin mixin _, point | updateMixin mixin _, point =>
    point = .mixinAdded mixin
  | delete name, point => point = .deleting ∨ point = .mixinRemoved name
  | restore _, _ => False

/-- Registries with handlers for the same kinds, shown in the same way.  Only
what the handlers answer may differ. -/
structure HookRegistry.Alike (r r' : HookRegistry) : Prop where
  registered (kind : Category) : r.isRegistered kind = r'.isRegistered kind
  style (e : Entity) : (r.handlerFor e).style = (r'.handlerFor e).style

theorem HookRegistry.Alike.refl (r : HookRegistry) : r.Alike r where
  registered _ := rfl
  style _ := rfl

namespace Graph

variable {σ α β : Type} [EntityStore σ]

/-- The graph with another journal. -/
def journaling (g : Graph σ) (journal : Journal σ) : Graph σ :=
  { g with journal }

/-- Nothing tells the graphs apart but their journals and what their handlers
answer. -/
structure Alike (g g' : Graph σ) : Prop where
  store : g.store = g'.store
  validates : g.validates = g'.validates
  registry : g.registry.Alike g'.registry

omit [EntityStore σ] in
theorem alike_journaling
    (g : Graph σ) (journal : Journal σ) :
    Alike (journaling g journal) g where
  store := rfl
  validates := rfl
  registry := .refl _

/-- The operation is a sequence of calls, refusals and batches, which calls
handlers only at points of a kind and refuses for reasons of a kind, never in a
batch.  It may depend on what a graph shows with any journal and whatever its
handlers answer. -/
inductive Composed (points : HookPoint → Prop) :
    (StoreError → Prop) → {α : Type} → GraphM σ α → Prop
  | pure {refusals : StoreError → Prop} {α : Type} (a : α) :
    Composed points refusals (pure a)
  | refuse {refusals : StoreError → Prop} {α : Type} {e : StoreError}
    (he : refusals e) :
      Composed points refusals (throw e : GraphM σ α)
  | bind {refusals : StoreError → Prop} {α β : Type} {p : GraphM σ α}
    {f : α → GraphM σ β} :
      Composed points refusals p → (∀ a, Composed points refusals (f a)) →
      Composed points refusals (p >>= f)
  | asking {refusals : StoreError → Prop} {α β : Type} (view : Graph σ → β)
    {f : β → GraphM σ α} :
      (∀ {g g'}, Alike g g' → view g = view g') →
      (∀ b, Composed points refusals (f b)) →
      Composed points refusals (do let g ← get; f (view g))
  | query {refusals : StoreError → Prop} (r : StoreRead) :
      Composed points refusals (query (StoreRead.perform · r))
  | change {refusals : StoreError → Prop} (w : StoreWrite) :
    Composed points refusals (change w.perform)
  | notify {refusals : StoreError → Prop} {point : HookPoint}
    (hpoint : points point) (e : Entity) :
      Composed points refusals (notify point e)
  | batched {refusals : StoreError → Prop} {α : Type} {p : GraphM σ α} :
      Composed points (fun _ => False) p → Composed points refusals (batched p)

namespace Composed

variable {points : HookPoint → Prop} {refusals : StoreError → Prop}

theorem forM
    {p : α → GraphM σ Unit} (hp : ∀ a, Composed points refusals (p a))
    (as : List α) :
    Composed points refusals (as.forM p) := by
  induction as with
  | nil => exact .pure ()
  | cons a as ih => exact (hp a).bind fun _ => ih

theorem foldlM
    {p : β → α → GraphM σ β} (hp : ∀ b a, Composed points refusals (p b a))
    (as : List α) (b : β) :
    Composed points refusals (as.foldlM p b) := by
  induction as generalizing b with
  | nil => exact .pure b
  | cons a as ih =>
    rw [List.foldlM_cons]
    exact (hp b a).bind fun b' => ih b'

theorem mapM
    {p : α → GraphM σ β} (hp : ∀ a, Composed points refusals (p a))
    (as : List α) :
    Composed points refusals (as.mapM p) := by
  induction as with
  | nil =>
    rw [List.mapM_nil]
    exact .pure []
  | cons a as ih =>
    rw [List.mapM_cons]
    exact (hp a).bind fun b => ih.bind fun bs => .pure (b :: bs)

/-! ## Building blocks -/

theorem put (e : Entity) :
    Composed points refusals (Graph.change (EntityStore.put e) :
      GraphM σ (Option Entity)) :=
  change (.put e)

theorem remove (id : EntityId) :
    Composed points refusals (Graph.change (EntityStore.remove id) :
      GraphM σ (Option Entity)) :=
  change (.remove id)

theorem indexInsert (c : Category) (id : EntityId) :
    Composed points refusals (Graph.change (EntityStore.indexInsert c id) :
      GraphM σ Unit) :=
  change (.indexInsert c id)

theorem indexRemove (c : Category) (id : EntityId) :
    Composed points refusals (Graph.change (EntityStore.indexRemove c id) :
      GraphM σ Unit) :=
  change (.indexRemove c id)

theorem fetch
    (id : EntityId) :
    Composed points refusals (fetch id : GraphM σ (Option Entity)) :=
  .query (.get id)

theorem attach
    (source link : EntityId) :
    Composed points refusals (attach source link : GraphM σ Unit) := by
  refine (fetch source).bind fun e? => ?_
  cases e? with
  | none => exact .pure ()
  | some e =>
    by_cases hmem : link ∈ e.linkedFrom
    · simpa only [hmem, if_true] using .pure ()
    · simpa only [hmem, if_false] using (put _).bind fun _ => .pure ()

theorem detach
    (source link : EntityId) :
    Composed points refusals (detach source link : GraphM σ Unit) := by
  refine (fetch source).bind fun e? => ?_
  cases e? with
  | none => exact .pure ()
  | some e =>
    by_cases hmem : link ∈ e.linkedFrom
    · simpa only [hmem, if_true] using (put _).bind fun _ => .pure ()
    · simpa only [hmem, if_false] using .pure ()

theorem detachFromSource
    (e : Entity) :
    Composed points refusals (detachFromSource e : GraphM σ Unit) := by
  unfold Graph.detachFromSource
  cases e.source? with
  | none => exact .pure ()
  | some source => exact detach source e.id

theorem attachToSource
    (e : Entity) :
    Composed points refusals (attachToSource e : GraphM σ Unit) := by
  unfold Graph.attachToSource
  cases e.source? with
  | none => exact .pure ()
  | some source => exact attach source e.id

theorem replace
    (e : Entity) :
    Composed points refusals (replace e : GraphM σ Entity) := by
  have henter (e : Entity) : Composed points refusals
      (do enterIndex e; let _ ← Graph.change (EntityStore.put e); return e :
            GraphM σ Entity) := by
    have hindex : Composed points refusals (enterIndex e : GraphM σ Unit) :=
      forM (fun c => .indexInsert c e.id) e.categories
    exact hindex.bind fun _ => (put e).bind fun _ => .pure e
  refine (fetch e.id).bind fun e? => ?_
  cases e? with
  | none => exact henter e
  | some previous =>
    have hleave : Composed points refusals
        (leaveIndex previous.id previous : GraphM σ Unit) :=
      forM (fun c => .indexRemove c previous.id) previous.categories
    refine hleave.bind fun _ => (detachFromSource previous).bind fun _ => ?_
    exact henter (e.inheriting previous)

theorem erase (hpoint : points .deleting) (id : EntityId) (e : Entity) :
    Composed points refusals (erase id e : GraphM σ Unit) := by
  have hleave : Composed points refusals (leaveIndex id e : GraphM σ Unit) :=
    forM (fun c => .indexRemove c id) e.categories
  have hremove : Composed points refusals
      (do let _ ← Graph.change (EntityStore.remove id) : GraphM σ Unit) :=
    (remove id).bind fun _ => .pure ()
  refine (notify hpoint e).bind fun _ => hleave.bind fun _ => ?_
  cases e.source? with
  | none => exact hremove
  | some source => exact (detach source id).bind fun _ => hremove

theorem cascade
    (hpoint : points .deleting) (depth : Nat) (id : EntityId)
    (visited : NameSet) :
    Composed points refusals (cascade depth id visited : GraphM σ NameSet) := by
  induction depth generalizing id visited with
  | zero => exact .pure visited
  | succ depth ih =>
    rw [Graph.cascade]
    by_cases hid : id ∈ visited
    · simpa only [hid, if_true] using .pure visited
    · simp only [hid, if_false]
      refine (fetch id).bind fun e? => ?_
      cases e? with
      | none => exact .pure _
      | some e =>
        refine (foldlM (fun visited id => ih id visited) _ _).bind
          fun visited => ?_
        refine (fetch id).bind fun e? => ?_
        cases e? with
        | none => exact .pure visited
        | some e => exact (erase hpoint id e).bind fun _ => .pure visited

theorem associate
    {mixin : Category} (hpoint : points (.mixinAdded mixin)) (id : EntityId) :
    Composed points refusals (associate mixin id : GraphM σ Unit) := by
  refine (fetch id).bind fun e? => ?_
  cases e? with
  | none => exact .pure ()
  | some e =>
    by_cases hcarries : e.kind = mixin ∨ mixin ∈ e.mixins
    · simpa only [hcarries, if_true] using .pure ()
    · simp only [hcarries, if_false]
      refine (indexInsert mixin id).bind fun _ => ?_
      exact (put _).bind fun _ => .notify hpoint _

theorem dissociate
    {mixin : Category} (hpoint : points (.mixinRemoved mixin)) (id : EntityId) :
    Composed points refusals (dissociate mixin id : GraphM σ Unit) := by
  refine (fetch id).bind fun e? => ?_
  cases e? with
  | none => exact .pure ()
  | some e =>
    by_cases hcarries : mixin ∈ e.mixins
    · simp only [hcarries, if_true]
      have hput : Composed points refusals
          (do
              let _ ← Graph.change (EntityStore.put (e.losing mixin))
              Graph.notify (.mixinRemoved mixin) (e.losing mixin) :
            GraphM σ Unit) :=
        (put _).bind fun _ => .notify hpoint _
      by_cases hkind : e.kind = mixin
      · simpa [hkind, Entity.losing, Entity.bump] using hput
      · have hkind' : ({ e with mixins := e.mixins.erase mixin }.bump).kind ≠
            mixin := hkind
        simp only [hkind', ne_eq, not_false_eq_true, if_true]
        exact (indexRemove mixin id).bind fun _ => hput
    · simpa only [hcarries, if_false] using .pure ()

theorem checkCategory
    (hrefusals : ∀ e : StoreError, e.isRefusal → refusals e) (kind : Category) :
    Composed points refusals (checkCategory kind : GraphM σ Unit) := by
  let answer (refused : Bool) : GraphM σ Unit :=
    if refused then MonadExcept.throw (.unknownCategory kind) else Pure.pure ()
  refine asking (fun g : Graph σ => g.validates &&
    !g.registry.isRegistered kind) (f := answer)
      (fun h => by rw [h.validates, h.registry.registered]) fun refused => ?_
  cases refused with
  | false => exact .pure ()
  | true => exact .refuse (hrefusals _ rfl)

theorem checkEndpoint (hrefusals : ∀ e : StoreError, e.isRefusal → refusals e)
    (link endpoint : EntityId) :
    Composed points refusals (checkEndpoint link endpoint : GraphM σ Unit) := by
  refine (query (.contains endpoint)).bind fun stored => ?_
  cases stored with
  | false => exact .refuse (hrefusals _ rfl)
  | true => exact .pure ()

theorem dissociateAll
    {mixin : Category} (hpoint : points (.mixinRemoved mixin)) :
    Composed points refusals (dissociateAll mixin : GraphM σ Unit) :=
  (query (.members mixin)).bind fun ids => forM (dissociate hpoint) ids

theorem replaceAndAttach (e : Entity) (source : EntityId) :
    Composed points refusals
      (do let e ← Graph.replace e; Graph.attach source e.id; return e :
            GraphM σ Entity) :=
  (replace e).bind fun e => (attach source e.id).bind fun _ => .pure e

theorem replaceAndAttachAll (entities : List Entity) :
    Composed points refusals (do
      let stored ← entities.mapM Graph.replace
      stored.forM Graph.attachToSource : GraphM σ Unit) :=
  (mapM replace entities).bind fun stored => forM attachToSource stored

/-! ## Operations -/

theorem saveResource (hpoint : points .created)
    (hrefusals : ∀ e : StoreError, e.isRefusal → refusals e) (d : Draft) :
    Composed points refusals (saveResource d : GraphM σ EntityId) :=
  (checkCategory hrefusals d.kind).bind fun _ =>
    (replace _).batched.bind fun e =>
    (notify hpoint e).bind fun _ => .pure d.id

theorem saveLink
    (hpoint : points .created)
    (hrefusals : ∀ e : StoreError, e.isRefusal → refusals e) (d : Draft)
    (ends : Endpoints) :
    Composed points refusals (saveLink d ends : GraphM σ EntityId) :=
  (checkCategory hrefusals d.kind).bind fun _ =>
    (checkEndpoint hrefusals d.id ends.source).bind fun _ =>
      (checkEndpoint hrefusals d.id ends.target).bind fun _ =>
        (replaceAndAttach _ _).batched.bind fun e =>
          (notify hpoint e).bind fun _ => .pure d.id

theorem update
    (hpoint : points .updated) (id : EntityId) (attributes : WireAttributes) :
    Composed points refusals (update id attributes :
      GraphM σ WireAttributes) := by
  refine (fetch id).bind fun e? => ?_
  cases e? with
  | none => exact .pure attributes
  | some e =>
    exact (put _).bind fun _ => (notify hpoint _).bind fun _ => .pure _

theorem saveMixin
    {mixin : Category} (hpoint : points (.mixinAdded mixin))
    (ids : List EntityId) :
    Composed points refusals (saveMixin mixin ids : GraphM σ Unit) :=
  (forM (associate hpoint) ids).batched

theorem delete
    {name : String} (hentity : points .deleting)
    (hmixin : points (.mixinRemoved name)) :
    Composed points refusals (delete name : GraphM σ Unit) := by
  refine (query (.contains name)).bind fun stored => ?_
  cases stored with
  | true =>
    simp only [if_true]
    have hcascade (depth : Nat) : Composed points refusals
        (do let _ ← Graph.batched (Graph.cascade depth name ∅) :
              GraphM σ Unit) :=
      (cascade hentity depth name ∅).batched.bind fun _ => .pure ()
    exact asking chainBound
      (f := fun depth => do let _ ← Graph.batched (Graph.cascade depth name ∅))
      (fun h => by rw [chainBound, chainBound, h.store]) hcascade
  | false =>
    simp only [Bool.false_eq_true, if_false]
    refine (query (.hasCategory name)).bind fun known => ?_
    cases known with
    | false => exact .pure ()
    | true => exact (dissociateAll hmixin).batched

theorem restore
    (entities : List Entity) :
    Composed points refusals (restore entities : GraphM σ Nat) :=
  (replaceAndAttachAll entities).batched.bind fun _ => .pure _

theorem reply
    (op : Operation) :
    Composed op.callsAt (·.isRefusal) (op.reply : GraphM σ Reply) := by
  cases op with
  | saveResource d =>
    have hpoint : (Operation.saveResource d).callsAt .created := rfl
    exact (saveResource hpoint (fun _ he => he) d).bind fun _ => .pure _
  | saveLink d ends =>
    have hpoint : (Operation.saveLink d ends).callsAt .created := rfl
    exact (saveLink hpoint (fun _ he => he) d ends).bind fun _ => .pure _
  | update id attributes =>
    have hpoint : (Operation.update id attributes).callsAt .updated := rfl
    exact (update hpoint id attributes).bind fun _ => .pure _
  | saveMixin mixin ids =>
    have hpoint :
        (Operation.saveMixin mixin ids).callsAt (.mixinAdded mixin) := rfl
    exact (saveMixin hpoint ids).bind fun _ => .pure _
  | updateMixin mixin ids =>
    have hpoint :
        (Operation.updateMixin mixin ids).callsAt (.mixinAdded mixin) := rfl
    exact (saveMixin hpoint ids).bind fun _ => .pure _
  | delete name =>
    have hentity : (Operation.delete name).callsAt .deleting := Or.inl rfl
    have hmixin : (Operation.delete name).callsAt (.mixinRemoved name) :=
      Or.inr rfl
    exact (delete hentity hmixin).bind fun _ => .pure _
  | restore entities => exact (restore entities).bind fun _ => .pure _

end Composed

end Graph

end LinkGraph
