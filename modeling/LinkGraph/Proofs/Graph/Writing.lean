import LinkGraph.Proofs.Graph.Running
import Mathlib.Data.List.Forall2

/-!
# What writing operations do to a volatile store

Each operation that writes is computed as a function of the store it meets.
Replacing an entity is split into the leaving of its previous version and the
entering of the new one; saving, updating, tagging and erasing are put together
from it and from revisions of single entities.
-/

namespace LinkGraph

namespace Entity

/-- The entity with one more mixin, its serial counted on. -/
def gaining (e : Entity) (mixin : Category) : Entity :=
  { e with mixins := e.mixins.insert mixin }.bump

/-- The entity without a mixin, its serial counted on. -/
def losing (e : Entity) (mixin : Category) : Entity :=
  { e with mixins := e.mixins.erase mixin }.bump

/-- The entity with more attributes, its serial counted on. -/
def updated (e : Entity) (accepted : Attributes) : Entity :=
  { e with attributes := e.attributes ∪ accepted }.bump

end Entity

namespace VolatileStore

variable {s : VolatileStore} {c : Category} {id x : EntityId} {e p : Entity}

/-- The store once the version under an id has left the index and its source. -/
def vacated (s : VolatileStore) (id : EntityId) : VolatileStore :=
  match s.entities[id]? with
  | some p => (s.leave p.id p.categories).release p
  | none => s

/-- An entity with the back-references of the version it replaces. -/
def merged (s : VolatileStore) (e : Entity) : Entity :=
  match s.entities[e.id]? with
  | some p => e.inheriting p
  | none => e

/-- The store after an entity has replaced the version under its id. -/
def replaced (s : VolatileStore) (e : Entity) : VolatileStore :=
  ((s.vacated e.id).enter e.id e.categories).place (s.merged e)

/-- The store after an entity has been erased. -/
def erased (s : VolatileStore) (e : Entity) : VolatileStore :=
  ((s.leave e.id e.categories).release e).discard e.id

/-- The store after an entity has gained a mixin. -/
def tagged
    (s : VolatileStore) (e : Entity) (mixin : Category) : VolatileStore :=
  (s.enter e.id [mixin]).place (e.gaining mixin)

/-- The store after an entity has lost a mixin.  It stays in the bucket if it is
of that kind. -/
def untagged
    (s : VolatileStore) (e : Entity) (mixin : Category) : VolatileStore :=
  (if e.kind = mixin then s else s.leave e.id [mixin]).place (e.losing mixin)

/-- The store after entities have been restored: all have replaced what was
stored under their ids, then every link among them has been attached to its
source. -/
def restored (s : VolatileStore) (es : List Entity) : VolatileStore :=
  es.foldl attached (es.foldl replaced s)

@[simp] theorem merged_id
    (s : VolatileStore) (e : Entity) :
    (s.merged e).id = e.id := by
  unfold merged
  split
  · rfl
  · rfl

@[simp] theorem merged_source? (s : VolatileStore) (e : Entity) :
    (s.merged e).source? = e.source? := by
  unfold merged
  split
  · rfl
  · rfl

@[simp] theorem merged_categories (s : VolatileStore) (e : Entity) :
    (s.merged e).categories = e.categories := by
  unfold merged
  split
  · rfl
  · rfl

@[simp] theorem merged_kind
    (s : VolatileStore) (e : Entity) :
    (s.merged e).kind = e.kind := by
  unfold merged
  split
  · rfl
  · rfl

theorem mem_merged_linkedFrom (s : VolatileStore) (e : Entity) :
    x ∈ (s.merged e).linkedFrom ↔
      x ∈ e.linkedFrom ∨ ∃ p, s.entities[e.id]? = some p ∧
      x ∈ p.linkedFrom := by
  unfold merged
  cases hp : s.entities[e.id]? with
  | none => simp
  | some p =>
    simp [Entity.inheriting, Entity.relinked, Std.ExtTreeSet.mem_union_iff]

theorem entities_vacated (hs : s.Keyed) :
    (s.vacated id).entities[x]? =
      if s.sourceOf id = some x then s.entities[x]?.map (·.unlinked id)
      else s.entities[x]? := by
  unfold vacated sourceOf
  cases hp : s.entities[id]? with
  | none => simp
  | some p => simp [entities_release, hs id p hp]

theorem entities_replaced (hs : s.Keyed) :
    (s.replaced e).entities[x]? =
      if x = e.id then some (s.merged e)
      else if s.sourceOf e.id = some x then s.entities[x]?.map (·.unlinked e.id)
      else s.entities[x]? := by
  rw [replaced, entities_place, entities_enter, entities_vacated hs, merged_id]

theorem entities_tagged {mixin : Category} :
    (s.tagged e mixin).entities[x]? =
      if x = e.id then some (e.gaining mixin) else s.entities[x]? := by
  rw [tagged, entities_place, entities_enter]
  rfl

theorem entities_untagged {mixin : Category} :
    (s.untagged e mixin).entities[x]? =
      if x = e.id then some (e.losing mixin) else s.entities[x]? := by
  unfold untagged
  split
  · exact entities_place
  · rw [entities_place, entities_leave]
    rfl

theorem mem_bucket_vacated (hs : s.Keyed) :
    x ∈ (s.vacated id).bucket c ↔
      x ∈ s.bucket c ∧ ¬(x = id ∧ ∃ p, s.entities[id]? = some p ∧
        c ∈ p.categories) := by
  unfold vacated
  cases hp : s.entities[id]? with
  | none => simp
  | some p =>
    have hbucket : ((s.leave p.id p.categories).release p).bucket c =
        (s.leave p.id p.categories).bucket c := by
      rw [bucket, index_release, bucket]
    rw [hbucket, mem_bucket_leave, hs id p hp]
    simp

theorem mem_bucket_replaced (hs : s.Keyed) :
    x ∈ (s.replaced e).bucket c ↔
      (x ∈ s.bucket c ∧ ¬(x = e.id ∧ ∃ p, s.entities[e.id]? = some p ∧
        c ∈ p.categories)) ∨
        (x = e.id ∧ c ∈ e.categories) := by
  have hbucket : (s.replaced e).bucket c =
      ((s.vacated e.id).enter e.id e.categories).bucket c := rfl
  rw [hbucket, mem_bucket_enter, mem_bucket_vacated hs]

theorem Pruned.of_index_eq
    {t : VolatileStore} (h : s.Pruned) (hindex : t.index = s.index) :
    t.Pruned := by
  intro c
  rw [hindex]
  exact h c

theorem Pruned.replaced
    (h : s.Pruned) (e : Entity) :
    (s.replaced e).Pruned := by
  have hvacated : (s.vacated e.id).Pruned := by
    unfold vacated
    split
    · exact (h.leave _).of_index_eq index_release
    · exact h
  exact (hvacated.enter e.categories).of_index_eq index_place

theorem Keyed.vacated (h : s.Keyed) (id : EntityId) : (s.vacated id).Keyed := by
  unfold VolatileStore.vacated
  split
  · exact (h.of_entities_eq (entities_leave _)).release _
  · exact h

theorem Keyed.replaced (h : s.Keyed) (e : Entity) : (s.replaced e).Keyed :=
  ((h.vacated e.id).of_entities_eq (entities_enter _)).place _

theorem Keyed.erased (h : s.Keyed) (e : Entity) : (s.erased e).Keyed :=
  ((h.of_entities_eq (entities_leave _)).release e).discard e.id

theorem Keyed.foldl_replaced (h : s.Keyed) (es : List Entity) :
    (es.foldl VolatileStore.replaced s).Keyed := by
  induction es generalizing s with
  | nil => exact h
  | cons e es ih => exact ih (h.replaced e)

theorem Keyed.foldl_attached (h : s.Keyed) (es : List Entity) :
    (es.foldl VolatileStore.attached s).Keyed := by
  induction es generalizing s with
  | nil => exact h
  | cons e es ih => exact ih (h.attached e)

theorem Keyed.tagged
    (h : s.Keyed) (e : Entity) (mixin : Category) :
    (s.tagged e mixin).Keyed :=
  (h.of_entities_eq (entities_enter _)).place _

theorem Keyed.untagged (h : s.Keyed) (e : Entity) (mixin : Category) :
    (s.untagged e mixin).Keyed := by
  unfold VolatileStore.untagged
  split
  · exact h.place _
  · exact (h.of_entities_eq (entities_leave _)).place _

end VolatileStore

namespace Graph

open VolatileStore (Keyed)

variable {g : Graph VolatileStore} {id : EntityId} {e : Entity}

theorem placeEntering_run (g : Graph VolatileStore) (e : Entity) :
    (do enterIndex e; let _ ← change (EntityStore.put e); return e :
          GraphM VolatileStore Entity) g =
      (.ok e,
        { g with store := (g.store.enter e.id e.categories).place e }) := by
  rw [bind_run_ok (enterIndex_run g e), bind_run_ok (put_run _ e)]
  rfl

theorem replace_run (hs : g.store.Keyed) (e : Entity) :
    replace e g = (.ok (g.store.merged e),
      { g with store := g.store.replaced e }) := by
  rw [replace, bind_run_ok (fetch_run g e.id)]
  unfold VolatileStore.replaced VolatileStore.merged VolatileStore.vacated
  cases hp : g.store.entities[e.id]? with
  | none => exact placeEntering_run g e
  | some p =>
    have hleft : (g.store.leave p.id p.categories).Keyed :=
      hs.of_entities_eq (VolatileStore.entities_leave _)
    have hdetach :=
      detachFromSource_run
        (g := { g with store := g.store.leave p.id p.categories }) hleft p
    simp only
    rw [bind_run_ok (leaveIndex_run g p.id p), bind_run_ok hdetach]
    exact placeEntering_run _ (e.inheriting p)

theorem erase_run (hs : g.store.Keyed) (e : Entity) :
    erase e.id e g =
      (.ok (), { g.notified .deleting e with store := g.store.erased e }) := by
  rw [erase, bind_run_ok (notify_run g .deleting e),
    bind_run_ok (leaveIndex_run _ e.id e)]
  unfold VolatileStore.erased VolatileStore.release
  cases hsource : e.source? with
  | none => rfl
  | some source =>
    have hleft : (g.store.leave e.id e.categories).Keyed :=
      hs.of_entities_eq (VolatileStore.entities_leave _)
    have hdetach := detach_run (g :=
      { g.notified .deleting e with store := g.store.leave e.id e.categories })
        hleft source e.id
    simp only [store_notified]
    rw [bind_run_ok hdetach]
    rfl

theorem batched_replace_run (hs : g.store.Keyed) (e : Entity) :
    batched (replace e) g =
      (.ok (g.store.merged e), { g with store := g.store.replaced e }) :=
  batched_run_ok (replace_run hs e)

/-- The graph after an entity has been saved: it has replaced the version under
its id, and a link is among the back-references of its source. -/
def saved (g : Graph VolatileStore) (e : Entity) : Graph VolatileStore :=
  { g with store := (g.store.replaced e).attached e }.notified .created
    (g.store.merged e)

theorem saveResource_run (hs : g.store.Keyed) (d : Draft) :
    saveResource d g =
      if g.admits d.kind then (.ok d.id, g.saved (d.entity none))
      else (.error (.unknownCategory d.kind), g) := by
  have hcheck := checkCategory_run g d.kind
  cases hadmits : g.admits d.kind with
  | false =>
    simp only [hadmits, Bool.false_eq_true, if_false] at hcheck ⊢
    rw [saveResource, bind_run_error hcheck]
  | true =>
    simp only [hadmits, if_true] at hcheck ⊢
    rw [saveResource, bind_run_ok hcheck,
      bind_run_ok (batched_replace_run hs _), bind_run_ok (notify_run _ _ _)]
    rfl

theorem checkEndpoint_run (g : Graph VolatileStore) (link endpoint : EntityId) :
    checkEndpoint link endpoint g =
      if g.store.entities.contains endpoint then (.ok (), g)
      else (.error (.danglingReference link endpoint), g) := by
  have hquery : query (EntityStore.contains · endpoint) g =
      (.ok (g.store.entities.contains endpoint), g) := rfl
  rw [checkEndpoint, bind_run_ok hquery]
  cases g.store.entities.contains endpoint with
  | false => rfl
  | true => rfl

/-- What saving a link writes: the link replaces the version under its id, and
is attached to its source. -/
theorem replaceAndAttach_run
    (hs : g.store.Keyed) (d : Draft) (ends : Endpoints) :
    (do let e ← replace (d.entity (some ends)); attach ends.source e.id;
        return e :
        GraphM VolatileStore Entity) g =
      (.ok (g.store.merged (d.entity (some ends))),
        { g with store := (g.store.replaced (d.entity (some ends))).attached
                   (d.entity (some ends)) }) := by
  rw [bind_run_ok (replace_run hs _), bind_run_ok
    (attach_run (hs.replaced _) _ _), pure_run, VolatileStore.merged_id]
  rfl

/-- What a link refers to that is not stored, its source before its target. -/
def missingEndpoint?
    (g : Graph VolatileStore) (ends : Endpoints) : Option EntityId :=
  [ends.source, ends.target].find? fun id => !g.store.entities.contains id

theorem saveLink_run (hs : g.store.Keyed) (d : Draft) (ends : Endpoints) :
    saveLink d ends g =
      if g.admits d.kind then
        match g.missingEndpoint? ends with
        | none => (.ok d.id, g.saved (d.entity (some ends)))
        | some endpoint => (.error (.danglingReference d.id endpoint), g)
      else (.error (.unknownCategory d.kind), g) := by
  have hcheck := checkCategory_run g d.kind
  have hsource := checkEndpoint_run g d.id ends.source
  have htarget := checkEndpoint_run g d.id ends.target
  unfold missingEndpoint?
  cases hadmits : g.admits d.kind with
  | false =>
    simp only [hadmits, Bool.false_eq_true, if_false] at hcheck ⊢
    rw [saveLink, bind_run_error hcheck]
  | true =>
    simp only [hadmits, if_true] at hcheck ⊢
    rw [saveLink, bind_run_ok hcheck]
    cases hs₁ : g.store.entities.contains ends.source with
    | false =>
      simp only [hs₁, Bool.false_eq_true, if_false] at hsource
      rw [bind_run_error hsource]
      simp [hs₁]
    | true =>
      simp only [hs₁, if_true] at hsource
      rw [bind_run_ok hsource]
      cases hs₂ : g.store.entities.contains ends.target with
      | false =>
        simp only [hs₂, Bool.false_eq_true, if_false] at htarget
        rw [bind_run_error htarget]
        simp [hs₁, hs₂]
      | true =>
        simp only [hs₂, if_true] at htarget
        rw [bind_run_ok htarget]
        have hwrite := batched_run_ok (replaceAndAttach_run hs d ends)
        rw [bind_run_ok hwrite, bind_run_ok (notify_run _ _ _)]
        simp [hs₁, hs₂, saved]

theorem update_run
    (g : Graph VolatileStore) (id : EntityId) (attributes : WireAttributes) :
    update id attributes g =
      match g.store.entities[id]? with
      | none => (.ok attributes, g)
      | some e =>
        let e := e.updated attributes.decoded
        (.ok attributes.decoded.encode,
          { g with store := g.store.place e }.notified .updated e) := by
  rw [update, bind_run_ok (fetch_run g id)]
  cases he : g.store.entities[id]? with
  | none => rfl
  | some e =>
    simp only
    rw [bind_run_ok (put_run _ _), bind_run_ok (notify_run _ _ _)]
    rfl

/-- Associating a mixin leaves the graph alone, or adds the mixin to an entity
that can take it. -/
theorem associate_run_cases
    (hs : g.store.Keyed) (mixin : Category) (id : EntityId) :
    (associate mixin id g = (.ok (), g) ∧
      ∀ e, g.store.entities[id]? = some e → e.kind = mixin ∨ mixin ∈ e.mixins) ∨
    ∃ e, g.store.entities[id]? = some e ∧ e.kind ≠ mixin ∧ mixin ∉ e.mixins ∧
      associate mixin id g =
        (.ok (),
          { g with store := g.store.tagged e mixin }.notified
            (.mixinAdded mixin) (e.gaining mixin)) := by
  rw [associate, bind_run_ok (fetch_run g id)]
  cases he : g.store.entities[id]? with
  | none => exact Or.inl ⟨rfl, by simp⟩
  | some e =>
    simp only
    by_cases hcarries : e.kind = mixin ∨ mixin ∈ e.mixins
    · left
      rw [if_pos hcarries]
      refine ⟨rfl, ?_⟩
      intro e' he'
      obtain rfl : e = e' := by simpa using he'
      exact hcarries
    · right
      rw [if_neg hcarries]
      rw [not_or] at hcarries
      refine ⟨e, rfl, hcarries.1, hcarries.2, ?_⟩
      rw [bind_run_ok (change_run _), bind_run_ok (put_run _ _),
        notify_run, ← hs id e he]
      rfl

/-- Dissociating a mixin leaves the graph alone, or takes the mixin from an
entity that carries it; the entity stays in the bucket if the mixin is also its
kind. -/
theorem dissociate_run_cases
    (hs : g.store.Keyed) (mixin : Category) (id : EntityId) :
    (dissociate mixin id g = (.ok (), g) ∧
      ∀ e, g.store.entities[id]? = some e → mixin ∉ e.mixins) ∨
    ∃ e, g.store.entities[id]? = some e ∧ mixin ∈ e.mixins ∧
      dissociate mixin id g =
        (.ok (),
          { g with store := g.store.untagged e mixin }.notified
            (.mixinRemoved mixin) (e.losing mixin)) := by
  rw [dissociate, bind_run_ok (fetch_run g id)]
  cases he : g.store.entities[id]? with
  | none => exact Or.inl ⟨rfl, by simp⟩
  | some e =>
    simp only
    by_cases hcarries : mixin ∈ e.mixins
    · right
      rw [if_pos hcarries]
      refine ⟨e, rfl, hcarries, ?_⟩
      have hkind :
          ({ e with mixins := e.mixins.erase mixin }.bump).kind = e.kind := rfl
      rw [hkind]
      by_cases hk : e.kind = mixin
      · subst hk
        simp only [VolatileStore.untagged, ne_eq, not_true_eq_false,
          if_false, if_true]
        rw [bind_run_ok (put_run _ _), notify_run]
        rfl
      · simp only [VolatileStore.untagged, hk, ne_eq, not_false_eq_true,
          if_true, if_false]
        rw [bind_run_ok (change_run _), bind_run_ok (put_run _ _),
          notify_run, ← hs id e he]
        rfl
    · left
      rw [if_neg hcarries]
      refine ⟨rfl, ?_⟩
      intro e' he'
      obtain rfl : e = e' := by simpa using he'
      exact hcarries

theorem attachToSource_run (hs : g.store.Keyed) (e : Entity) :
    attachToSource e g = (.ok (), { g with store := g.store.attached e }) := by
  unfold attachToSource VolatileStore.attached
  cases e.source? with
  | none => rfl
  | some source => exact attach_run hs source e.id

theorem attachToSource_forM_run (hs : g.store.Keyed) (es : List Entity) :
    es.forM attachToSource g =
      (.ok (),
        { g with store := es.foldl VolatileStore.attached g.store }) := by
  induction es generalizing g with
  | nil => rfl
  | cons e es ih =>
    change (attachToSource e >>= fun _ => es.forM attachToSource) g = _
    rw [bind_run_ok (attachToSource_run hs e)]
    exact ih (g := { g with store := g.store.attached e }) (hs.attached e)

/-- Replacing entities one after the other keeps their ids and sources. -/
theorem replace_mapM_run (hs : g.store.Keyed) (es : List Entity) :
    ∃ stored, es.mapM replace g =
        (.ok stored,
          { g with store := es.foldl VolatileStore.replaced g.store }) ∧
      List.Forall₂ (fun e e' => e.id = e'.id ∧ e.source? = e'.source?) es
        stored := by
  induction es generalizing g with
  | nil => exact ⟨[], rfl, .nil⟩
  | cons e es ih =>
    obtain ⟨stored, hrun, hsame⟩ :=
      ih (g := { g with store := g.store.replaced e }) (hs.replaced e)
    refine ⟨g.store.merged e :: stored, ?_, .cons (by simp) hsame⟩
    rw [List.mapM_cons, bind_run_ok (replace_run hs e), bind_run_ok hrun]
    rfl

theorem foldl_attached_congr
    {es es' : List Entity} (s : VolatileStore)
    (h : List.Forall₂ (fun e e' => e.id = e'.id ∧ e.source? = e'.source?) es es') :
    es.foldl VolatileStore.attached s = es'.foldl VolatileStore.attached s := by
  induction h generalizing s with
  | nil => rfl
  | cons hsame _ ih =>
    rw [List.foldl_cons, List.foldl_cons,
      VolatileStore.attached_congr hsame.1 hsame.2]
    exact ih _

theorem restoreAll_run (hs : g.store.Keyed) (es : List Entity) :
    (do let stored ← es.mapM replace; stored.forM attachToSource :
          GraphM VolatileStore Unit) g =
      (.ok (), { g with store := g.store.restored es }) := by
  obtain ⟨stored, hrun, hsame⟩ := replace_mapM_run hs es
  rw [bind_run_ok hrun, attachToSource_forM_run (hs.foldl_replaced es)]
  rw [VolatileStore.restored, foldl_attached_congr _ hsame]

theorem restore_run (hs : g.store.Keyed) (es : List Entity) :
    restore es g = (.ok es.length,
      { g with store := g.store.restored es }) := by
  rw [restore, bind_run_ok (batched_run_ok (restoreAll_run hs es))]
  rfl

end Graph

end LinkGraph
