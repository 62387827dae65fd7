import LinkGraph.Graph.Lookup
import LinkGraph.Proofs.Graph.Transfer
import LinkGraph.Proofs.Store.Ordered

/-!
# The category index

Saving, tagging, erasing and restoring maintain the buckets of a graph step by
step.  In every graph that they lead to from an empty one, a bucket has exactly
the stored entities of its category.  Everything that is listed or counted by
category is then what a scan over all entities finds.
-/

namespace LinkGraph

namespace VolatileStore

variable {s t : VolatileStore} {c mixin : Category} {id x : EntityId}
  {e : Entity}

/-- The entity stored under an id belongs to a category. -/
def Carries (s : VolatileStore) (x : EntityId) (c : Category) : Prop :=
  ∃ e, s.entities[x]? = some e ∧ c ∈ e.categories

/-- Entities are stored under their own ids, no bucket is empty, and the members
of a bucket are the ids of the stored entities of its category. -/
structure Indexed (s : VolatileStore) : Prop where
  keyed : s.Keyed
  pruned : s.Pruned
  member (c : Category) (x : EntityId) : x ∈ s.bucket c ↔ s.Carries x c

theorem indexed_empty : Indexed {} where
  keyed := keyed_empty
  pruned c := by simp
  member c x := by simp [bucket_eq, Carries]

theorem carries_iff : s.Carries x c ↔
    ∃ categories, s.entities[x]?.map Entity.categories = some categories ∧
      c ∈ categories := by
  simp [Carries]

/-- Changes of entities that leave their categories alone keep the index
exact. -/
theorem Indexed.of_categories_eq
    (h : s.Indexed) (hkeyed : t.Keyed) (hindex : t.index = s.index)
    (hcategories : ∀ x : EntityId, t.entities[x]?.map Entity.categories =
      s.entities[x]?.map Entity.categories) :
    t.Indexed where
  keyed := hkeyed
  pruned := h.pruned.of_index_eq hindex
  member c x := by
    have hbucket : t.bucket c = s.bucket c := by rw [bucket, hindex, bucket]
    rw [hbucket, h.member c x, carries_iff, carries_iff, hcategories x]

theorem Indexed.revise
    (h : s.Indexed) {change : Entity → Entity} (hid : ∀ e, (change e).id = e.id)
    (hcategories : ∀ e, (change e).categories = e.categories) :
    (s.revise id change).Indexed := by
  refine h.of_categories_eq (h.keyed.revise hid) rfl fun x => ?_
  rw [entities_revise]
  by_cases hx : x = id
  · simp [hx, Function.comp_def, hcategories]
  · simp [hx]

theorem Indexed.attached
    (h : s.Indexed) (e : Entity) :
    (s.attached e).Indexed := by
  unfold VolatileStore.attached
  split
  · exact h.revise (fun _ => rfl) fun _ => rfl
  · exact h

theorem carries_replaced (hs : s.Keyed) :
    (s.replaced e).Carries x c ↔
      if x = e.id then c ∈ e.categories else s.Carries x c := by
  rw [carries_iff, carries_iff, entities_replaced hs]
  by_cases hx : x = e.id
  · simp [hx]
  · by_cases hsource : s.sourceOf e.id = some x
    · simp only [hx, hsource, if_true, if_false, Option.map_map]
      rfl
    · simp [hx, hsource]

theorem Indexed.replaced
    (h : s.Indexed) (e : Entity) :
    (s.replaced e).Indexed where
  keyed := h.keyed.replaced e
  pruned := h.pruned.replaced e
  member c x := by
    rw [mem_bucket_replaced h.keyed, carries_replaced h.keyed, h.member c x]
    by_cases hx : x = e.id
    · subst hx
      -- The old version has left the buckets of all its categories.
      have hold : ¬(s.Carries e.id c ∧ ¬∃ p, s.entities[e.id]? = some p ∧
          c ∈ p.categories) :=
        fun ⟨hc, hnot⟩ => hnot hc
      simp only [hold, false_or, true_and, if_true]
    · simp [hx]

theorem Indexed.foldl_replaced (h : s.Indexed) (es : List Entity) :
    (es.foldl VolatileStore.replaced s).Indexed := by
  induction es generalizing s with
  | nil => exact h
  | cons e es ih => exact ih (h.replaced e)

theorem Indexed.foldl_attached (h : s.Indexed) (es : List Entity) :
    (es.foldl VolatileStore.attached s).Indexed := by
  induction es generalizing s with
  | nil => exact h
  | cons e es ih => exact ih (h.attached e)

theorem Indexed.restored
    (h : s.Indexed) (es : List Entity) :
    (s.restored es).Indexed :=
  (h.foldl_replaced es).foldl_attached es

theorem Indexed.place
    (h : s.Indexed) (he : s.entities[id]? = some e) {e' : Entity}
    (hid : e'.id = e.id) (hcategories : e'.categories = e.categories) :
    (s.place e').Indexed :=
  h.of_categories_eq (h.keyed.place e') rfl
    (map_entities_place Entity.categories h.keyed he hid hcategories)

theorem mem_categories_gaining :
    c ∈ (e.gaining mixin).categories ↔ c = mixin ∨ c ∈ e.categories := by
  change c ∈ e.kind :: (e.mixins.insert mixin).toList ↔ _
  simp only [List.mem_cons, Std.ExtTreeSet.mem_toList,
    Std.ExtTreeSet.mem_insert, Std.compare_eq_iff_eq, Entity.mem_categories]
  rw [eq_comm (a := mixin)]
  exact or_left_comm

theorem Indexed.tagged
    (h : s.Indexed) (he : s.entities[id]? = some e) (mixin : Category) :
    (s.tagged e mixin).Indexed where
  keyed := h.keyed.tagged e mixin
  pruned := (h.pruned.enter [mixin]).of_index_eq index_place
  member c x := by
    obtain rfl : e.id = id := h.keyed id e he
    have hbucket :
        (s.tagged e mixin).bucket c = (s.enter e.id [mixin]).bucket c := rfl
    rw [hbucket, mem_bucket_enter, h.member c x]
    unfold Carries
    rw [entities_tagged]
    by_cases hx : x = e.id
    · subst hx
      simp [he, mem_categories_gaining, or_comm]
    · simp [hx]

theorem mem_categories_losing :
    c ∈ (e.losing mixin).categories ↔
      c ∈ e.categories ∧ (c ≠ mixin ∨ c = e.kind) := by
  change c ∈ e.kind :: (e.mixins.erase mixin).toList ↔ _
  simp only [List.mem_cons, Std.ExtTreeSet.mem_toList, Std.ExtTreeSet.mem_erase,
    Std.compare_eq_iff_eq, Entity.mem_categories, ne_eq]
  by_cases hc : c = e.kind
  · simp [hc]
  · simp [hc, and_comm, eq_comm]

theorem carries_untagged (he : s.entities[e.id]? = some e) :
    (s.untagged e mixin).Carries x c ↔
      s.Carries x c ∧ (x = e.id → c ≠ mixin ∨ c = e.kind) := by
  unfold Carries
  rw [entities_untagged]
  by_cases hx : x = e.id
  · subst hx
    simp [he, mem_categories_losing]
  · simp [hx]

/-- The bucket of a mixin that is also the kind of the entity stays as it is. -/
theorem mem_bucket_untagged :
    x ∈ (s.untagged e mixin).bucket c ↔
      x ∈ s.bucket c ∧ (x = e.id → c ≠ mixin ∨ c = e.kind) := by
  unfold VolatileStore.untagged
  by_cases hkind : e.kind = mixin
  · have hbucket : (s.place (e.losing mixin)).bucket c = s.bucket c := rfl
    rw [if_pos hkind, hbucket, hkind]
    simp [ne_or_eq]
  · have hbucket : ((s.leave e.id [mixin]).place (e.losing mixin)).bucket c =
        (s.leave e.id [mixin]).bucket c := rfl
    rw [if_neg hkind, hbucket, mem_bucket_leave]
    refine and_congr_right fun _ => ?_
    by_cases hc : c = mixin
    · simp [hc, Ne.symm hkind]
    · simp [hc]

theorem Indexed.untagged
    (h : s.Indexed) (he : s.entities[id]? = some e) (mixin : Category) :
    (s.untagged e mixin).Indexed where
  keyed := h.keyed.untagged e mixin
  pruned := by
    unfold VolatileStore.untagged
    split
    · exact h.pruned.of_index_eq index_place
    · exact (h.pruned.leave [mixin]).of_index_eq index_place
  member c x := by
    obtain rfl : e.id = id := h.keyed id e he
    rw [mem_bucket_untagged, carries_untagged he, h.member c x]

theorem Indexed.erased (h : s.Indexed) (he : s.entities[e.id]? = some e) :
    (s.erased e).Indexed where
  keyed := h.keyed.erased e
  pruned := by
    have hleft : (s.leave e.id e.categories).Pruned :=
      h.pruned.leave e.categories
    exact hleft.of_index_eq index_release
  member c x := by
    have hbucket :
        (s.erased e).bucket c = (s.leave e.id e.categories).bucket c := by
      rw [bucket, VolatileStore.erased, index_discard, index_release, bucket]
    rw [hbucket, mem_bucket_leave, h.member c x, carries_iff, carries_iff,
      entities_erased]
    by_cases hx : x = e.id
    · subst hx
      simp [he]
    · by_cases hsource : e.source? = some x
      · simp only [hx, hsource, false_and, not_false_eq_true, and_true, if_true,
          if_false, Option.map_map]
        rfl
      · simp [hx, hsource]

theorem Indexed.retagged
    (h : s.Indexed) (hsteps : Relation.ReflTransGen Retag s t) :
    t.Indexed := by
  induction hsteps with
  | refl => exact h
  | tail _ hstep ih =>
    cases hstep with
    | tagged mixin he _ _ => exact ih.tagged he mixin
    | untagged mixin he _ => exact ih.untagged he mixin

theorem Indexed.move (h : s.Indexed) (hmove : Move s t) : t.Indexed := by
  cases hmove with
  | kept => exact h
  | saved d endpoints _ => exact (h.replaced _).attached _
  | updated accepted he => exact h.place he rfl rfl
  | retagged hsteps => exact h.retagged hsteps
  | deleted hg _ hwalk =>
    subst hg
    exact hwalk.preserves (fun g => VolatileStore.Indexed g.store)
      (fun _ _ hg he => hg.erased he) (fun _ hg => hg.keyed) h

theorem Indexed.perform
    {g : Graph VolatileStore} (h : g.store.Indexed) (op : Operation) :
    (op.perform g).2.store.Indexed := by
  cases hop : op.isLocal with
  | true => exact h.move (Operation.perform_move h.keyed hop)
  | false =>
    cases op with
    | restore es =>
      rw [Operation.perform_restore h.keyed]
      exact h.restored es
    | _ => simp [Operation.isLocal] at hop

theorem Indexed.after
    {g : Graph VolatileStore} (h : g.store.Indexed) (ops : List Operation) :
    (g.after ops).store.Indexed := by
  induction ops generalizing g with
  | nil => exact h
  | cons op ops ih => exact ih (h.perform op)

end VolatileStore

/-! ## On faithful stores -/

namespace Graph

variable {σ : Type} [EntityStore σ] [FaithfulStore σ] {g : Graph σ}
  {v : Graph VolatileStore} {op : Operation} {ops : List Operation}
  {x : EntityId} {e : Entity}

/-- A graph with an empty store on which nothing has been performed, whatever
its handlers. -/
structure Fresh (g : Graph σ) : Prop where
  store : FaithfulStore.Holds g.store {}
  journal : g.journal = []

/-- The graph can be read, and goes along with one over a volatile store with an
exact index. -/
structure Mirrors (g : Graph σ) (v : Graph VolatileStore) : Prop where
  related : Related g v
  indexed : v.store.Indexed
  readable : Readable g.store

/-- The fresh graph over a volatile store with the same handlers. -/
def emptied (g : Graph σ) : Graph VolatileStore where
  store := {}
  registry := g.registry
  validates := g.validates

theorem Fresh.mirrors
    (hg : g.Fresh) (hreadable : Readable g.store) :
    Mirrors g g.emptied :=
  ⟨⟨hg.store, rfl, rfl, hg.journal ▸ .nil⟩, VolatileStore.indexed_empty,
    hreadable⟩

theorem Mirrors.agrees (h : Mirrors g v) : Agrees g.store v.store :=
  h.readable.agrees h.related.store

theorem Mirrors.perform (h : Mirrors g v) (hop : g.Unfailing [op]) :
    (op.perform g).1 = (op.perform v).1 ∧
      Mirrors (op.perform g).2 (op.perform v).2 := by
  obtain ⟨hanswer, hrelated⟩ := h.related.perform op hop.2.1
  exact ⟨hanswer, hrelated, h.indexed.perform op, hop.2.2⟩

theorem Mirrors.after (h : Mirrors g v) (hops : g.Unfailing ops) :
    Mirrors (g.after ops) (v.after ops) :=
  ⟨h.related.after hops, h.indexed.after ops, hops.readable⟩

theorem Mirrors.id_eq (h : Mirrors g v) (he : g.Stores x e) : e.id = x :=
  h.indexed.keyed x e ((stores_iff h.agrees).mp he)

end Graph

end LinkGraph
