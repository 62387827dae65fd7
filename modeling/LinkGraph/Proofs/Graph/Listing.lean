import LinkGraph.Proofs.Graph.Index

/-!
# Listing and counting by category

With an exact index, what a graph lists for a category and how many categories
it counts are what a scan over all of its entities gives.
-/

namespace LinkGraph

/-- The entities of a category, found by a scan. -/
def scan (all : List Entity) (c : Category) : List Entity :=
  all.filter fun e => e.kind = c ∨ c ∈ e.mixins

namespace VolatileStore

variable {s : VolatileStore} {c : Category} {x : EntityId} {e : Entity}

theorem map_id_values
    (hs : s.Keyed) :
    s.entities.values.map Entity.id = s.entities.keys := by
  rw [values_eq, List.map_map, ← Std.ExtTreeMap.map_fst_toList_eq_keys]
  apply List.map_congr_left
  rintro ⟨id, e⟩ hrow
  exact hs id e (Std.ExtTreeMap.mem_toList_iff_getElem?_eq_some.mp hrow)

theorem Keyed.mem_values
    (hs : s.Keyed) :
    e ∈ s.entities.values ↔ s.entities[e.id]? = some e := by
  rw [LinkGraph.mem_values]
  constructor
  · rintro ⟨id, he⟩
    obtain rfl : e.id = id := hs id e he
    exact he
  · exact fun he => ⟨e.id, he⟩

theorem sorted_values (hs : s.Keyed) :
    (s.entities.values.map Entity.id).Pairwise (· < ·) := by
  rw [map_id_values hs]
  exact sorted_keys s.entities

theorem mem_scan
    {all : List Entity} :
    e ∈ scan all c ↔ e ∈ all ∧ c ∈ e.categories := by
  simp [scan, Entity.mem_categories, eq_comm (a := c)]

theorem Indexed.bucket_toList (h : s.Indexed) :
    (s.bucket c).toList = (scan s.entities.values c).map Entity.id := by
  have hsorted : ((scan s.entities.values c).map Entity.id).Pairwise (· < ·) :=
    (sorted_values h.keyed).sublist (List.filter_sublist.map Entity.id)
  refine (sorted_names (s.bucket c)).eq_of_mem_iff hsorted fun x => ?_
  rw [Std.ExtTreeSet.mem_toList, h.member c x, List.mem_map]
  constructor
  · rintro ⟨e, he, hc⟩
    obtain rfl : e.id = x := h.keyed x e he
    exact ⟨e, mem_scan.mpr ⟨h.keyed.mem_values.mpr he, hc⟩, rfl⟩
  · rintro ⟨e, he, rfl⟩
    obtain ⟨he, hc⟩ := mem_scan.mp he
    exact ⟨e, h.keyed.mem_values.mp he, hc⟩

theorem Pruned.mem_index
    (h : s.Pruned) :
    c ∈ s.index ↔ (s.bucket c).toList ≠ [] := by
  rw [Std.ExtTreeMap.mem_iff_isSome_getElem?, bucket_eq]
  cases hb : s.index[c]? with
  | none => simp
  | some b =>
    have hne : b ≠ ∅ := fun hb' => h c (hb'.symm ▸ hb)
    simp [hne]

theorem Indexed.mem_index (h : s.Indexed) :
    c ∈ s.index ↔ c ∈ s.entities.values.flatMap Entity.categories := by
  rw [h.pruned.mem_index, h.bucket_toList, List.mem_flatMap, ne_eq,
    List.map_eq_nil_iff, List.eq_nil_iff_forall_not_mem, not_forall]
  simp only [not_not, mem_scan]

theorem Indexed.length_categories (h : s.Indexed) :
    s.index.keys.length =
      (s.entities.values.flatMap Entity.categories).toFinset.card := by
  have hnodup : s.index.keys.Nodup := (sorted_keys s.index).imp ne_of_lt
  rw [← List.toFinset_card_of_nodup hnodup]
  congr 1
  ext c
  rw [List.mem_toFinset, List.mem_toFinset, Std.ExtTreeMap.mem_keys,
    h.mem_index]

end VolatileStore

namespace Graph

variable {σ : Type} [EntityStore σ]

/-- The index of a graph, as its store tells it, agrees with the entities
stored: a bucket has the ids of the entities of its category, there is a bucket
just for the categories with members, what is listed for such a category is what
a scan over all entities gives, in the order of their ids, and the categories
counted are those in use. -/
structure ExactIndex (g : Graph σ) : Prop where
  member (c : Category) (x : EntityId) :
    ∃ ids e?, EntityStore.members g.store c = .ok ids ∧
    EntityStore.get g.store x = .ok e? ∧
    (x ∈ ids ↔ ∃ e, e? = some e ∧ (e.kind = c ∨ c ∈ e.mixins))
  inhabited : ∃ names, EntityStore.categories g.store = .ok names ∧
    ∀ c, ∃ ids, EntityStore.members g.store c = .ok ids ∧
      (c ∈ names ↔ ids ≠ []) ∧
      EntityStore.hasCategory g.store c = .ok (c ∈ names)
  listed : ∃ all, g.entities = .ok all ∧ (all.map Entity.id).Pairwise (· < ·) ∧
    ∀ c, EntityStore.hasCategory g.store c = .ok true → g.listItems c =
      .ok ((scan all c).map Entity.item)
  counted : ∃ all stats, g.entities = .ok all ∧ g.stats = .ok stats ∧
    stats.categories =
      (all.flatMap fun e => e.kind :: e.mixins.toList).toFinset.card

theorem listItems_eq_scan
    {g : Graph σ} {m : VolatileStore} (hreads : Agrees g.store m)
    (hm : m.Indexed) {c : Category} (hc : c ∈ m.index) :
    g.listItems c = .ok ((scan m.entities.values c).map Entity.item) := by
  have hget : g.get? = fun id => .ok m.entities[id]? := funext hreads.get
  have hmapM (ids : List EntityId) :
      ids.mapM g.get? = .ok (ids.map fun id => m.entities[id]?) := by
    rw [hget]
    exact List.mapM_pure
  have hcontains : m.index.contains c = true := hc
  rw [listItems, hreads.hasCategory, hcontains, hreads.members]
  change (do let members ← (m.bucket c).toList.mapM g.get?; return _ :
               Except _ _) = _
  rw [hmapM, hm.bucket_toList, List.map_map]
  change Except.ok (List.filterMap _ _) = _
  rw [List.filterMap_map, ← List.filterMap_eq_map]
  congr 1
  apply List.filterMap_congr
  intro e he
  have hstored := hm.keyed.mem_values.mp (VolatileStore.mem_scan.mp he).1
  simp [hstored]

theorem exactIndex_of_indexed
    {g : Graph σ} {m : VolatileStore} (hreads : Agrees g.store m)
    (hm : m.Indexed) :
    g.ExactIndex where
  member c x := by
    refine ⟨_, _, hreads.members c, hreads.get x, ?_⟩
    rw [Std.ExtTreeSet.mem_toList, hm.member c x]
    simp only [VolatileStore.Carries, Entity.mem_categories, eq_comm (a := c)]
  inhabited := by
    refine ⟨_, hreads.categories, fun c => ⟨_, hreads.members c, ?_, ?_⟩⟩
    · rw [Std.ExtTreeMap.mem_keys, hm.pruned.mem_index]
    · have hknown : m.index.contains c = decide (c ∈ m.index.keys) := by
        rw [Bool.eq_iff_iff]
        simp
      rw [hreads.hasCategory, hknown]
  listed := by
    refine ⟨_, hreads.entities, VolatileStore.sorted_values hm.keyed,
      fun c hc => ?_⟩
    have hknown : m.index.contains c = true := by
      rw [hreads.hasCategory] at hc
      exact Except.ok.inj hc
    exact listItems_eq_scan hreads hm hknown
  counted := by
    have hstats : ∃ stats,
        g.stats = .ok stats ∧ stats.categories = m.index.keys.length := by
      rw [stats, entities, hreads.entities, hreads.categories]
      exact ⟨_, rfl, rfl⟩
    obtain ⟨stats, hrun, hcount⟩ := hstats
    exact ⟨_, stats, hreads.entities, hrun, hcount.trans hm.length_categories⟩

/-- Operations on an empty graph whose store does not fail keep its index
exact. -/
theorem exactIndex_after
    [FaithfulStore σ] {s : σ} (hs : FaithfulStore.Holds s {})
    {registry : HookRegistry} {validates : Bool} {ops : List Operation}
    (hops : Unfailing { store := s, registry, validates } ops) :
    ExactIndex (Graph.after { store := s, registry, validates } ops) :=
  exactIndex_of_indexed (after_agrees hs hops)
    (VolatileStore.Indexed.after VolatileStore.indexed_empty ops)

theorem exactIndex_after_restoring :
    FaithfulStore.Holds ({} : VolatileStore) {} ∧
      Unfailing { store := ({} : VolatileStore) }
        [.saveResource { id := "vm", kind := "compute", mixins := ["os", "large"] },
          .saveMixin "public" ["vm"], .delete "os",
          .restore [{ id := "vm", kind := "compute",
                      mixins := .ofList ["compute"] }]] ∧
      ExactIndex (Graph.after { store := ({} : VolatileStore) }
        [.saveResource { id := "vm", kind := "compute", mixins := ["os", "large"] },
          .saveMixin "public" ["vm"], .delete "os",
          .restore [{ id := "vm", kind := "compute",
                      mixins := .ofList ["compute"] }]]) := by
  have hstart : FaithfulStore.Holds ({} : VolatileStore) {} :=
    ⟨rfl, VolatileStore.keyed_empty⟩
  have hops := unfailing_volatile
    (g := { store := {} }) VolatileStore.keyed_empty
    [.saveResource { id := "vm", kind := "compute", mixins := ["os", "large"] },
      .saveMixin "public" ["vm"], .delete "os", .restore
        [{ id := "vm", kind := "compute", mixins := .ofList ["compute"] }]]
  exact ⟨hstart, hops, exactIndex_after hstart hops⟩

end Graph

end LinkGraph
