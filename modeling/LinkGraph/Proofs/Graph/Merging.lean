import LinkGraph.Proofs.Graph.Listing
import LinkGraph.Proofs.Graph.Matching
import LinkGraph.Proofs.Graph.Restoring

/-!
# Merging one graph into another

The entities of a graph are restored, in any order, into another graph that has
entities of its own.  The order decides in which step a back-reference leaves,
is handed on or is attached, but not what is there in the end: the entities of
the first graph, those of the second that the first does not have, and the links
on their sources.
-/

namespace LinkGraph

namespace VolatileStore

variable {s t : VolatileStore} {es es' : List Entity} {e : Entity}
  {l x : EntityId}

/-! ## The entities of a store, in any order -/

theorem nodup_of_perm_values (ht : t.Keyed) (hes : es.Perm t.entities.values) :
    (es.map Entity.id).Nodup := by
  have hsorted : (t.entities.values.map Entity.id).Nodup :=
    (sorted_values ht).imp ne_of_lt
  exact ((hes.map Entity.id).nodup_iff).mpr hsorted

theorem mem_of_perm_values (ht : t.Keyed) (hes : es.Perm t.entities.values) :
    e ∈ es ↔ t.entities[e.id]? = some e := by
  rw [hes.mem_iff, ht.mem_values]

theorem latest_of_perm_values
    (ht : t.Keyed) (hes : es.Perm t.entities.values) (x : EntityId) :
    latest es x = t.entities[x]? := by
  cases hx : t.entities[x]? with
  | some e =>
    obtain rfl : e.id = x := ht x e hx
    exact latest_of_nodup (nodup_of_perm_values ht hes)
      ((mem_of_perm_values ht hes).mpr hx)
  | none =>
    rw [latest_eq_none]
    rintro e he rfl
    have hstored := (mem_of_perm_values ht hes).mp he
    simp [hx] at hstored

theorem exists_id_iff_of_perm_values
    (ht : t.Keyed) (hes : es.Perm t.entities.values) :
    (∃ e ∈ es, e.id = x) ↔ x ∈ t.entities := by
  have hnone : latest es x = none ↔ ∀ e ∈ es, e.id ≠ x := latest_eq_none
  rw [latest_of_perm_values ht hes] at hnone
  rw [Std.ExtTreeMap.mem_iff_isSome_getElem?, ← not_iff_not,
    Option.not_isSome_iff_eq_none, hnone]
  simp

theorem sourceOf_restored_of_perm_values (hs : s.Keyed) (ht : t.Keyed)
    (hes : es.Perm t.entities.values) (l : EntityId) :
    (s.restored es).sourceOf l =
      if l ∈ t.entities then t.sourceOf l else s.sourceOf l := by
  rw [sourceOf_restored hs, latest_of_perm_values ht hes]
  cases hl : t.entities[l]? with
  | none =>
    have habsent : l ∉ t.entities := by
      simp [Std.ExtTreeMap.mem_iff_isSome_getElem?, hl]
    rw [if_neg habsent]
  | some e =>
    have hstored : l ∈ t.entities := mem_of_getElem? hl
    have hsource : t.sourceOf l = e.source? := by
      rw [sourceOf, hl, Option.bind_some]
    rw [if_pos hstored, hsource]

/-! ## What the merged store knows about its links -/

/-- Whichever way a back-reference took, it is there in the end exactly if its
link is. -/
theorem Anchored.merged
    (h : s.Anchored) (ht : t.Anchored) (hes : es.Perm t.entities.values) :
    (s.restored es).Anchored := by
  have hsource := sourceOf_restored_of_perm_values h.keyed ht.keyed hes
  have hlisted {x : EntityId} :=
    exists_id_iff_of_perm_values (x := x) ht.keyed hes
  constructor
  · exact (h.keyed.foldl_replaced es).foldl_attached es
  · intro l x hl
    rw [hsource] at hl
    split at hl
    · -- The link is restored, and so is its source.
      obtain ⟨e, he, hex⟩ := Option.bind_eq_some_iff.mp hl
      obtain rfl : e.id = l := ht.keyed l e he
      have hx : x ∈ (s.restored es).entities :=
        (mem_restored h.keyed).mpr
          (Or.inl (hlisted.mpr (ht.complete hl).stored))
      exact hangs_restored_of_source
        ((mem_of_perm_values ht.keyed hes).mpr he) hex hx
    · next habsent =>
      refine hangs_restored_of_absent h.keyed (h.complete hl) fun e he hid => ?_
      exact habsent (hlisted.mp ⟨e, he, hid⟩)
  · intro l x hl
    by_cases hne : l = x
    · exact Or.inl hne
    right
    rw [hsource]
    rcases hangs_restored_cases h.keyed hne hl with
      ⟨e, he, rfl, hex⟩ | ⟨e, he, rfl, hle⟩ | ⟨hhangs, hkept⟩
    · have hstored := (mem_of_perm_values ht.keyed hes).mp he
      rw [if_pos (hlisted.mp ⟨e, he, rfl⟩), sourceOf, hstored]
      exact hex
    · have hstored := (mem_of_perm_values ht.keyed hes).mp he
      have hlx : t.sourceOf l = some e.id :=
        (ht.sound ⟨e, hstored, hle⟩).resolve_left hne
      have hl' : l ∈ t.entities := mem_of_sourceOf hlx
      rw [if_pos hl', hlx]
    · have hlx : s.sourceOf l = some x := (h.sound hhangs).resolve_left hne
      have habsent : l ∉ t.entities := fun hl' => hkept ⟨hlisted.mpr hl', hlx⟩
      rw [if_neg habsent, hlx]

theorem Anchored.hangs_iff
    (h : s.Anchored) (hne : l ≠ x) :
    s.Hangs l x ↔ s.sourceOf l = some x :=
  ⟨fun hhangs => (h.sound hhangs).resolve_left hne, h.complete⟩

/-- In an anchored store a link from itself is among its own back-references. -/
theorem Anchored.hangs_self_merged (h : s.Anchored) (ht : t.Anchored)
    (hes : es.Perm t.entities.values) :
    (s.restored es).Hangs x x ↔ t.Hangs x x ∨ s.Hangs x x := by
  rw [hangs_self_restored h.keyed, or_comm]
  refine or_congr_left ⟨?_, ?_⟩
  · rintro ⟨e, he, rfl, hown | hsource⟩
    · exact ⟨e, (mem_of_perm_values ht.keyed hes).mp he, hown⟩
    · apply ht.complete
      rw [sourceOf, (mem_of_perm_values ht.keyed hes).mp he]
      exact hsource
  · rintro ⟨e, he, hown⟩
    obtain rfl : e.id = x := ht.keyed x e he
    exact ⟨e, (mem_of_perm_values ht.keyed hes).mpr he, rfl, Or.inl hown⟩

/-- The order in which the entities are restored makes no difference. -/
theorem restored_eq_of_perm (h : s.Anchored) (hs : s.Indexed) (ht : t.Anchored)
    (hes : es.Perm t.entities.values) (hes' : es'.Perm t.entities.values) :
    s.restored es = s.restored es' := by
  refine (hs.restored es).eq_of_entities_eq (hs.restored es')
    (entities_eq_of_views ?_ ?_)
  · intro x
    rw [bare_restored h.keyed, bare_restored h.keyed,
      latest_of_perm_values ht.keyed hes, latest_of_perm_values ht.keyed hes']
  · intro l x
    by_cases hne : l = x
    · subst hne
      rw [h.hangs_self_merged ht hes, h.hangs_self_merged ht hes']
    · rw [(h.merged ht hes).hangs_iff hne, (h.merged ht hes').hangs_iff hne,
        sourceOf_restored_of_perm_values h.keyed ht.keyed hes,
        sourceOf_restored_of_perm_values h.keyed ht.keyed hes']

end VolatileStore

namespace Graph

open FaithfulStore (Holds)

variable {σ τ : Type} [EntityStore σ] [EntityStore τ]

/-- From `g₁` and `g₂` to `g`: the entities of `g₁` as they are there, the other
entities of `g₂` as they are there, and nothing else.  Their back-references are
those of the links that are stored in the end, and an id is among its own as
soon as it was so in one of the two graphs. -/
structure Merges (g₁ : Graph σ) (g₂ g : Graph τ) : Prop where
  incoming {x : EntityId} {e : Entity} :
    g₁.Stores x e → ∃ p, g.Stores x p ∧ p.bare = e.bare
  remaining {x : EntityId} {e : Entity} :
    (∀ p, ¬g₁.Stores x p) → g₂.Stores x e →
    ∃ p, g.Stores x p ∧ p.bare = e.bare
  stored {x : EntityId} {p : Entity} :
    g.Stores x p → ∃ e, g₁.Stores x e ∨ g₂.Stores x e
  mem_linkedFrom {x l : EntityId} {p : Entity} : g.Stores x p → l ≠ x →
    (l ∈ p.linkedFrom ↔ g.StartsAt l x)
  mem_own {x : EntityId} {p : Entity} : g.Stores x p →
    (x ∈ p.linkedFrom ↔ ∃ e, (g₁.Stores x e ∨ g₂.Stores x e) ∧ x ∈ e.linkedFrom)
  /-- A link of `g₂` that `g₁` has as something else no longer hangs on its old
  source. -/
  released {x l : EntityId} {e p : Entity} : g₂.StartsAt l x → g₁.Stores l e →
    e.source? ≠ some x → g.Stores x p → l ≠ x → l ∉ p.linkedFrom
  /-- A link of `g₂` that `g₁` does not have stays on its source, also if `g₁`
  has that. -/
  kept {x l : EntityId} : g₂.StartsAt l x → (∀ e, ¬g₁.Stores l e) →
    ∃ p, g.Stores x p ∧ l ∈ p.linkedFrom
  source_stored {x l : EntityId} : g.StartsAt l x → ∃ p, g.Stores x p
  index : ExactIndex g

/-- The graph results from local operations on an empty graph whose store does
not fail. -/
inductive Reached [FaithfulStore σ] : Graph σ → Prop
  | after {s : σ} {registry : HookRegistry} {validates : Bool}
    {ops : List Operation} :
      Holds s {} → (∀ op ∈ ops, op.isLocal) →
      Unfailing { store := s, registry, validates } ops →
      Reached (Graph.after { store := s, registry, validates } ops)

theorem Reached.content [FaithfulStore σ] {g : Graph σ} (h : Reached g) :
    ∃ v, Related g v ∧ Agrees g.store v.store ∧ v.store.Anchored ∧
      v.store.Indexed := by
  obtain ⟨hs, hlocal, hops⟩ := h
  exact ⟨_, after_related hs hops, after_agrees hs hops,
    anchored_after VolatileStore.anchored_empty hlocal,
    VolatileStore.Indexed.after VolatileStore.indexed_empty _⟩

/-- A restoring on which no call on the store fails gives the store that it
gives on the volatile one. -/
theorem Related.restore
    [FaithfulStore σ] {g : Graph σ} {v : Graph VolatileStore} (h : Related g v)
    {es : List Entity} (hes : g.Unfailing [.restore es]) :
    (restore es g).1 = .ok es.length ∧
      Agrees (Graph.restore es g).2.store (v.store.restored es) := by
  have hperform : (Operation.restore es).perform g =
      ((Graph.restore es g).1.map fun _ => (), (Graph.restore es g).2) :=
    forget_run _ g
  have hsimulates := restore_simulates es g v h
  rw [restore_run h.keyed] at hsimulates
  obtain ⟨-, hrefusal, hreadable⟩ := hes
  rw [hperform] at hrefusal hreadable
  rcases hsimulates with ⟨hr, hrel⟩ | ⟨e, hr, he⟩
  · exact ⟨hr, hreadable.agrees hrel.store⟩
  · have hrefused := hrefusal e (by rw [hr]; rfl)
    simp [he] at hrefused

theorem merges_of_agrees
    {g₁ : Graph σ} {g₂ g : Graph τ} {t s : VolatileStore} {es : List Entity}
    (h₁ : Agrees g₁.store t) (h₂ : Agrees g₂.store s)
    (h : Agrees g.store (s.restored es)) (ht : t.Anchored) (hs : s.Anchored)
    (hindexed : s.Indexed) (hes : es.Perm t.entities.values) :
    Merges g₁ g₂ g := by
  have hmerged := hs.merged ht hes
  have hbare (x : EntityId) : (s.restored es).entities[x]?.map Entity.bare =
      (t.entities[x]?.map Entity.bare).or (s.entities[x]?.map Entity.bare) := by
    rw [VolatileStore.bare_restored hs.keyed,
      VolatileStore.latest_of_perm_values ht.keyed hes]
  have habsent {x : EntityId} (hx : ∀ e, ¬g₁.Stores x e) :
      t.entities[x]? = none := by
    rw [Option.eq_none_iff_forall_ne_some]
    exact fun e he => hx e ((stores_iff h₁).mpr he)
  have hhangs {x l : EntityId} {p : Entity} (hp : g.Stores x p) :
      l ∈ p.linkedFrom ↔ (s.restored es).Hangs l x := by
    have hstored := (stores_iff h).mp hp
    simp [VolatileStore.Hangs, hstored]
  have hlinks {x l : EntityId} {p : Entity} (hp : g.Stores x p) (hne : l ≠ x) :
      l ∈ p.linkedFrom ↔ g.StartsAt l x := by
    rw [hhangs hp, hmerged.hangs_iff hne, startsAt_iff h]
  have hsource (l : EntityId) :=
    VolatileStore.sourceOf_restored_of_perm_values hs.keyed ht.keyed hes l
  constructor
  · intro x e he
    have hx := hbare x
    rw [(stores_iff h₁).mp he, Option.map_some, Option.some_or] at hx
    obtain ⟨p, hp, hpe⟩ := Option.map_eq_some_iff.mp hx
    exact ⟨p, (stores_iff h).mpr hp, hpe⟩
  · intro x e hnone he
    have hx := hbare x
    rw [habsent hnone, (stores_iff h₂).mp he, Option.map_none, Option.none_or,
      Option.map_some] at hx
    obtain ⟨p, hp, hpe⟩ := Option.map_eq_some_iff.mp hx
    exact ⟨p, (stores_iff h).mpr hp, hpe⟩
  · intro x p hp
    have hx := hbare x
    rw [(stores_iff h).mp hp, Option.map_some] at hx
    rcases Option.or_eq_some_iff.mp hx.symm with hx | ⟨-, hx⟩
    · obtain ⟨e, he, -⟩ := Option.map_eq_some_iff.mp hx
      exact ⟨e, Or.inl ((stores_iff h₁).mpr he)⟩
    · obtain ⟨e, he, -⟩ := Option.map_eq_some_iff.mp hx
      exact ⟨e, Or.inr ((stores_iff h₂).mpr he)⟩
  · intro x l p hp hne
    exact hlinks hp hne
  · intro x p hp
    rw [hhangs hp, hs.hangs_self_merged ht hes]
    simp only [VolatileStore.Hangs, stores_iff h₁, stores_iff h₂, or_and_right,
      exists_or]
  · intro x l e p hstart he hother hp hne
    rw [hlinks hp hne, startsAt_iff h, hsource]
    have hstored := (stores_iff h₁).mp he
    have hl : l ∈ t.entities := VolatileStore.mem_of_getElem? hstored
    rw [if_pos hl, VolatileStore.sourceOf, hstored]
    exact hother
  · intro x l hstart hnone
    have hl : l ∉ t.entities := by
      simp [Std.ExtTreeMap.mem_iff_isSome_getElem?, habsent hnone]
    have hkept : (s.restored es).Hangs l x := by
      apply hmerged.complete
      rw [hsource, if_neg hl]
      exact (startsAt_iff h₂).mp hstart
    obtain ⟨p, hp, hlp⟩ := hkept
    exact ⟨p, (stores_iff h).mpr hp, hlp⟩
  · intro x l hstart
    obtain ⟨p, hp, -⟩ := hmerged.complete ((startsAt_iff h).mp hstart)
    exact ⟨p, (stores_iff h).mpr hp⟩
  · exact exactIndex_of_indexed h (hindexed.restored es)

/-- Restoring the entities of one graph into another, in any order, merges the
two, and the order does not show. -/
theorem restore_merges
    [FaithfulStore σ] [FaithfulStore τ] {g₁ : Graph σ} {g₂ : Graph τ}
    (h₁ : Reached g₁) (h₂ : Reached g₂) :
    ∃ all, g₁.entities = .ok all ∧
      ∀ es, es.Perm all → g₂.Unfailing [.restore es] →
        (restore es g₂).1 = .ok all.length ∧ Merges g₁ g₂ (restore es g₂).2 ∧
        ∀ es', es'.Perm all → g₂.Unfailing [.restore es'] →
          Matches (restore es' g₂).2 (restore es g₂).2 := by
  obtain ⟨v₁, -, hreads₁, hanchored₁, -⟩ := h₁.content
  obtain ⟨v₂, hrel, hreads₂, hanchored₂, hindexed⟩ := h₂.content
  refine ⟨v₁.store.entities.values, hreads₁.entities, fun es hes hrestore => ?_⟩
  obtain ⟨hr, hreads⟩ := hrel.restore hrestore
  refine ⟨by rw [hr, hes.length_eq], ?_, fun es' hes' hrestore' => ?_⟩
  · exact merges_of_agrees hreads₁ hreads₂ hreads hanchored₁ hanchored₂
      hindexed hes
  · have hreads' := (hrel.restore hrestore').2
    rw [VolatileStore.restored_eq_of_perm hanchored₂ hindexed hanchored₁ hes'
      hes] at hreads'
    exact matches_of_agrees hreads' hreads

/-- A link from `a`. -/
def linkFromA : List Operation :=
  [.saveResource { id := "a", kind := "k" },
    .saveLink { id := "l", kind := "k" } ⟨"a", "a"⟩]

/-- A link from `c` under the same id, and another link from `a`. -/
def linkFromC : List Operation :=
  [.saveResource { id := "a", kind := "k" },
    .saveResource { id := "c", kind := "k" },
    .saveLink { id := "l", kind := "k" } ⟨"c", "a"⟩,
    .saveLink { id := "m", kind := "k" } ⟨"a", "c"⟩]

theorem restore_merges_linkFromA :
    ∃ all, Graph.entities (.after { store := ({} : VolatileStore) } linkFromA) =
        .ok all ∧
      Merges (Graph.after { store := ({} : VolatileStore) } linkFromA)
        (Graph.after { store := ({} : VolatileStore) } linkFromC)
        (restore all.reverse (.after { store := {} } linkFromC)).2 ∧
      Matches
        (restore all (.after { store := ({} : VolatileStore) } linkFromC)).2
        (restore all.reverse
          (.after { store := ({} : VolatileStore) } linkFromC)).2 := by
  have hstart : Holds ({} : VolatileStore) {} :=
    ⟨rfl, VolatileStore.keyed_empty⟩
  have hreached (ops : List Operation) (hlocal : ∀ op ∈ ops, op.isLocal) :
      Reached (Graph.after { store := ({} : VolatileStore) } ops) :=
    .after hstart hlocal (unfailing_volatile VolatileStore.keyed_empty ops)
  have hrestore (es : List Entity) : Unfailing
      (.after { store := ({} : VolatileStore) } linkFromC) [.restore es] :=
    (unfailing_append.mp (unfailing_volatile VolatileStore.keyed_empty _)).2
  obtain ⟨all, hall, hmerges⟩ :=
    restore_merges (hreached linkFromA (by decide))
      (hreached linkFromC (by decide))
  obtain ⟨-, hmerged, hmatches⟩ :=
    hmerges all.reverse all.reverse_perm (hrestore _)
  exact ⟨all, hall, hmerged, hmatches all (.refl all) (hrestore _)⟩

end Graph

end LinkGraph
