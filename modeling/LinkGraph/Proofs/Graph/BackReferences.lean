import LinkGraph.Proofs.Graph.Transfer

/-!
# Back-references

An entity knows the links that start at it.  Local operations keep this
knowledge complete.  They also keep it true, but for one case: an id that has
been a link from itself stays among its own back-references when it is saved
again as something else, because the version that is replaced hands them on as
they were before it left its source.  Only deleting the id ends this.
-/

namespace LinkGraph

/-- What an entity has to do with back-references: its source and those it
has. -/
def Entity.anchors (e : Entity) : Option EntityId × NameSet :=
  (e.source?, e.linkedFrom)

namespace VolatileStore

variable {s t : VolatileStore} {e : Entity} {l x : EntityId} {V : NameSet}

/-- `l` is among the back-references of the entity stored under `x`. -/
def Hangs (s : VolatileStore) (l x : EntityId) : Prop :=
  ∃ e, s.entities[x]? = some e ∧ l ∈ e.linkedFrom

/-- Every stored link hangs on its source, and what hangs on another id is a
link that starts there. -/
structure Anchored (s : VolatileStore) : Prop where
  keyed : s.Keyed
  complete {l x : EntityId} : s.sourceOf l = some x → s.Hangs l x
  sound {l x : EntityId} : s.Hangs l x → l = x ∨ s.sourceOf l = some x

theorem anchored_empty : Anchored {} where
  keyed := keyed_empty
  complete h := by simp [sourceOf] at h
  sound h := by simp [Hangs] at h

theorem mem_of_getElem? (h : s.entities[x]? = some e) : x ∈ s.entities :=
  (Std.ExtTreeMap.getElem?_eq_some_iff.mp h).1

theorem mem_of_sourceOf (h : s.sourceOf l = some x) : l ∈ s.entities := by
  obtain ⟨e, he, -⟩ := Option.bind_eq_some_iff.mp h
  exact mem_of_getElem? he

theorem Hangs.stored (h : s.Hangs l x) : x ∈ s.entities := by
  obtain ⟨e, he, -⟩ := h
  exact mem_of_getElem? he

/-! ## Stores with the same anchors -/

theorem sourceOf_eq_of_anchors
    (h : ∀ x : EntityId, t.entities[x]?.map Entity.anchors =
      s.entities[x]?.map Entity.anchors) :
    t.sourceOf x = s.sourceOf x := by
  have hsource (s : VolatileStore) :
      s.sourceOf x = (s.entities[x]?.map Entity.anchors).bind Prod.fst := by
    rw [Option.bind_map]
    rfl
  rw [hsource s, hsource t, h]

theorem hangs_iff_of_anchors
    (h : ∀ x : EntityId, t.entities[x]?.map Entity.anchors =
      s.entities[x]?.map Entity.anchors) :
    t.Hangs l x ↔ s.Hangs l x := by
  have hhangs (s : VolatileStore) : s.Hangs l x ↔
      ∃ a, s.entities[x]?.map Entity.anchors = some a ∧ l ∈ a.2 := by
    simp [Hangs, Entity.anchors]
  rw [hhangs s, hhangs t, h]

theorem Anchored.of_anchors_eq
    (h : s.Anchored) (ht : t.Keyed)
    (hsame : ∀ x : EntityId, t.entities[x]?.map Entity.anchors =
      s.entities[x]?.map Entity.anchors) :
    t.Anchored where
  keyed := ht
  complete {l x} hl := by
    rw [sourceOf_eq_of_anchors hsame] at hl
    exact (hangs_iff_of_anchors hsame).mpr (h.complete hl)
  sound {l x} hl := by
    rw [sourceOf_eq_of_anchors hsame]
    exact h.sound ((hangs_iff_of_anchors hsame).mp hl)

theorem anchors_retag (hs : s.Keyed) (h : Retag s t) :
    t.entities[x]?.map Entity.anchors = s.entities[x]?.map Entity.anchors := by
  cases h with
  | @tagged id e mixin he _ _ =>
    obtain rfl : e.id = id := hs id e he
    rw [entities_tagged]
    by_cases hx : x = e.id
    · rw [if_pos hx, hx, he]
      rfl
    · rw [if_neg hx]
  | @untagged id e mixin he _ =>
    obtain rfl : e.id = id := hs id e he
    rw [entities_untagged]
    by_cases hx : x = e.id
    · rw [if_pos hx, hx, he]
      rfl
    · rw [if_neg hx]

theorem anchors_retagged (hs : s.Keyed) (h : Relation.ReflTransGen Retag s t) :
    t.Keyed ∧ ∀ x : EntityId,
      t.entities[x]?.map Entity.anchors =
        s.entities[x]?.map Entity.anchors := by
  induction h with
  | refl => exact ⟨hs, fun _ => rfl⟩
  | tail _ hstep ih =>
    exact ⟨hstep.keyed ih.1, fun x => (anchors_retag ih.1 hstep).trans (ih.2 x)⟩

/-! ## Saving -/

theorem sourceOf_replaced (hs : s.Keyed) :
    (s.replaced e).sourceOf l =
      if l = e.id then e.source? else s.sourceOf l := by
  unfold sourceOf
  rw [entities_replaced hs]
  by_cases hl : l = e.id
  · simp [hl]
  · by_cases hsource : s.sourceOf e.id = some l
    · simp only [hl, hsource, if_true, if_false, Option.bind_map]
      rfl
    · simp [hl, hsource]

theorem sourceOf_attached : (s.attached e).sourceOf l = s.sourceOf l := by
  unfold sourceOf
  rw [entities_attached]
  by_cases hsource : e.source? = some l
  · simp only [hsource, if_true, Option.bind_map]
    rfl
  · simp [hsource]

theorem hangs_replaced (hs : s.Keyed) :
    (s.replaced e).Hangs l x ↔ (x = e.id ∧ l ∈ e.linkedFrom) ∨
      (s.Hangs l x ∧ ¬(l = e.id ∧ x ≠ e.id ∧ s.sourceOf e.id = some x)) := by
  unfold Hangs
  rw [entities_replaced hs]
  by_cases hx : x = e.id
  · subst hx
    simp [mem_merged_linkedFrom]
  · by_cases hsource : s.sourceOf e.id = some x
    · cases hp : s.entities[x]? with
      | none => simp [hx, hsource]
      | some p => simp [hx, hsource, Entity.mem_unlinked]
    · simp [hx, hsource]

theorem hangs_attached :
    (s.attached e).Hangs l x ↔
      s.Hangs l x ∨ (l = e.id ∧ e.source? = some x ∧ x ∈ s.entities) := by
  unfold Hangs
  rw [entities_attached, Std.ExtTreeMap.mem_iff_isSome_getElem?]
  by_cases hsource : e.source? = some x
  · cases hp : s.entities[x]? with
    | none => simp [hsource]
    | some p => simp [hsource, Entity.mem_linked, or_comm]
  · simp [hsource]

theorem mem_replaced
    (hs : s.Keyed) :
    x ∈ (s.replaced e).entities ↔ x = e.id ∨ x ∈ s.entities := by
  rw [Std.ExtTreeMap.mem_iff_isSome_getElem?,
    Std.ExtTreeMap.mem_iff_isSome_getElem?, entities_replaced hs]
  by_cases hx : x = e.id
  · simp [hx]
  · by_cases hsource : s.sourceOf e.id = some x
    · simp [hx, hsource]
    · simp [hx, hsource]

/-- What hangs where after an entity without back-references of its own has been
saved.  The second part is where an id that was a link from itself is left
behind. -/
theorem hangs_saved (hs : s.Keyed) (hfresh : e.linkedFrom = ∅)
    (hsource : ∀ y, e.source? = some y → y ∈ s.entities) :
    ((s.replaced e).attached e).Hangs l x ↔
      (l = e.id ∧ e.source? = some x) ∨
        (s.Hangs l x ∧ ¬(l = e.id ∧ x ≠ e.id ∧ s.sourceOf e.id = some x)) := by
  have hstored : e.source? = some x → x ∈ (s.replaced e).entities :=
    fun h => (mem_replaced hs).mpr (Or.inr (hsource x h))
  rw [hangs_attached, hangs_replaced hs, hfresh]
  simp only [Std.ExtTreeSet.not_mem_empty, and_false, false_or]
  constructor
  · rintro (h | ⟨hl, hx, -⟩)
    · exact Or.inr h
    · exact Or.inl ⟨hl, hx⟩
  · rintro (⟨hl, hx⟩ | h)
    · exact Or.inr ⟨hl, hx, hstored hx⟩
    · exact Or.inl h

theorem Anchored.saved (h : s.Anchored) (hfresh : e.linkedFrom = ∅)
    (hsource : ∀ y, e.source? = some y → y ∈ s.entities) :
    ((s.replaced e).attached e).Anchored where
  keyed := (h.keyed.replaced e).attached e
  complete {l x} hl := by
    rw [sourceOf_attached, sourceOf_replaced h.keyed] at hl
    rw [hangs_saved h.keyed hfresh hsource]
    by_cases hid : l = e.id
    · rw [if_pos hid] at hl
      exact Or.inl ⟨hid, hl⟩
    · rw [if_neg hid] at hl
      exact Or.inr ⟨h.complete hl, fun hnot => hid hnot.1⟩
  sound {l x} hl := by
    rw [hangs_saved h.keyed hfresh hsource] at hl
    rw [sourceOf_attached, sourceOf_replaced h.keyed]
    rcases hl with ⟨hid, hx⟩ | ⟨hl, hnot⟩
    · rw [if_pos hid]
      exact Or.inr hx
    · rcases h.sound hl with hself | hlx
      · exact Or.inl hself
      · by_cases hid : l = e.id
        · left
          by_contra hne
          exact hnot ⟨hid, fun hx => hne (hid.trans hx.symm), hid ▸ hlx⟩
        · rw [if_neg hid]
          exact Or.inr hlx

/-! ## Deleting -/

theorem hangs_purged (h : Purged V s t) :
    t.Hangs l x ↔ x ∉ V ∧ s.Hangs l x ∧ ¬(l ∈ V ∧ s.sourceOf l = some x) := by
  unfold Hangs
  rw [h x]
  by_cases hx : x ∈ V
  · simp [hx]
  · simp only [hx, if_false, Option.map_eq_some_iff,
      not_false_eq_true, true_and]
    constructor
    · rintro ⟨_, ⟨p, hp, rfl⟩, hl⟩
      rw [mem_bereft] at hl
      exact ⟨⟨p, hp, hl.1⟩, hl.2⟩
    · rintro ⟨⟨p, hp, hl⟩, hnot⟩
      exact ⟨_, ⟨p, hp, rfl⟩, mem_bereft.mpr ⟨hl, hnot⟩⟩

theorem mem_of_purged
    (hpurged : Purged V s t) (hx : x ∈ t.entities) :
    x ∉ V ∧ x ∈ s.entities := by
  rw [Std.ExtTreeMap.mem_iff_isSome_getElem?, hpurged x] at hx
  rw [Std.ExtTreeMap.mem_iff_isSome_getElem?]
  split at hx
  · cases hx
  · next hxV => exact ⟨hxV, by simpa using hx⟩

theorem sound_purged
    (hsound : ∀ {l x}, s.Hangs l x → l = x ∨ s.sourceOf l = some x)
    (hpurged : Purged V s t) (hl : t.Hangs l x) :
    l = x ∨ t.sourceOf l = some x := by
  rw [hangs_purged hpurged] at hl
  rw [hpurged.sourceOf]
  rcases hsound hl.2.1 with hself | hlx
  · exact Or.inl hself
  · rw [if_neg fun hlV => hl.2.2 ⟨hlV, hlx⟩]
    exact Or.inr hlx

theorem Anchored.purged (h : s.Anchored) (ht : t.Keyed) (hpurged : Purged V s t)
    (hclosed : ∀ {l x}, x ∈ V → s.Hangs l x → l ∈ V) : t.Anchored where
  keyed := ht
  complete {l x} hl := by
    rw [hpurged.sourceOf] at hl
    rw [hangs_purged hpurged]
    split at hl
    · simp at hl
    · next hlV =>
      have hhangs := h.complete hl
      exact ⟨fun hx => hlV (hclosed hx hhangs), hhangs, fun hnot => hlV hnot.1⟩
  sound := sound_purged h.sound hpurged

theorem purged_of_walk
    {id : EntityId} {g g' : Graph VolatileStore}
    (hwalk : Graph.Walk [id] ∅ g V g') (hs : g.store.Keyed) :
    Purged V g.store g'.store :=
  (hwalk.purged hs).congr fun _ _ => by simp [Std.ExtTreeSet.mem_diff_iff]

theorem closed_of_walk {id : EntityId} {g g' : Graph VolatileStore}
    (hwalk : Graph.Walk [id] ∅ g V g') (hs : g.store.Keyed) (hx : x ∈ V)
    (hl : g.store.Hangs l x) : l ∈ V := by
  obtain ⟨e, he, hl⟩ := hl
  exact hwalk.closed hs hx (by simp) he hl

/-! ## Moves -/

theorem fresh_source_stored
    {d : Draft} {endpoints : Option Endpoints}
    (hends : ∀ ends, endpoints = some ends →
      ends.source ∈ s.entities ∧ ends.target ∈ s.entities)
    (y : EntityId) (hy : (d.entity endpoints).source? = some y) :
    y ∈ s.entities := by
  obtain ⟨ends, hsome, rfl⟩ := Option.map_eq_some_iff.mp hy
  exact (hends ends hsome).1

theorem Anchored.move (h : s.Anchored) (hmove : Move s t) : t.Anchored := by
  cases hmove with
  | kept => exact h
  | saved d endpoints hends => exact h.saved rfl (fresh_source_stored hends)
  | updated accepted he =>
    exact h.of_anchors_eq (h.keyed.place _)
      (map_entities_place Entity.anchors h.keyed he rfl rfl)
  | retagged hsteps =>
    obtain ⟨ht, hsame⟩ := anchors_retagged h.keyed hsteps
    exact h.of_anchors_eq ht hsame
  | deleted hg _ hwalk =>
    subst hg
    exact h.purged (hwalk.keyed h.keyed) (purged_of_walk hwalk h.keyed)
      (closed_of_walk hwalk h.keyed)

/-- An id that stays stored hangs on itself if it is a link from itself or hung
on itself before. -/
theorem Anchored.hangs_self_move
    (h : s.Anchored) (hmove : Move s t) (hx : x ∈ t.entities) :
    t.Hangs x x ↔ t.sourceOf x = some x ∨ s.Hangs x x := by
  have hself : t.sourceOf x = some x → t.Hangs x x := (h.move hmove).complete
  have hiff : (t.Hangs x x ↔ s.Hangs x x) →
      (t.Hangs x x ↔ t.sourceOf x = some x ∨ s.Hangs x x) := by
    intro hkept
    rw [hkept] at hself ⊢
    exact ⟨Or.inr, fun hor => hor.elim hself fun hhangs => hhangs⟩
  cases hmove with
  | kept => exact hiff Iff.rfl
  | saved d endpoints hends =>
    rw [hangs_saved h.keyed rfl (fresh_source_stored hends), sourceOf_attached,
      sourceOf_replaced h.keyed]
    by_cases hid : x = (d.entity endpoints).id
    · simp [hid]
    · simp only [hid, false_and, not_false_eq_true, and_true,
        false_or, if_false]
      exact ⟨Or.inr, fun hor => hor.elim h.complete fun hhangs => hhangs⟩
  | updated accepted he =>
    exact hiff (hangs_iff_of_anchors
      (map_entities_place Entity.anchors h.keyed he rfl rfl))
  | retagged hsteps =>
    exact hiff (hangs_iff_of_anchors (anchors_retagged h.keyed hsteps).2)
  | @deleted id e V g g' hg _ hwalk =>
    subst hg
    have hpurged := purged_of_walk hwalk h.keyed
    have hxV : x ∉ V := (mem_of_purged hpurged hx).1
    apply hiff
    rw [hangs_purged hpurged]
    simp [hxV]

end VolatileStore

namespace Graph

open VolatileStore (Anchored)

variable {g : Graph VolatileStore} {x : EntityId}

theorem anchored_after (hg : g.store.Anchored) {ops : List Operation}
    (hlocal : ∀ op ∈ ops, op.isLocal) : (g.after ops).store.Anchored := by
  induction ops generalizing g with
  | nil => exact hg
  | cons op ops ih =>
    have hop : op.isLocal := hlocal op List.mem_cons_self
    exact ih (hg.move (Operation.perform_move hg.keyed hop))
      fun op' h => hlocal op' (List.mem_cons_of_mem op h)

/-- A stored id hangs on itself if it has been a link from itself at some point
of the run after which it was never gone. -/
theorem hangs_self_after
    {ops : List Operation} (hlocal : ∀ op ∈ ops, op.isLocal)
    (hempty : g.store = {}) (hx : x ∈ (g.after ops).store.entities) :
    (g.after ops).store.Hangs x x ↔ ∃ before rest, ops = before ++ rest ∧
      (g.after before).store.sourceOf x = some x ∧
      ∀ part, part <+: rest →
        x ∈ (g.after (before ++ part)).store.entities := by
  have hg : g.store.Anchored := hempty ▸ VolatileStore.anchored_empty
  induction ops using List.reverseRecOn with
  | nil =>
    rw [after_nil, hempty] at hx
    simp at hx
  | append_singleton ops op ih =>
    have hlocal' : ∀ op ∈ ops, op.isLocal :=
      fun op' h => hlocal op' (by simp [h])
    have hanchored := anchored_after hg hlocal'
    have hmove := Operation.perform_move hanchored.keyed (hlocal op (by simp))
    have hstep : g.after (ops ++ [op]) = (op.perform (g.after ops)).2 := by
      rw [after_append, after_cons, after_nil]
    rw [hstep] at hx ⊢
    rw [hanchored.hangs_self_move hmove hx]
    constructor
    · rintro (hself | hhangs)
      · refine ⟨ops ++ [op], [], by simp, by rw [hstep]; exact hself, ?_⟩
        intro part hpart
        rw [List.prefix_nil.mp hpart, List.append_nil, hstep]
        exact hx
      · obtain ⟨before, rest, rfl, hself, hstays⟩ :=
          (ih hlocal' hhangs.stored).mp hhangs
        refine ⟨before, rest ++ [op], by simp, hself, ?_⟩
        intro part hpart
        rcases List.prefix_concat_iff.mp hpart with rfl | hpart
        · rw [← List.append_assoc, hstep]
          exact hx
        · exact hstays part hpart
    · rintro ⟨before, rest, hsplit, hself, hstays⟩
      rcases List.eq_nil_or_concat rest with rfl | ⟨rest, op', rfl⟩
      · left
        rw [List.append_nil] at hsplit
        rw [← hstep, hsplit]
        exact hself
      · right
        rw [List.concat_eq_append, ← List.append_assoc] at hsplit
        obtain ⟨rfl, -⟩ := List.append_inj' hsplit rfl
        have hstored := hstays rest (by simp)
        refine (ih hlocal' hstored).mpr ⟨before, rest, rfl, hself, ?_⟩
        intro part hpart
        exact hstays part (hpart.trans (by simp))

section Faithful

open FaithfulStore (Holds)

variable {σ : Type} [EntityStore σ] {s : σ} {registry : HookRegistry}
  {validates : Bool} {ops : List Operation} {e : Entity} {x : EntityId}

variable [FaithfulStore σ]

/-- The back-references of a stored entity after local operations on an empty
graph whose store does not fail.  Other ids are among them exactly if a link is
stored there that starts at the entity; its own id is among them exactly if it
has been a link from itself and was never gone since. -/
theorem mem_linkedFrom_after (hs : Holds s {}) (hlocal : ∀ op ∈ ops, op.isLocal)
    (hops : Unfailing { store := s, registry, validates } ops)
    (he : (Graph.after { store := s, registry, validates } ops).Stores x e) :
    e.id = x ∧
    (∀ l, l ≠ x → (l ∈ e.linkedFrom ↔
      (Graph.after { store := s, registry, validates } ops).StartsAt l x)) ∧
    (x ∈ e.linkedFrom ↔ ∃ before rest, ops = before ++ rest ∧
      (Graph.after { store := s, registry, validates } before).StartsAt x x ∧
      ∀ part, part <+: rest →
        ∃ p, (Graph.after { store := s, registry, validates }
          (before ++ part)).Stores x p) := by
  have hreads := after_agrees hs hops
  have hanchored := anchored_after (g := { store := {}, registry, validates })
    VolatileStore.anchored_empty hlocal
  have hstored := (stores_iff hreads).mp he
  have hhangs (l : EntityId) : l ∈ e.linkedFrom ↔
      (Graph.after { store := ({} : VolatileStore), registry, validates }
        ops).store.Hangs l x := by
    simp [VolatileStore.Hangs, hstored]
  refine ⟨hanchored.keyed x e hstored, fun l hl => ?_, ?_⟩
  · rw [hhangs, startsAt_iff hreads]
    exact ⟨fun h => (hanchored.sound h).resolve_left hl, hanchored.complete⟩
  · have hx : x ∈ (Graph.after
        { store := ({} : VolatileStore), registry, validates }
        ops).store.entities :=
      (mem_entities_iff hreads).mpr ⟨e, he⟩
    rw [hhangs, hangs_self_after hlocal rfl hx]
    -- The two runs agree at each point of the run, as they do at its end.
    have hreads_at (before part : List Operation)
        (hpart : ∃ rest, ops = before ++ (part ++ rest)) :
        Agrees
          (Graph.after { store := s, registry, validates }
            (before ++ part)).store
          (Graph.after { store := ({} : VolatileStore), registry, validates }
            (before ++ part)).store := by
      obtain ⟨rest, rfl⟩ := hpart
      rw [← List.append_assoc] at hops
      exact after_agrees hs (unfailing_append.mp hops).1
    refine exists_congr fun before => exists_congr fun rest =>
      and_congr_right fun hsplit => ?_
    refine and_congr ?_ (forall₂_congr fun part hpart => ?_)
    · have hagrees := hreads_at before [] ⟨rest, by simpa using hsplit⟩
      rw [List.append_nil] at hagrees
      exact (startsAt_iff hagrees).symm
    · obtain ⟨tail, rfl⟩ := hpart
      exact mem_entities_iff (hreads_at before part ⟨tail, hsplit⟩)

end Faithful

/-- An id saved as a resource, then as a link from itself, and as a resource
again. -/
def selfLinkOverwritten : List Operation :=
  [.saveResource { id := "a", kind := "k" },
    .saveLink { id := "a", kind := "k" } ⟨"a", "a"⟩,
    .saveResource { id := "a", kind := "k" }]

/-- A resource among its own back-references. -/
theorem mem_linkedFrom_after_overwriting :
    ∃ e, Graph.Stores (.after { store := ({} : VolatileStore) }
      selfLinkOverwritten) "a" e ∧
      e.source? = none ∧ "a" ∈ e.linkedFrom := by
  have hstart : FaithfulStore.Holds ({} : VolatileStore) {} :=
    ⟨rfl, VolatileStore.keyed_empty⟩
  have hlocal : ∀ op ∈ selfLinkOverwritten, op.isLocal := by decide
  have hops := unfailing_volatile (g := { store := {} })
    VolatileStore.keyed_empty selfLinkOverwritten
  have he : Graph.Stores
      (.after { store := ({} : VolatileStore) } selfLinkOverwritten) "a"
      { id := "a", kind := "k", linkedFrom := .ofList ["a"] } := by
    refine congrArg Except.ok ?_
    decide
  have hself : StartsAt (.after { store := ({} : VolatileStore) }
      (selfLinkOverwritten.take 2)) "a" "a" := by
    refine ⟨{ id := "a", kind := "k", endpoints := some ⟨"a", "a"⟩,
              linkedFrom := .ofList ["a"] }, congrArg Except.ok ?_, rfl⟩
    decide
  refine ⟨_, he, rfl, ?_⟩
  refine (mem_linkedFrom_after hstart hlocal hops he).2.2.mpr
    ⟨selfLinkOverwritten.take 2, selfLinkOverwritten.drop 2, rfl, hself, ?_⟩
  intro part hpart
  have hrest : selfLinkOverwritten.drop 2 =
      [] ++ [.saveResource { id := "a", kind := "k" }] := rfl
  rw [hrest, List.prefix_concat_iff] at hpart
  rcases hpart with rfl | hpart
  · exact ⟨_, he⟩
  · obtain rfl := List.prefix_nil.mp hpart
    obtain ⟨e, he, -⟩ := hself
    exact ⟨e, he⟩

end Graph

end LinkGraph
