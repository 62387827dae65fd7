import LinkGraph.Proofs.Graph.Writing
import Mathlib.Data.Finset.Card

/-!
# The walk of a cascade

The recursion of a cascade follows data that it changes on its way.  Here it is
described by a relation between the visited ids and graphs before and after,
without a bound on its depth, and the function is shown to follow it whenever
its bound exceeds the number of stored ids not visited yet.  What a walk does to
the store is then read off the relation: it removes the ids it newly visits and
takes them from the back-references of everything else.
-/

namespace LinkGraph

namespace VolatileStore

variable {s t u : VolatileStore} {R Q : NameSet} {x y z : EntityId} {e : Entity}

/-- An entity stored under `x` without the back-references to removed links that
start at `x`. -/
def bereft
    (s : VolatileStore) (R : NameSet) (x : EntityId) (e : Entity) : Entity :=
  e.relinked (e.linkedFrom.filter fun l => !(l ∈ R && s.sourceOf l = some x))

/-- `t` holds the entities of `s` but for those under the ids in `R`, each of
which has left its source. -/
def Purged (R : NameSet) (s t : VolatileStore) : Prop :=
  ∀ x : EntityId, t.entities[x]? =
    if x ∈ R then none else s.entities[x]?.map (s.bereft R x)

/-- `y` is `x`, or hangs on it through the back-references of stored
entities. -/
inductive Reaches (s : VolatileStore) (x : EntityId) : EntityId → Prop
  | refl : Reaches s x x
  | step {y z : EntityId} {e : Entity} :
      Reaches s x y → s.entities[y]? = some e →
      z ∈ e.linkedFrom → Reaches s x z

theorem Reaches.trans
    (hxy : s.Reaches x y) (hyz : s.Reaches y z) :
    s.Reaches x z := by
  induction hyz with
  | refl => exact hxy
  | step _ he hz ih => exact ih.step he hz

theorem mem_bereft : y ∈ (s.bereft R x e).linkedFrom ↔
    y ∈ e.linkedFrom ∧ ¬(y ∈ R ∧ s.sourceOf y = some x) := by
  change y ∈ Std.ExtTreeSet.filter _ _ ↔ _
  simp only [Std.ExtTreeSet.mem_filter, Std.ExtTreeSet.get_eq,
    Bool.not_eq_true', Bool.and_eq_false_iff, decide_eq_false_iff_not,
    not_and_or, exists_prop]

theorem bereft_eq_relinked {links : NameSet}
    (h : ∀ y, y ∈ links ↔ y ∈ e.linkedFrom ∧ ¬(y ∈ R ∧ s.sourceOf y = some x)) :
    s.bereft R x e = e.relinked links := by
  have hset : (s.bereft R x e).linkedFrom = links := by
    apply Std.ExtTreeSet.ext_mem
    intro y
    rw [mem_bereft, h]
  exact congrArg e.relinked hset

theorem bereft_eq_self
    (h : ∀ y ∈ e.linkedFrom, ¬(y ∈ R ∧ s.sourceOf y = some x)) :
    s.bereft R x e = e := by
  apply bereft_eq_relinked
  intro y
  constructor
  · intro hy
    exact ⟨hy, h y hy⟩
  · exact And.left

theorem Purged.sourceOf (h : Purged R s t) :
    t.sourceOf x = if x ∈ R then none else s.sourceOf x := by
  unfold VolatileStore.sourceOf
  rw [h x]
  by_cases hx : x ∈ R
  · simp [hx]
  · simp only [hx, if_false, Option.bind_map]
    rfl

/-- A purge makes nothing hang on an entity that did not before. -/
theorem Reaches.of_purged
    (h : t.Reaches x y) (hst : Purged R s t) :
    s.Reaches x y := by
  induction h with
  | refl => exact .refl
  | @step y z e _ he hz ih =>
    have hy := hst y
    rw [he] at hy
    split at hy
    · simp at hy
    · obtain ⟨p, hp, rfl⟩ := Option.map_eq_some_iff.mp hy.symm
      exact ih.step hp (mem_bereft.mp hz).1

/-- Two purges are one purge of all their ids. -/
theorem Purged.trans
    (hst : Purged R s t) (htu : Purged Q t u) :
    Purged (R ∪ Q) s u := by
  intro x
  rw [htu x, hst x]
  by_cases hR : x ∈ R
  · simp [hR, Std.ExtTreeSet.mem_union_iff]
  · by_cases hQ : x ∈ Q
    · simp [hQ, Std.ExtTreeSet.mem_union_iff]
    · simp only [hR, hQ, Std.ExtTreeSet.mem_union_iff, or_self, if_false,
        Option.map_map]
      congr 1
      funext e
      symm
      apply bereft_eq_relinked
      intro y
      change y ∈ (t.bereft Q x (s.bereft R x e)).linkedFrom ↔ _
      rw [mem_bereft, mem_bereft, hst.sourceOf, Std.ExtTreeSet.mem_union_iff]
      by_cases hyR : y ∈ R
      · simp [hyR]
      · simp [hyR]

/-- Only the ids under which something is stored matter for a purge. -/
theorem Purged.congr
    (h : Purged R s t) (hmem : ∀ x, x ∈ s.entities → (x ∈ R ↔ x ∈ Q)) :
    Purged Q s t := by
  intro x
  rw [h x]
  cases hx : s.entities[x]? with
  | none => simp
  | some e =>
    have hstored {y : EntityId} {p : Entity} (hp : s.entities[y]? = some p) :
        y ∈ s.entities :=
      Std.ExtTreeMap.mem_iff_isSome_getElem?.mpr (by simp [hp])
    have hbereft : s.bereft R x e = s.bereft Q x e := by
      apply bereft_eq_relinked
      intro y
      change y ∈ (s.bereft Q x e).linkedFrom ↔ _
      rw [mem_bereft]
      refine and_congr_right fun _ => not_congr (and_congr_left fun hy => ?_)
      obtain ⟨p, hp, -⟩ := Option.bind_eq_some_iff.mp hy
      exact (hmem y (hstored hp)).symm
    rw [if_congr (hmem x (hstored hx)) rfl rfl, Option.map_some,
      Option.map_some, hbereft]

theorem purged_empty : Purged ∅ s s := by
  intro x
  have hid : s.bereft ∅ x = id := by
    funext e
    exact bereft_eq_self (by simp)
  simp [hid]

theorem entities_erased :
    (s.erased e).entities[x]? =
      if x = e.id then none
      else if e.source? = some x then s.entities[x]?.map (·.unlinked e.id)
      else s.entities[x]? := by
  rw [erased, entities_discard, entities_release, entities_leave]

/-- Erasing a stored entity purges its id. -/
theorem purged_erased (he : s.entities[e.id]? = some e) :
    Purged ((∅ : NameSet).insert e.id) s (s.erased e) := by
  intro x
  have hsource : s.sourceOf e.id = e.source? := by
    simp [VolatileStore.sourceOf, he]
  rw [entities_erased]
  by_cases hx : x = e.id
  · simp [hx]
  · have hx' : x ∉ (∅ : NameSet).insert e.id := by
      simpa [Std.ExtTreeSet.mem_insert] using Ne.symm hx
    rw [if_neg hx, if_neg hx']
    by_cases hlink : e.source? = some x
    · rw [if_pos hlink]
      congr 1
      funext p
      symm
      apply bereft_eq_relinked
      intro y
      simp only [Std.ExtTreeSet.mem_erase, ne_eq, Std.ExtTreeSet.mem_insert,
        Std.compare_eq_iff_eq, Std.ExtTreeSet.not_mem_empty, or_false]
      constructor
      · rintro ⟨hne, hy⟩
        exact ⟨hy, fun h => hne h.1⟩
      · rintro ⟨hy, hkeep⟩
        refine ⟨?_, hy⟩
        rintro rfl
        exact hkeep ⟨rfl, hsource.trans hlink⟩
    · rw [if_neg hlink]
      have hid : s.bereft ((∅ : NameSet).insert e.id) x = id := by
        funext p
        apply bereft_eq_self
        rintro y - ⟨hy, hyx⟩
        obtain rfl : e.id = y := by simpa [Std.ExtTreeSet.mem_insert] using hy
        exact hlink (hsource.symm.trans hyx)
      simp [hid]

end VolatileStore

namespace Graph

variable {g g' : Graph VolatileStore} {V W : NameSet} {ids : List EntityId}
  {id x y : EntityId} {e : Entity}

def removing (g : Graph VolatileStore) (e : Entity) : Graph VolatileStore :=
  { g.notified .deleting e with store := g.store.erased e }

/-- The walk over a list of ids, from visited ids and a graph to visited ids and
a graph.  The entity that is removed is the one found after its dependents have
been walked over. -/
inductive Walk : List EntityId → NameSet → Graph VolatileStore → NameSet →
    Graph VolatileStore → Prop
  | done {V : NameSet} {g : Graph VolatileStore} : Walk [] V g V g
  | seen {id : EntityId} {ids : List EntityId} {V W : NameSet}
    {g g' : Graph VolatileStore} :
      id ∈ V → Walk ids V g W g' → Walk (id :: ids) V g W g'
  | absent {id : EntityId} {ids : List EntityId} {V W : NameSet}
    {g g' : Graph VolatileStore} :
      id ∉ V → g.store.entities[id]? = none → Walk ids (V.insert id) g W g' →
      Walk (id :: ids) V g W g'
  | removed {id : EntityId} {ids : List EntityId} {V V₁ W : NameSet}
      {g g₁ g' : Graph VolatileStore} {e e₁ : Entity} :
      id ∉ V → g.store.entities[id]? = some e →
      Walk e.linkedFrom.toList (V.insert id) g V₁ g₁ →
      g₁.store.entities[id]? = some e₁ →
      Walk ids V₁ (g₁.removing e₁) W g' → Walk (id :: ids) V g W g'

namespace Walk

theorem append
    {ids' : List EntityId} {V₁ : NameSet} {g₁ : Graph VolatileStore}
    (h : Walk ids V g V₁ g₁) (h' : Walk ids' V₁ g₁ W g') :
    Walk (ids ++ ids') V g W g' := by
  induction h with
  | done => exact h'
  | seen hid _ ih => exact .seen hid (ih h')
  | absent hid hnone _ ih => exact .absent hid hnone (ih h')
  | removed hid he hdeps he₁ _ _ ih => exact .removed hid he hdeps he₁ (ih h')

/-- From the same start a walk has only one end. -/
theorem unique {U : NameSet} {g'' : Graph VolatileStore} (h : Walk ids V g W g')
    (h' : Walk ids V g U g'') : W = U ∧ g' = g'' := by
  induction h generalizing U g'' with
  | done =>
    cases h'
    exact ⟨rfl, rfl⟩
  | seen hid _ ih =>
    cases h' with
    | seen _ hrest => exact ih hrest
    | absent hid' _ _ => exact absurd hid hid'
    | removed hid' _ _ _ _ => exact absurd hid hid'
  | absent hid hnone _ ih =>
    cases h' with
    | seen hid' _ => exact absurd hid' hid
    | absent _ _ hrest => exact ih hrest
    | removed _ he _ _ _ => simp [hnone] at he
  | removed hid he _ he₁ _ ihdeps ih =>
    cases h' with
    | seen hid' _ => exact absurd hid' hid
    | absent _ hnone _ => simp [hnone] at he
    | removed _ he' hdeps' he₁' hrest =>
      obtain rfl := Option.some.inj (he.symm.trans he')
      obtain ⟨rfl, rfl⟩ := ihdeps hdeps'
      obtain rfl := Option.some.inj (he₁.symm.trans he₁')
      exact ih hrest

theorem visited_mono (h : Walk ids V g W g') : ∀ x ∈ V, x ∈ W := by
  induction h with
  | done => exact fun _ hx => hx
  | seen _ _ ih => exact ih
  | absent _ _ _ ih =>
    intro x hx
    exact ih x (Std.ExtTreeSet.mem_insert.mpr (Or.inr hx))
  | removed _ _ _ _ _ ihdeps ih =>
    intro x hx
    exact ih x (ihdeps x (Std.ExtTreeSet.mem_insert.mpr (Or.inr hx)))

theorem visits (h : Walk ids V g W g') : ∀ x ∈ ids, x ∈ W := by
  induction h with
  | done => simp
  | seen hid hrest ih =>
    intro x hx
    rcases List.mem_cons.mp hx with rfl | hx
    · exact hrest.visited_mono x hid
    · exact ih x hx
  | absent _ _ hrest ih =>
    intro x hx
    rcases List.mem_cons.mp hx with rfl | hx
    · exact hrest.visited_mono x (by simp)
    · exact ih x hx
  | removed _ _ hdeps _ hrest _ ih =>
    intro x hx
    rcases List.mem_cons.mp hx with rfl | hx
    · exact hrest.visited_mono x (hdeps.visited_mono x (by simp))
    · exact ih x hx

/-- What every removal of a stored entity keeps, a walk keeps. -/
theorem preserves
    (P : Graph VolatileStore → Prop)
    (hstep : ∀ g e, P g → g.store.entities[e.id]? = some e → P (g.removing e))
    (hkeyed : ∀ g, P g → g.store.Keyed) (h : Walk ids V g W g') (hg : P g) :
    P g' := by
  induction h with
  | done => exact hg
  | seen _ _ ih => exact ih hg
  | absent _ _ _ ih => exact ih hg
  | removed _ _ _ he₁ _ ihdeps ih =>
    have hg₁ := ihdeps hg
    have hid := hkeyed _ hg₁ _ _ he₁
    exact ih (hstep _ _ hg₁ (hid ▸ he₁))

theorem keyed (h : Walk ids V g W g') (hg : g.store.Keyed) : g'.store.Keyed :=
  h.preserves (fun g => g.store.Keyed) (fun _ e hk _ => hk.erased e)
    (fun _ hk => hk) hg

/-- The dependents of an entity and then the entity itself leave the store. -/
theorem purged_removing
    {V₁ : NameSet} {g₁ : Graph VolatileStore} {e₁ : Entity} (hid : id ∉ V)
    (hdeps : Walk ids (V.insert id) g V₁ g₁) (hg₁ : g₁.store.Keyed)
    (he₁ : g₁.store.entities[id]? = some e₁)
    (hpurged : VolatileStore.Purged (V₁ \ V.insert id) g.store g₁.store) :
    VolatileStore.Purged (V₁ \ V) g.store (g₁.removing e₁).store := by
  obtain rfl : e₁.id = id := hg₁ id e₁ he₁
  apply (hpurged.trans (VolatileStore.purged_erased he₁)).congr
  intro x _
  have hstart := hdeps.visited_mono x
  simp only [Std.ExtTreeSet.mem_union_iff, Std.ExtTreeSet.mem_diff_iff,
    Std.ExtTreeSet.mem_insert, Std.compare_eq_iff_eq,
    Std.ExtTreeSet.not_mem_empty, or_false, not_or] at hstart ⊢
  constructor
  · rintro (⟨hx, -, hV⟩ | rfl)
    · exact ⟨hx, hV⟩
    · exact ⟨hstart (Or.inl rfl), hid⟩
  · rintro ⟨hx, hV⟩
    by_cases hxid : e₁.id = x
    · exact Or.inr hxid
    · exact Or.inl ⟨hx, hxid, hV⟩

/-- A walk removes the ids that it newly visits. -/
theorem purged (h : Walk ids V g W g') (hg : g.store.Keyed) :
    VolatileStore.Purged (W \ V) g.store g'.store := by
  induction h with
  | @done V g =>
    apply VolatileStore.purged_empty.congr
    simp [Std.ExtTreeSet.mem_diff_iff]
  | seen _ _ ih => exact ih hg
  | @absent id ids V W g g' hid hnone hrest ih =>
    apply (ih hg).congr
    intro x hx
    have hne : id ≠ x := by
      rintro rfl
      simp [Std.ExtTreeMap.mem_iff_isSome_getElem?, hnone] at hx
    simp [Std.ExtTreeSet.mem_diff_iff, hne]
  | @removed id ids V V₁ W g g₁ g' e e₁ hid he hdeps he₁ hrest ihdeps ih =>
    have hg₁ : g₁.store.Keyed := hdeps.keyed hg
    have hfirst := purged_removing hid hdeps hg₁ he₁ (ihdeps hg)
    apply (hfirst.trans (ih (hg₁.erased e₁))).congr
    intro x _
    have hmono := hrest.visited_mono x
    have hstart := hdeps.visited_mono x
    simp only [Std.ExtTreeSet.mem_union_iff, Std.ExtTreeSet.mem_diff_iff,
      Std.ExtTreeSet.mem_insert, Std.compare_eq_iff_eq] at hstart ⊢
    constructor
    · rintro (⟨hx, hV⟩ | ⟨hx, hV₁⟩)
      · exact ⟨hmono hx, hV⟩
      · exact ⟨hx, fun hV => hV₁ (hstart (Or.inr hV))⟩
    · rintro ⟨hx, hV⟩
      by_cases hx₁ : x ∈ V₁
      · exact Or.inl ⟨hx₁, hV⟩
      · exact Or.inr ⟨hx, hx₁⟩

/-- What hangs on a newly visited entity is visited. -/
theorem closed
    (h : Walk ids V g W g') (hg : g.store.Keyed) {y z : EntityId} {e : Entity}
    (hy : y ∈ W) (hyV : y ∉ V) (he : g.store.entities[y]? = some e)
    (hz : z ∈ e.linkedFrom) :
    z ∈ W := by
  induction h generalizing y z e with
  | done => exact absurd hy hyV
  | seen _ _ ih => exact ih hg hy hyV he hz
  | @absent id ids V W g g' hid hnone hrest ih =>
    have hyid : id ≠ y := by
      rintro rfl
      simp [hnone] at he
    exact ih hg hy (by simp [hyV, hyid]) he hz
  | @removed id ids V V₁ W g g₁ g' p e₁ hid hp hdeps he₁ hrest ihdeps ih =>
    have hg₁ : g₁.store.Keyed := hdeps.keyed hg
    by_cases hyid : id = y
    · subst hyid
      obtain rfl := Option.some.inj (he.symm.trans hp)
      have hz₁ : z ∈ V₁ := hdeps.visits z (Std.ExtTreeSet.mem_toList.mpr hz)
      exact hrest.visited_mono z hz₁
    · have hyid' : y ∉ V.insert id := by simp [hyV, hyid]
      by_cases hy₁ : y ∈ V₁
      · exact hrest.visited_mono z (ihdeps hg hy₁ hyid' he hz)
      · by_cases hz₁ : z ∈ V₁
        · exact hrest.visited_mono z hz₁
        · -- Neither `y` nor `z` was met among the dependents, so the
          -- back-reference is still there.
          have hremain := purged_removing hid hdeps hg₁ he₁ (hdeps.purged hg) y
          rw [if_neg (by simp [Std.ExtTreeSet.mem_diff_iff, hy₁]), he]
            at hremain
          refine ih (hg₁.erased e₁) hy hy₁ hremain ?_
          rw [VolatileStore.mem_bereft]
          exact ⟨hz, by simp [Std.ExtTreeSet.mem_diff_iff, hz₁]⟩

/-- A newly visited id hangs on one of the ids the walk was over. -/
theorem reaches
    (h : Walk ids V g W g') (hg : g.store.Keyed) (hy : y ∈ W) (hyV : y ∉ V) :
    ∃ x ∈ ids, g.store.Reaches x y := by
  induction h generalizing y with
  | done => exact absurd hy hyV
  | seen _ _ ih =>
    obtain ⟨x, hx, hreach⟩ := ih hg hy hyV
    exact ⟨x, List.mem_cons_of_mem _ hx, hreach⟩
  | @absent id ids V W g g' hid hnone hrest ih =>
    by_cases hyid : y = id
    · subst hyid
      exact ⟨y, List.mem_cons_self, .refl⟩
    · obtain ⟨x, hx, hreach⟩ := ih hg hy (by simp [hyV, Ne.symm hyid])
      exact ⟨x, List.mem_cons_of_mem _ hx, hreach⟩
  | @removed id ids V V₁ W g g₁ g' e e₁ hid he hdeps he₁ hrest ihdeps ih =>
    have hg₁ : g₁.store.Keyed := hdeps.keyed hg
    by_cases hyid : y = id
    · subst hyid
      exact ⟨y, List.mem_cons_self, .refl⟩
    · by_cases hy₁ : y ∈ V₁
      · obtain ⟨x, hx, hreach⟩ := ihdeps hg hy₁ (by simp [hyV, Ne.symm hyid])
        have hx' : x ∈ e.linkedFrom := Std.ExtTreeSet.mem_toList.mp hx
        refine ⟨id, List.mem_cons_self, ?_⟩
        exact (VolatileStore.Reaches.refl.step he hx').trans hreach
      · obtain ⟨x, hx, hreach⟩ := ih (hg₁.erased e₁) hy hy₁
        have hfirst := purged_removing hid hdeps hg₁ he₁ (hdeps.purged hg)
        exact ⟨x, List.mem_cons_of_mem _ hx, hreach.of_purged hfirst⟩

/-- A walk from nothing visited visits exactly what hangs on its ids. -/
theorem visited_iff (h : Walk ids ∅ g W g') (hg : g.store.Keyed) :
    y ∈ W ↔ ∃ x ∈ ids, g.store.Reaches x y := by
  constructor
  · intro hy
    exact h.reaches hg hy (by simp)
  · rintro ⟨x, hx, hreach⟩
    induction hreach with
    | refl => exact h.visits x hx
    | step _ he hz ih => exact h.closed hg ih (by simp) he hz

end Walk

/-! ## Enough depth -/

/-- How many stored ids are not visited yet. -/
def unvisited (s : VolatileStore) (V : NameSet) : Nat :=
  (s.entities.keys.toFinset.filter (· ∉ V)).card

theorem unvisited_le_of
    {s t : VolatileStore} (hV : ∀ x ∈ V, x ∈ W)
    (hst : ∀ x, x ∈ t.entities → x ∈ s.entities) :
    unvisited t W ≤ unvisited s V := by
  apply Finset.card_le_card
  intro x
  simp only [Finset.mem_filter, List.mem_toFinset, Std.ExtTreeMap.mem_keys]
  rintro ⟨hx, hxV⟩
  exact ⟨hst x hx, fun h => hxV (hV x h)⟩

theorem unvisited_insert_lt
    {s : VolatileStore} (hid : id ∉ V) (he : s.entities[id]? = some e) :
    unvisited s (V.insert id) < unvisited s V := by
  apply Finset.card_lt_card
  rw [Finset.ssubset_iff_of_subset]
  · have hstored : id ∈ s.entities :=
      Std.ExtTreeMap.mem_iff_isSome_getElem?.mpr (by simp [he])
    exact ⟨id, by simp [hid, hstored], by simp⟩
  · intro x
    simp only [Finset.mem_filter, List.mem_toFinset, Std.ExtTreeMap.mem_keys]
    rintro ⟨hx, hxV⟩
    exact ⟨hx, fun h => hxV (Std.ExtTreeSet.mem_insert.mpr (Or.inr h))⟩

theorem Walk.stored_mono (h : Walk ids V g W g') (hg : g.store.Keyed)
    (hx : x ∈ g'.store.entities) : x ∈ g.store.entities := by
  rw [Std.ExtTreeMap.mem_iff_isSome_getElem?] at hx ⊢
  rw [h.purged hg x] at hx
  split at hx
  · simp at hx
  · simpa using hx

theorem Walk.unvisited_le (h : Walk ids V g W g') (hg : g.store.Keyed) :
    unvisited g'.store W ≤ unvisited g.store V :=
  unvisited_le_of h.visited_mono fun _ hx => h.stored_mono hg hx

/-- An entity that is already being removed stays stored while its dependents
go. -/
theorem Walk.stored_of_visited
    (h : Walk ids V g W g') (hg : g.store.Keyed) (hid : id ∈ V)
    (he : g.store.entities[id]? = some e) :
    ∃ e', g'.store.entities[id]? = some e' := by
  rw [h.purged hg id, if_neg (by simp [Std.ExtTreeSet.mem_diff_iff, hid]), he]
  exact ⟨_, rfl⟩

theorem foldlM_cascade_walk
    {depth : Nat}
    (hcascade : ∀ id V g, g.store.Keyed → unvisited g.store V < depth →
      ∃ W g', cascade depth id V g = (.ok W, g') ∧ Walk [id] V g W g')
    (ids : List EntityId) (hg : g.store.Keyed)
    (hdepth : unvisited g.store V < depth) :
    ∃ W g', ids.foldlM (fun V id => cascade depth id V) V g = (.ok W, g') ∧
      Walk ids V g W g' := by
  induction ids generalizing V g with
  | nil => exact ⟨V, g, rfl, .done⟩
  | cons id ids ih =>
    obtain ⟨V₁, g₁, hrun, hwalk⟩ := hcascade id V g hg hdepth
    have hle := hwalk.unvisited_le hg
    obtain ⟨W, g', hrest, hwalk'⟩ :=
      ih (hwalk.keyed hg) (lt_of_le_of_lt hle hdepth)
    refine ⟨W, g', ?_, hwalk.append hwalk'⟩
    rw [List.foldlM_cons, bind_run_ok hrun, hrest]

/-- A cascade whose depth exceeds the number of unvisited stored ids follows the
walk to its end. -/
theorem cascade_walk
    {depth : Nat} (id : EntityId) (V : NameSet) (g : Graph VolatileStore)
    (hg : g.store.Keyed) (hdepth : unvisited g.store V < depth) :
    ∃ W g', cascade depth id V g = (.ok W, g') ∧ Walk [id] V g W g' := by
  induction depth generalizing id V g with
  | zero => exact absurd hdepth (Nat.not_lt_zero _)
  | succ depth ih =>
    rw [cascade]
    by_cases hid : id ∈ V
    · rw [if_pos hid]
      exact ⟨V, g, rfl, .seen hid .done⟩
    · rw [if_neg hid, bind_run_ok (fetch_run g id)]
      cases he : g.store.entities[id]? with
      | none => exact ⟨V.insert id, g, rfl, .absent hid he .done⟩
      | some e =>
        have hless := unvisited_insert_lt hid he
        obtain ⟨V₁, g₁, hrun, hwalk⟩ :=
          foldlM_cascade_walk ih e.linkedFrom.toList hg
            (show unvisited g.store (V.insert id) < depth by omega)
        have hg₁ := hwalk.keyed hg
        obtain ⟨e₁, he₁⟩ := hwalk.stored_of_visited hg (by simp) he
        obtain rfl : e₁.id = id := hg₁ id e₁ he₁
        refine ⟨V₁, g₁.removing e₁, ?_, .removed hid he hwalk he₁ .done⟩
        simp only
        rw [bind_run_ok hrun, bind_run_ok (fetch_run g₁ e₁.id), he₁]
        simp only
        rw [bind_run_ok (erase_run hg₁ e₁)]
        rfl

theorem unvisited_empty_le
    (s : VolatileStore) :
    unvisited s ∅ ≤ s.entities.size := by
  have hfilter :=
    Finset.card_filter_le s.entities.keys.toFinset (· ∉ (∅ : NameSet))
  have hkeys := List.toFinset_card_le s.entities.keys
  rw [Std.ExtTreeMap.length_keys] at hkeys
  exact hfilter.trans hkeys

/-- Deleting a stored entity walks over it and whatever hangs on it. -/
theorem delete_run_stored
    (hg : g.store.Keyed) (he : g.store.entities[id]? = some e) :
    ∃ W g', delete id g = (.ok (), g') ∧ Walk [id] ∅ g W g' := by
  have hdepth : unvisited g.store ∅ < chainBound g := by
    have hle := unvisited_empty_le g.store
    change _ < 2 * g.store.entities.size + 1
    omega
  obtain ⟨W, g', hrun, hwalk⟩ := cascade_walk id ∅ g hg hdepth
  refine ⟨W, g', ?_, hwalk⟩
  have hcontains : query (EntityStore.contains · id) g = (.ok true, g) := by
    have hstored : g.store.entities.contains id = true := by
      rw [Std.ExtTreeMap.contains_eq_isSome_getElem?, he]
      rfl
    change (Except.ok (g.store.entities.contains id), g) = _
    rw [hstored]
  have hget :
      (get : GraphM VolatileStore (Graph VolatileStore)) g = (.ok g, g) := rfl
  rw [delete, bind_run_ok hcontains]
  simp only [if_true]
  rw [bind_run_ok hget, bind_run_ok (batched_run_ok hrun)]
  rfl

end Graph

end LinkGraph
