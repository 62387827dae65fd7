import LinkGraph.Proofs.Graph.BackReferences
import LinkGraph.Proofs.Graph.Index

/-!
# What restoring does to a store

Entities are restored one after the other and their links are attached in the
end.  Apart from back-references, the last entity of a list with an id is the
one that stays.  What hangs where is told in parts: where a back-reference can
come from, and which ones are sure to be there.
-/

namespace LinkGraph

def Entity.bare (e : Entity) : Entity :=
  e.relinked ∅

/-- The last of the entities with an id. -/
def latest (es : List Entity) (id : EntityId) : Option Entity :=
  es.reverse.find? (·.id = id)

section Latest

variable {es : List Entity} {e : Entity} {x : EntityId}

theorem latest_cons :
    latest (e :: es) x =
      (latest es x).or (if e.id = x then some e else none) := by
  unfold latest
  rw [List.reverse_cons, List.find?_append]
  by_cases hx : e.id = x
  · simp [hx]
  · simp [hx]

theorem mem_of_latest (h : latest es x = some e) : e ∈ es ∧ e.id = x := by
  have hmem := List.mem_of_find?_eq_some h
  have hid := List.find?_some h
  exact ⟨List.mem_reverse.mp hmem, of_decide_eq_true hid⟩

theorem latest_eq_none : latest es x = none ↔ ∀ e ∈ es, e.id ≠ x := by
  simp [latest]

/-- With one entity for each id, the last with an id is the only one. -/
theorem latest_of_nodup (hnodup : (es.map Entity.id).Nodup) (he : e ∈ es) :
    latest es e.id = some e := by
  cases hlatest : latest es e.id with
  | none => exact absurd rfl (latest_eq_none.mp hlatest e he)
  | some p =>
    obtain ⟨hp, hid⟩ := mem_of_latest hlatest
    rw [List.inj_on_of_nodup_map hnodup hp he hid]

end Latest

namespace VolatileStore

variable {s t : VolatileStore} {es : List Entity} {e : Entity} {l x : EntityId}

/-! ## Entities without their back-references -/

theorem sourceOf_eq_bind (s : VolatileStore) (x : EntityId) :
    s.sourceOf x = (s.entities[x]?.map Entity.bare).bind Entity.source? := by
  rw [Option.bind_map]
  rfl

theorem bare_replaced
    (hs : s.Keyed) :
    (s.replaced e).entities[x]?.map Entity.bare =
    if x = e.id then some e.bare else s.entities[x]?.map Entity.bare := by
  have hmerged : (s.merged e).bare = e.bare := by
    unfold merged
    split
    · rfl
    · rfl
  rw [entities_replaced hs]
  by_cases hx : x = e.id
  · simp [hx, hmerged]
  · by_cases hsource : s.sourceOf e.id = some x
    · simp only [hx, hsource, if_true, if_false, Option.map_map]
      rfl
    · simp [hx, hsource]

theorem bare_attached :
    (s.attached e).entities[x]?.map Entity.bare =
      s.entities[x]?.map Entity.bare := by
  rw [entities_attached]
  by_cases hsource : e.source? = some x
  · simp only [hsource, if_true, Option.map_map]
    rfl
  · simp [hsource]

theorem bare_foldl_replaced (hs : s.Keyed) (es : List Entity) (x : EntityId) :
    (es.foldl replaced s).entities[x]?.map Entity.bare =
      ((latest es x).map Entity.bare).or (s.entities[x]?.map Entity.bare) := by
  induction es generalizing s with
  | nil => rfl
  | cons e es ih =>
    rw [List.foldl_cons, ih (hs.replaced e), bare_replaced hs, latest_cons]
    by_cases hx : x = e.id
    · subst hx
      cases latest es e.id with
      | none => simp
      | some p => simp
    · have hx' : e.id ≠ x := Ne.symm hx
      simp [hx, hx']

theorem bare_foldl_attached (es : List Entity) (x : EntityId) :
    (es.foldl attached s).entities[x]?.map Entity.bare =
      s.entities[x]?.map Entity.bare := by
  induction es generalizing s with
  | nil => rfl
  | cons e es ih => rw [List.foldl_cons, ih, bare_attached]

/-- Restored entities are as they were given, whatever else was stored stays. -/
theorem bare_restored (hs : s.Keyed) (es : List Entity) (x : EntityId) :
    (s.restored es).entities[x]?.map Entity.bare =
      ((latest es x).map Entity.bare).or (s.entities[x]?.map Entity.bare) := by
  rw [restored, bare_foldl_attached, bare_foldl_replaced hs]

theorem mem_entities_iff_bare (s : VolatileStore) (x : EntityId) :
    x ∈ s.entities ↔ (s.entities[x]?.map Entity.bare).isSome := by
  rw [Option.isSome_map, Std.ExtTreeMap.mem_iff_isSome_getElem?]

theorem mem_restored (hs : s.Keyed) :
    x ∈ (s.restored es).entities ↔ (∃ e ∈ es, e.id = x) ∨ x ∈ s.entities := by
  have hlatest : (latest es x).isSome ↔ ∃ e ∈ es, e.id = x := by
    rw [← not_iff_not, Option.not_isSome_iff_eq_none, latest_eq_none]
    simp
  rw [mem_entities_iff_bare, bare_restored hs, Option.isSome_or,
    Bool.or_eq_true, Option.isSome_map, hlatest, ← mem_entities_iff_bare]

theorem sourceOf_restored (hs : s.Keyed) (es : List Entity) (l : EntityId) :
    (s.restored es).sourceOf l =
      match latest es l with
      | some e => e.source?
      | none => s.sourceOf l := by
  rw [sourceOf_eq_bind, sourceOf_eq_bind s, bare_restored hs]
  cases latest es l with
  | none => rfl
  | some e => rfl

/-! ## What hangs where -/

theorem mem_attached : x ∈ (s.attached e).entities ↔ x ∈ s.entities := by
  rw [mem_entities_iff_bare, bare_attached, ← mem_entities_iff_bare]

theorem hangs_foldl_attached (es : List Entity) :
    (es.foldl attached s).Hangs l x ↔
      s.Hangs l x ∨ ∃ e ∈ es, e.id = l ∧ e.source? = some x ∧
      x ∈ s.entities := by
  induction es generalizing s with
  | nil => simp
  | cons e es ih =>
    rw [List.foldl_cons, ih, hangs_attached, mem_attached,
      List.exists_mem_cons_iff, or_assoc, eq_comm (a := l)]

/-- A back-reference to another id after replacing comes from a list entity, or
was there before and its link was not replaced while it started there. -/
theorem hangs_foldl_replaced_cases (hs : s.Keyed) (hne : l ≠ x)
    (h : (es.foldl replaced s).Hangs l x) :
    (∃ e ∈ es, e.id = x ∧ l ∈ e.linkedFrom) ∨
      (s.Hangs l x ∧ ¬((∃ e ∈ es, e.id = l) ∧ s.sourceOf l = some x)) := by
  induction es generalizing s with
  | nil => exact Or.inr ⟨h, by simp⟩
  | cons e es ih =>
    rcases ih (hs.replaced e) h with ⟨p, hp, hid, hl⟩ | ⟨hhangs, hkept⟩
    · exact Or.inl ⟨p, List.mem_cons_of_mem e hp, hid, hl⟩
    rcases (hangs_replaced hs).mp hhangs with ⟨rfl, hl⟩ | ⟨hhangs, hstays⟩
    · exact Or.inl ⟨e, List.mem_cons_self, rfl, hl⟩
    refine Or.inr ⟨hhangs, ?_⟩
    rintro ⟨hlisted, hsource⟩
    by_cases hid : l = e.id
    · exact hstays ⟨hid, fun hx => hne (hid.trans hx.symm), hid ▸ hsource⟩
    · obtain ⟨p, hp, hpl⟩ := hlisted
      rcases List.mem_cons.mp hp with rfl | hp
      · exact hid hpl.symm
      · refine hkept ⟨⟨p, hp, hpl⟩, ?_⟩
        rw [sourceOf_replaced hs, if_neg hid]
        exact hsource

theorem hangs_foldl_replaced_of_absent (hs : s.Keyed) (h : s.Hangs l x)
    (habsent : ∀ e ∈ es, e.id ≠ l) : (es.foldl replaced s).Hangs l x := by
  induction es generalizing s with
  | nil => exact h
  | cons e es ih =>
    refine ih (hs.replaced e) ?_ fun p hp =>
      habsent p (List.mem_cons_of_mem e hp)
    refine (hangs_replaced hs).mpr (Or.inr ⟨h, fun hnot => ?_⟩)
    exact habsent e List.mem_cons_self hnot.1.symm

/-- The back-references of listed entities stay while every id is listed once: a
link that is listed does not start at the entity before it is replaced, and it
is replaced once. -/
theorem hangs_foldl_replaced_of_listed
    (hs : s.Keyed) (hnodup : (es.map Entity.id).Nodup)
    (hfresh : (∃ e ∈ es, e.id = l) → s.sourceOf l ≠ some x)
    (h : s.Hangs l x ∨ ∃ e ∈ es, e.id = x ∧ l ∈ e.linkedFrom) :
    (es.foldl replaced s).Hangs l x := by
  induction es generalizing s with
  | nil =>
    rcases h with h | ⟨e, he, -⟩
    · exact h
    · cases he
  | cons e es ih =>
    rw [List.map_cons, List.nodup_cons] at hnodup
    refine ih (hs.replaced e) hnodup.2 ?_ ?_
    · rintro ⟨p, hp, rfl⟩
      have hne : p.id ≠ e.id :=
        fun hid => hnodup.1 (hid ▸ List.mem_map_of_mem hp)
      rw [sourceOf_replaced hs, if_neg hne]
      exact hfresh ⟨p, List.mem_cons_of_mem e hp, rfl⟩
    · rw [hangs_replaced hs]
      rcases h with h | ⟨p, hp, hid, hl⟩
      · refine Or.inl (Or.inr ⟨h, fun hnot => ?_⟩)
        exact hfresh ⟨e, List.mem_cons_self, hnot.1.symm⟩ (hnot.1 ▸ hnot.2.2)
      · rcases List.mem_cons.mp hp with rfl | hp
        · exact Or.inl (Or.inl ⟨hid.symm, hl⟩)
        · exact Or.inr ⟨p, hp, hid, hl⟩

theorem hangs_self_foldl_replaced (hs : s.Keyed) :
    (es.foldl replaced s).Hangs x x ↔
      s.Hangs x x ∨ ∃ e ∈ es, e.id = x ∧ x ∈ e.linkedFrom := by
  induction es generalizing s with
  | nil => simp
  | cons e es ih =>
    have hstep : (s.replaced e).Hangs x x ↔
        (e.id = x ∧ x ∈ e.linkedFrom) ∨ s.Hangs x x := by
      rw [hangs_replaced hs, eq_comm (a := x)]
      refine or_congr_right (and_iff_left_iff_imp.mpr fun _ hnot => ?_)
      exact hnot.2.1 hnot.1.symm
    rw [List.foldl_cons, ih (hs.replaced e), hstep, List.exists_mem_cons_iff,
      or_comm (b := s.Hangs x x), or_assoc]

theorem mem_restored_iff_replaced :
    x ∈ (s.restored es).entities ↔ x ∈ (es.foldl replaced s).entities := by
  rw [mem_entities_iff_bare, restored,
    bare_foldl_attached, ← mem_entities_iff_bare]

/-- Where a back-reference to another id can come from. -/
theorem hangs_restored_cases
    (hs : s.Keyed) (hne : l ≠ x) (h : (s.restored es).Hangs l x) :
    (∃ e ∈ es, e.id = l ∧ e.source? = some x) ∨
      (∃ e ∈ es, e.id = x ∧ l ∈ e.linkedFrom) ∨
      (s.Hangs l x ∧ ¬((∃ e ∈ es, e.id = l) ∧ s.sourceOf l = some x)) := by
  rcases (hangs_foldl_attached es).mp h with h | ⟨e, he, hid, hsource, -⟩
  · exact Or.inr (hangs_foldl_replaced_cases hs hne h)
  · exact Or.inl ⟨e, he, hid, hsource⟩

/-- Every restored link whose source is stored hangs on it. -/
theorem hangs_restored_of_source (he : e ∈ es) (hsource : e.source? = some x)
    (hx : x ∈ (s.restored es).entities) : (s.restored es).Hangs e.id x :=
  (hangs_foldl_attached es).mpr
    (Or.inr ⟨e, he, rfl, hsource, mem_restored_iff_replaced.mp hx⟩)

/-- What is not restored itself hangs where it did. -/
theorem hangs_restored_of_absent (hs : s.Keyed) (h : s.Hangs l x)
    (habsent : ∀ e ∈ es, e.id ≠ l) : (s.restored es).Hangs l x :=
  (hangs_foldl_attached es).mpr
    (Or.inl (hangs_foldl_replaced_of_absent hs h habsent))

theorem hangs_self_restored (hs : s.Keyed) :
    (s.restored es).Hangs x x ↔ s.Hangs x x ∨
      ∃ e ∈ es, e.id = x ∧ (x ∈ e.linkedFrom ∨ e.source? = some x) := by
  rw [restored, hangs_foldl_attached, hangs_self_foldl_replaced hs,
    or_assoc, ← exists_or]
  refine or_congr_right (exists_congr fun e => ?_)
  constructor
  · rintro (⟨he, hid, hx⟩ | ⟨he, hid, hsource, -⟩)
    · exact ⟨he, hid, Or.inl hx⟩
    · exact ⟨he, hid, Or.inr hsource⟩
  · rintro ⟨he, hid, hx | hsource⟩
    · exact Or.inl ⟨he, hid, hx⟩
    · refine Or.inr ⟨he, hid, hsource, ?_⟩
      exact mem_restored_iff_replaced.mp
        ((mem_restored hs).mpr (Or.inl ⟨e, he, hid⟩))

/-- Every stored link hangs on its source, if that is stored. -/
def Moored (s : VolatileStore) : Prop :=
  ∀ l x, s.sourceOf l = some x → x ∈ s.entities → s.Hangs l x

theorem Anchored.moored (h : s.Anchored) : s.Moored :=
  fun _ _ hl _ => h.complete hl

/-- Whatever is restored into an empty store, its links are moored. -/
theorem moored_restored (es : List Entity) : (restored {} es).Moored := by
  intro l x hl hx
  rw [sourceOf_restored keyed_empty] at hl
  cases hlatest : latest es l with
  | none =>
    rw [hlatest] at hl
    simp [sourceOf] at hl
  | some e =>
    rw [hlatest] at hl
    obtain ⟨he, rfl⟩ := mem_of_latest hlatest
    exact hangs_restored_of_source he hl hx

/-! ## Equal stores -/

theorem entities_eq_of_views
    (hbare : ∀ x : EntityId, s.entities[x]?.map Entity.bare =
      t.entities[x]?.map Entity.bare)
    (hhangs : ∀ l x, s.Hangs l x ↔ t.Hangs l x) :
    s.entities = t.entities := by
  apply Std.ExtTreeMap.ext_getElem?
  intro x
  have hbare := hbare x
  have hhangs := fun l => hhangs l x
  unfold Hangs at hhangs
  cases he : s.entities[x]? with
  | none =>
    rw [he] at hbare
    exact (Option.map_eq_none_iff.mp hbare.symm).symm
  | some e =>
    cases hp : t.entities[x]? with
    | none => simp [he, hp] at hbare
    | some p =>
      simp only [he, hp, Option.map_some, Option.some.injEq, exists_eq_left']
        at hbare hhangs
      have hlinks : e.linkedFrom = p.linkedFrom := Std.ExtTreeSet.ext_mem hhangs
      have hwhole :
          e.bare.relinked e.linkedFrom = p.bare.relinked p.linkedFrom := by
        rw [hbare, hlinks]
      exact congrArg some hwhole

/-- With an exact index the entities determine the store. -/
theorem Indexed.eq_of_entities_eq (hs : s.Indexed) (ht : t.Indexed)
    (hentities : s.entities = t.entities) : s = t := by
  have hbucket (c : Category) : s.bucket c = t.bucket c := by
    apply Std.ExtTreeSet.ext_mem
    intro x
    rw [hs.member, ht.member, Carries, Carries, hentities]
  refine ext_content (fun x => by rw [hentities]) fun c => ?_
  have hstored {u : VolatileStore} (hu : u.Pruned) :
      u.index[c]? =
        if (u.bucket c).isEmpty then none else some (u.bucket c) := by
    rw [bucket_eq]
    cases hb : u.index[c]? with
    | none => simp
    | some b =>
      have hne : b ≠ ∅ := fun hempty => hu c (hempty ▸ hb)
      simp [hne]
  rw [hstored hs.pruned, hstored ht.pruned, hbucket]

end VolatileStore

end LinkGraph
