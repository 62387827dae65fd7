import LinkGraph.Proofs.Graph.Deletion
import LinkGraph.Proofs.Graph.Restoring

/-!
# Links whose source comes later

A list that is restored may have links whose source is not stored, and more than
one entity with an id.  A link is attached when it is restored, if its source is
stored by then; no later operation looks for links that wait for an entity it
stores.  A link that the list itself overwrites is attached all the same.  As
long as restored entities bring no back-references with them, these are the only
two ways in which the back-references of a graph come to differ from its links.
-/

namespace LinkGraph

/-- The entities that an operation brings in from elsewhere. -/
def Operation.restored : Operation → List Entity
  | .restore es => es
  | _ => []

namespace VolatileStore

variable {s t : VolatileStore} {es : List Entity} {e : Entity} {V : NameSet}
  {l x y : EntityId}

/-- Among stored entities the links of an entity are those that start at it,
apart from itself. -/
def Attached (s : VolatileStore) : Prop :=
  ∀ l x, l ≠ x → l ∈ s.entities → x ∈ s.entities →
    (s.Hangs l x ↔ s.sourceOf l = some x)

/-- Links hang on their sources, if these are stored, and nothing else hangs on
another id. -/
structure Tethered (s : VolatileStore) : Prop where
  keyed : s.Keyed
  moored : s.Moored
  sound {l x : EntityId} : s.Hangs l x → l = x ∨ s.sourceOf l = some x

/-- On the way from `s` to `t`, on which `es` is restored, no entity is stored
after a link that starts there, and every restored link outlasts the rest of the
list. -/
structure Orderly
    (s : VolatileStore) (es : List Entity) (t : VolatileStore) : Prop where
  source_first {l x : EntityId} : s.sourceOf l = some x → (∀ e ∈ es, e.id ≠ l) →
    x ∈ t.entities → x ∈ s.entities
  link_lasts {e : Entity} {x : EntityId} :
    e ∈ es → e.source? = some x → x ≠ e.id →
    x ∈ t.entities → t.sourceOf e.id = some x

theorem tethered_empty : Tethered {} where
  keyed := keyed_empty
  moored := anchored_empty.moored
  sound := anchored_empty.sound

theorem Tethered.attached (h : s.Tethered) : s.Attached := by
  intro l x hne _ hx
  constructor
  · intro hl
    exact (h.sound hl).resolve_left hne
  · intro hl
    exact h.moored l x hl hx

/-! ## Restoring -/

theorem sourceOf_restored_of_absent
    (hs : s.Keyed) (habsent : ∀ e ∈ es, e.id ≠ l) :
    (s.restored es).sourceOf l = s.sourceOf l := by
  rw [sourceOf_restored hs, latest_eq_none.mpr habsent]

theorem Tethered.restored (h : s.Tethered) (hbare : ∀ e ∈ es, e.linkedFrom = ∅)
    (horderly : s.Orderly es (s.restored es)) : (s.restored es).Tethered := by
  constructor
  · exact (h.keyed.foldl_replaced es).foldl_attached es
  · intro l x hl hx
    cases hlatest : latest es l with
    | some e =>
      obtain ⟨he, rfl⟩ := mem_of_latest hlatest
      rw [sourceOf_restored h.keyed, hlatest] at hl
      exact hangs_restored_of_source he hl hx
    | none =>
      have habsent := latest_eq_none.mp hlatest
      rw [sourceOf_restored_of_absent h.keyed habsent] at hl
      have hstored := horderly.source_first hl habsent hx
      exact hangs_restored_of_absent h.keyed (h.moored l x hl hstored) habsent
  · intro l x hl
    by_cases hne : l = x
    · exact Or.inl hne
    right
    rcases hangs_restored_cases h.keyed hne hl with
      ⟨e, he, rfl, hsource⟩ | ⟨e, he, -, hle⟩ | ⟨hhangs, hkept⟩
    · exact horderly.link_lasts he hsource (Ne.symm hne) hl.stored
    · simp [hbare e he] at hle
    · have hlx : s.sourceOf l = some x := (h.sound hhangs).resolve_left hne
      have habsent : ∀ e ∈ es, e.id ≠ l :=
        fun e he hid => hkept ⟨⟨e, he, hid⟩, hlx⟩
      rw [sourceOf_restored_of_absent h.keyed habsent]
      exact hlx

/-- A restoring after which the links are attached has been orderly. -/
theorem Attached.orderly_restored (h : (s.restored es).Attached) (hs : s.Keyed)
    (hbare : ∀ e ∈ es, e.linkedFrom = ∅) : s.Orderly es (s.restored es) := by
  constructor
  · intro l x hl habsent hx
    have hstored := mem_of_sourceOf hl
    by_cases hne : l = x
    · exact hne ▸ hstored
    have hl' : l ∈ (s.restored es).entities :=
      (mem_restored hs).mpr (Or.inr hstored)
    have hhangs : (s.restored es).Hangs l x := by
      rw [h l x hne hl' hx, sourceOf_restored_of_absent hs habsent]
      exact hl
    rcases hangs_restored_cases hs hne hhangs with
      ⟨e, he, hid, -⟩ | ⟨e, he, -, hle⟩ | ⟨hhangs, -⟩
    · exact absurd hid (habsent e he)
    · simp [hbare e he] at hle
    · exact hhangs.stored
  · intro e x he hsource hne hx
    have he' : e.id ∈ (s.restored es).entities :=
      (mem_restored hs).mpr (Or.inl ⟨e, he, rfl⟩)
    exact (h e.id x (Ne.symm hne) he' hx).mp
      (hangs_restored_of_source he hsource hx)

/-! ## Local operations -/

theorem orderly_of_subset
    (h : ∀ x, x ∈ t.entities → x ∈ s.entities) :
    s.Orderly [] t where
  source_first _ _ hx := h _ hx
  link_lasts he := by cases he

theorem mem_entities_iff_of_anchors
    (h : ∀ x : EntityId, t.entities[x]?.map Entity.anchors =
      s.entities[x]?.map Entity.anchors) :
    x ∈ t.entities ↔ x ∈ s.entities := by
  have hstored (s : VolatileStore) :
      x ∈ s.entities ↔ (s.entities[x]?.map Entity.anchors).isSome := by
    rw [Option.isSome_map, Std.ExtTreeMap.mem_iff_isSome_getElem?]
  rw [hstored s, hstored t, h]

theorem Tethered.of_anchors_eq
    (h : s.Tethered) (ht : t.Keyed)
    (hsame : ∀ x : EntityId, t.entities[x]?.map Entity.anchors =
      s.entities[x]?.map Entity.anchors) :
    t.Tethered where
  keyed := ht
  moored l x hl hx := by
    rw [sourceOf_eq_of_anchors hsame] at hl
    rw [mem_entities_iff_of_anchors hsame] at hx
    exact (hangs_iff_of_anchors hsame).mpr (h.moored l x hl hx)
  sound {l x} hl := by
    rw [sourceOf_eq_of_anchors hsame]
    exact h.sound ((hangs_iff_of_anchors hsame).mp hl)

theorem Tethered.purged
    (h : s.Tethered) (ht : t.Keyed) (hpurged : Purged V s t) :
    t.Tethered where
  keyed := ht
  moored l x hl hx := by
    obtain ⟨hxV, hx⟩ := mem_of_purged hpurged hx
    rw [hpurged.sourceOf] at hl
    split at hl
    · cases hl
    · next hlV =>
        exact (hangs_purged hpurged).mpr ⟨hxV, h.moored l x hl hx,
          fun hnot => hlV hnot.1⟩
  sound := sound_purged h.sound hpurged

/-- A save is the restoring of a list with one entity, which lasts. -/
theorem orderly_singleton (hs : s.Keyed) :
    s.Orderly [e] (s.restored [e]) ↔ s.Orderly [] (s.restored [e]) := by
  constructor
  · intro h
    refine ⟨fun {l x} hl _ hx => ?_, by simp⟩
    rcases (mem_restored hs).mp hx with ⟨p, hp, rfl⟩ | hx
    · obtain rfl := List.mem_singleton.mp hp
      by_cases hid : l = p.id
      · exact hid ▸ mem_of_sourceOf hl
      · refine h.source_first hl ?_
          ((mem_restored hs).mpr (Or.inl ⟨p, hp, rfl⟩))
        simpa using Ne.symm hid
    · exact hx
  · intro h
    refine ⟨fun hl _ hx => h.source_first hl (by simp) hx,
      fun {p x} hp hsource _ _ => ?_⟩
    obtain rfl := List.mem_singleton.mp hp
    have hlatest : latest [p] p.id = some p :=
      latest_of_nodup (by simp) List.mem_cons_self
    rw [sourceOf_restored hs, hlatest]
    exact hsource

/-- A move makes the back-references wrong only by storing an entity after a
link from it. -/
theorem Tethered.move (h : s.Tethered) (hmove : Move s t) :
    (s.Orderly [] t → t.Tethered) ∧ (t.Attached → s.Orderly [] t) := by
  have hkept (ht : t.Tethered)
      (hsubset : ∀ x, x ∈ t.entities → x ∈ s.entities) :
      (s.Orderly [] t → t.Tethered) ∧ (t.Attached → s.Orderly [] t) :=
    ⟨fun _ => ht, fun _ => orderly_of_subset hsubset⟩
  cases hmove with
  | kept => exact hkept h fun _ hx => hx
  | saved d endpoints _ =>
    have hbare : ∀ e ∈ [d.entity endpoints], e.linkedFrom = ∅ := by
      intro e he
      obtain rfl := List.mem_singleton.mp he
      rfl
    constructor
    · intro horderly
      exact h.restored hbare ((orderly_singleton h.keyed).mpr horderly)
    · intro hattached
      exact (orderly_singleton h.keyed).mp
        (Attached.orderly_restored hattached h.keyed hbare)
  | @updated id e accepted he =>
    have hsame (x : EntityId) :
        (s.place (e.updated accepted)).entities[x]?.map Entity.anchors =
          s.entities[x]?.map Entity.anchors := by
      have hid : (e.updated accepted).id = e.id := rfl
      exact map_entities_place Entity.anchors h.keyed he hid rfl x
    exact hkept (h.of_anchors_eq (h.keyed.place _) hsame)
      fun _ => (mem_entities_iff_of_anchors hsame).mp
  | retagged hsteps =>
    obtain ⟨ht, hsame⟩ := anchors_retagged h.keyed hsteps
    exact hkept (h.of_anchors_eq ht hsame) fun _ =>
      (mem_entities_iff_of_anchors hsame).mp
  | deleted hg _ hwalk =>
    subst hg
    have hpurged := purged_of_walk hwalk h.keyed
    exact hkept (h.purged (hwalk.keyed h.keyed) hpurged) fun _ hx =>
      (mem_of_purged hpurged hx).2

/-! ## Deleting -/

theorem Tethered.reaches_iff_depends (h : s.Tethered) (hx : x ∈ s.entities) :
    s.Reaches x y ↔ s.Depends x y := by
  constructor
  · exact depends_of_reaches h.sound
  · intro hdepends
    -- What depends on a stored entity is stored, so the links that start there
    -- hang on it.
    have hreach : s.Reaches x y ∧ y ∈ s.entities := by
      induction hdepends with
      | refl => exact ⟨.refl, hx⟩
      | @tail y l _ hsource ih =>
        obtain ⟨e, he, hl⟩ := h.moored l y hsource ih.2
        exact ⟨ih.1.step he hl, mem_of_sourceOf hsource⟩
    exact hreach.1

end VolatileStore

namespace Graph

section Runs

open VolatileStore (Attached Orderly Tethered)

variable {v : Graph VolatileStore} {op : Operation} {ops : List Operation}

theorem tethered_perform
    (h : v.store.Tethered) (hbare : ∀ e ∈ op.restored, e.linkedFrom = ∅) :
    (Orderly v.store op.restored (op.perform v).2.store →
      Tethered (op.perform v).2.store) ∧
      (Attached (op.perform v).2.store →
        Orderly v.store op.restored (op.perform v).2.store) := by
  cases hlocal : op.isLocal with
  | true =>
    have hnone : op.restored = [] := by
      cases op with
      | restore es => simp [Operation.isLocal] at hlocal
      | _ => rfl
    rw [hnone]
    exact h.move (Operation.perform_move h.keyed hlocal)
  | false =>
    cases op with
    | restore es =>
      rw [Operation.perform_restore h.keyed]
      exact ⟨h.restored hbare,
        fun hattached => hattached.orderly_restored h.keyed hbare⟩
    | _ => simp [Operation.isLocal] at hlocal

/-- As long as a run is orderly its links are tethered, and it is orderly as
long as they are attached. -/
theorem tethered_after (h : v.store.Tethered)
    (hbare : ∀ op ∈ ops, ∀ e ∈ op.restored, e.linkedFrom = ∅) :
    ((∀ before op rest, ops = before ++ op :: rest →
        Orderly (v.after before).store op.restored
          (v.after (before ++ [op])).store) →
      ∀ before, before <+: ops → (v.after before).store.Tethered) ∧
    ((∀ before, before <+: ops → (v.after before).store.Attached) →
      ∀ before op rest, ops = before ++ op :: rest →
        Orderly (v.after before).store op.restored
          (v.after (before ++ [op])).store) := by
  induction ops generalizing v with
  | nil =>
    constructor
    · intro _ before hbefore
      rw [List.prefix_nil.mp hbefore]
      exact h
    · intro _ before op rest hsplit
      simp at hsplit
  | cons op ops ih =>
    obtain ⟨htethered, horderly⟩ :=
      tethered_perform h (hbare op List.mem_cons_self)
    have hbare' : ∀ op ∈ ops, ∀ e ∈ op.restored, e.linkedFrom = ∅ :=
      fun op' hop => hbare op' (List.mem_cons_of_mem op hop)
    -- The first operation leaves the links tethered, so the rest of the run
    -- starts as the whole does.
    constructor
    · intro hrun before hbefore
      rcases List.prefix_cons_iff.mp hbefore with rfl | ⟨before', rfl, hbefore'⟩
      · exact h
      · refine (ih (htethered (hrun [] op ops rfl)) hbare').1 ?_
          before' hbefore'
        intro before op' rest hsplit
        exact hrun (op :: before) op' rest (by rw [hsplit, List.cons_append])
    · intro hrun before op' rest hsplit
      have hfirst := horderly (hrun [op] (List.prefix_append [op] ops))
      rcases List.cons_eq_append_iff.mp hsplit with
        ⟨rfl, hcons⟩ | ⟨before, rfl, hrest⟩
      · obtain ⟨rfl, rfl⟩ := List.cons.inj hcons
        exact hfirst
      · refine (ih (htethered hfirst) hbare').2 ?_ before op' rest hrest
        intro before hbefore
        exact hrun (op :: before) (List.cons_prefix_cons.mpr ⟨rfl, hbefore⟩)

end Runs

open FaithfulStore (Holds)

variable {σ : Type} [EntityStore σ] {g : Graph σ} {op : Operation}
  {ops : List Operation}

/-- Of the other stored ids, those among the back-references of a stored entity
are the links that start at it. -/
def Attached (g : Graph σ) : Prop :=
  ∀ x e, g.Stores x e → ∀ l p, g.Stores l p → l ≠ x →
    (l ∈ e.linkedFrom ↔ p.source? = some x)

/-- The operation stores no entity from which a link is stored already, unless
it restores the link as well, and no restored link is overwritten by another
entity of the list. -/
structure Orderly (g : Graph σ) (op : Operation) : Prop where
  source_first {l x : EntityId} :
    g.StartsAt l x → (∀ e ∈ op.restored, e.id ≠ l) →
    (∃ p, (op.perform g).2.Stores x p) → ∃ p, g.Stores x p
  link_lasts {e : Entity} {x : EntityId} :
    e ∈ op.restored → e.source? = some x → x ≠ e.id →
    (∃ p, (op.perform g).2.Stores x p) → (op.perform g).2.StartsAt e.id x

theorem attached_iff
    {m : VolatileStore} (h : Agrees g.store m) :
    g.Attached ↔ m.Attached := by
  have hhangs {l x : EntityId} {e : Entity} (he : m.entities[x]? = some e) :
      m.Hangs l x ↔ l ∈ e.linkedFrom := by simp [VolatileStore.Hangs, he]
  have hsource {l : EntityId} {p : Entity} (hp : m.entities[l]? = some p) :
      m.sourceOf l = p.source? := by simp [VolatileStore.sourceOf, hp]
  constructor
  · intro hg l x hne hl hx
    obtain ⟨p, hp⟩ := (mem_entities_iff h).mp hl
    obtain ⟨e, he⟩ := (mem_entities_iff h).mp hx
    rw [hhangs ((stores_iff h).mp he), hsource ((stores_iff h).mp hp)]
    exact hg x e he l p hp hne
  · intro hm x e he l p hp hne
    rw [← hhangs ((stores_iff h).mp he), ← hsource ((stores_iff h).mp hp)]
    exact hm l x hne ((mem_entities_iff h).mpr ⟨p, hp⟩)
      ((mem_entities_iff h).mpr ⟨e, he⟩)

theorem orderly_iff
    {m m' : VolatileStore} (h : Agrees g.store m)
    (h' : Agrees (op.perform g).2.store m') :
    g.Orderly op ↔ m.Orderly op.restored m' := by
  constructor
  · intro hg
    constructor
    · intro l x hl habsent hx
      exact (mem_entities_iff h).mpr (hg.source_first ((startsAt_iff h).mpr hl)
        habsent ((mem_entities_iff h').mp hx))
    · intro e x he hsource hne hx
      exact (startsAt_iff h').mp
        (hg.link_lasts he hsource hne ((mem_entities_iff h').mp hx))
  · intro hm
    constructor
    · intro l x hl habsent hx
      exact (mem_entities_iff h).mp (hm.source_first ((startsAt_iff h).mp hl)
        habsent ((mem_entities_iff h').mpr hx))
    · intro e x he hsource hne hx
      exact (startsAt_iff h').mpr
        (hm.link_lasts he hsource hne ((mem_entities_iff h').mpr hx))

variable [FaithfulStore σ]

/-- Entities without back-references are restored, among other operations, into
an empty graph whose store does not fail.  All the way its links are attached
exactly if every operation is orderly, and then deleting a stored entity removes
it with what depends on it. -/
theorem attached_after_iff
    (hempty : Holds g.store {}) (hjournal : g.journal = [])
    (hbare : ∀ op ∈ ops, ∀ e ∈ op.restored, e.linkedFrom = ∅)
    (hops : g.Unfailing ops) :
    ((∀ before, before <+: ops → (g.after before).Attached) ↔
      ∀ before op rest, ops = before ++ op :: rest →
        (g.after before).Orderly op) ∧
    ((∀ before op rest, ops = before ++ op :: rest →
        (g.after before).Orderly op) →
      ∀ x e, (g.after ops).Stores x e → (g.after ops).Unfailing [.delete x] →
        (delete x (g.after ops)).1 = .ok () ∧
          Removes x (g.after ops) (delete x (g.after ops)).2) := by
  obtain ⟨s, registry, validates, journal⟩ := g
  obtain rfl : journal = [] := hjournal
  have hreads {before : List Operation} (hbefore : before <+: ops) :
      Agrees (Graph.after { store := s, registry, validates } before).store
        (Graph.after { store := ({} : VolatileStore), registry, validates }
          before).store := by
    obtain ⟨rest, rfl⟩ := hbefore
    exact after_agrees hempty (unfailing_append.mp hops).1
  have horderly {before rest : List Operation} {op : Operation}
      (hsplit : ops = before ++ op :: rest) :
      Graph.Orderly (.after { store := s, registry, validates } before) op ↔
        VolatileStore.Orderly
          (Graph.after { store := {}, registry, validates } before).store
          op.restored
          (Graph.after { store := {}, registry, validates }
            (before ++ [op])).store := by
    have hnext : before ++ [op] <+: ops := ⟨rest, by simp [hsplit]⟩
    have hreads' := hreads hnext
    rw [after_append] at hreads'
    exact orderly_iff (hreads ⟨op :: rest, hsplit.symm⟩) hreads'
  obtain ⟨htethered, hordered⟩ :=
    tethered_after (v := { store := {}, registry, validates })
      VolatileStore.tethered_empty hbare
  have hstays (hrun : ∀ before op rest, ops = before ++ op :: rest →
      Graph.Orderly (.after { store := s, registry, validates } before) op) :=
    htethered fun before op rest hsplit =>
      (horderly hsplit).mp (hrun before op rest hsplit)
  constructor
  · constructor
    · intro hrun before op rest hsplit
      refine (horderly hsplit).mpr
        (hordered (fun before hbefore => ?_) before op rest hsplit)
      exact (attached_iff (hreads hbefore)).mp (hrun before hbefore)
    · intro hrun before hbefore
      exact (attached_iff (hreads hbefore)).mpr
        (hstays hrun before hbefore).attached
  · intro hrun x e he hdelete
    have hend := hreads (List.prefix_refl ops)
    have hv := hstays hrun ops (List.prefix_refl ops)
    have hx := (stores_iff hend).mp he
    obtain ⟨V, v', hdeletes, hwalk⟩ := delete_run_stored hv.keyed hx
    obtain ⟨hresult, hrel⟩ :=
      (after_related hempty hops).perform (.delete x) hdelete.2.1
    have hperform : Operation.perform (.delete x)
        (Graph.after { store := ({} : VolatileStore), registry, validates }
          ops) = (.ok (), v') := hdeletes
    rw [hperform] at hresult hrel
    refine ⟨hresult, removes_of_purged hend (hdelete.2.2.agrees hrel.store)
      (VolatileStore.purged_of_walk hwalk hv.keyed) (fun y => ?_) (hv.moored x)⟩
    rw [hwalk.visited_iff hv.keyed, ← hv.reaches_iff_depends
      ((mem_entities_iff hend).mpr ⟨e, he⟩)]
    simp

/-- A link whose target is missing, restored before its source. -/
def sourceAlong : List Operation :=
  [.restore [{ id := "l", kind := "k", endpoints := some ⟨"a", "b"⟩ },
    { id := "a", kind := "k" }]]

/-- The same link and its source, restored one after the other. -/
def sourceLate : List Operation :=
  [.restore [{ id := "l", kind := "k", endpoints := some ⟨"a", "b"⟩ }],
    .restore [{ id := "a", kind := "k" }]]

theorem attached_after_iff_sourceLate :
    (∀ before, before <+: sourceAlong →
      (Graph.after { store := ({} : VolatileStore) } before).Attached) ∧
    Removes "a" (Graph.after { store := ({} : VolatileStore) } sourceAlong)
      (delete "a" (.after { store := {} } sourceAlong)).2 ∧
    ¬∀ before, before <+: sourceLate →
      (Graph.after { store := ({} : VolatileStore) } before).Attached := by
  have hstart : Holds ({} : VolatileStore) {} :=
    ⟨rfl, VolatileStore.keyed_empty⟩
  have hunfailing (ops : List Operation) :
      Unfailing { store := ({} : VolatileStore) } ops :=
    unfailing_volatile VolatileStore.keyed_empty ops
  have hbare :
      ∀ op ∈ sourceAlong, ∀ e ∈ op.restored, e.linkedFrom = ∅ := by decide
  have hbare' :
      ∀ op ∈ sourceLate, ∀ e ∈ op.restored, e.linkedFrom = ∅ := by decide
  have halong := attached_after_iff hstart rfl hbare (hunfailing sourceAlong)
  have hlate := attached_after_iff hstart rfl hbare' (hunfailing sourceLate)
  have horderly : ∀ before op rest, sourceAlong = before ++ op :: rest →
      (Graph.after { store := ({} : VolatileStore) } before).Orderly op := by
    intro before op rest hsplit
    obtain ⟨rfl, hop⟩ : before = [] ∧ [op] = sourceAlong := by
      rcases List.cons_eq_append_iff.mp hsplit with
        ⟨rfl, hcons⟩ | ⟨before, -, hrest⟩
      · exact ⟨rfl, by rw [sourceAlong, (List.cons.inj hcons).1]⟩
      · simp at hrest
    obtain rfl := List.singleton_inj.mp hop
    constructor
    · rintro l x ⟨e, he, -⟩
      have hnone :
          (.ok none : Except StoreError (Option Entity)) = .ok (some e) := he
      cases hnone
    · intro e x he hsource _ _
      rcases List.mem_cons.mp he with rfl | he
      · obtain rfl : "a" = x := Option.some.inj hsource
        refine ⟨{ id := "l", kind := "k", endpoints := some ⟨"a", "b"⟩ },
          congrArg Except.ok ?_, rfl⟩
        decide
      · obtain rfl := List.mem_singleton.mp he
        cases hsource
  refine ⟨halong.1.mpr horderly, ?_, fun hattached => ?_⟩
  · have ha :
        Graph.Stores (.after { store := ({} : VolatileStore) } sourceAlong) "a"
          { id := "a", kind := "k", linkedFrom := .ofList ["l"] } := by
      refine congrArg Except.ok ?_
      decide
    have hdelete :=
      (unfailing_append.mp (hunfailing (sourceAlong ++ [.delete "a"]))).2
    exact (halong.2 horderly "a" _ ha hdelete).2
  · have hsecond := hlate.1.mp hattached [sourceLate.head (by decide)] _ [] rfl
    obtain ⟨p, hp⟩ := hsecond.source_first (l := "l") (x := "a")
      ⟨{ id := "l", kind := "k", endpoints := some ⟨"a", "b"⟩ },
        congrArg Except.ok (by decide), rfl⟩ (by decide)
          ⟨{ id := "a", kind := "k" }, congrArg Except.ok (by decide)⟩
    have hnone :
        (.ok none : Except StoreError (Option Entity)) = .ok (some p) := hp
    cases hnone

end Graph

end LinkGraph
