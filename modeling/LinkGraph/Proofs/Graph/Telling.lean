import LinkGraph.Proofs.Graph.Amending

/-!
# What handlers are told

A journal shows which handler was called, at which point and about which entity.
On a volatile store the calls of each operation are computed here from what it
does to the entities: handlers are called for those that it saves, updates,
removes or whose mixins it changes, and for no others.
-/

namespace LinkGraph

/-- The entry without the state of the store at that moment. -/
def JournalEntry.shown {σ : Type} : JournalEntry σ → JournalEntry Unit
  | called _ style point e => .called () style point e
  | failed point id error => .failed point id error

/-- What a journal shows of the call of a handler: the call, and how it failed.
The answer to an action is not noted, it is the answer of the operation. -/
def Hook.told (hook : Hook) (point : HookPoint) (e : Entity) : Journal Unit :=
  .called () hook.style point e ::
    match point, hook.answer point e with
    | .action .., _ | _, .ok () => []
    | _, .error error => [.failed point e.id error]

namespace HookRegistry

/-- The handler registered last for a kind, or else the handler of all other
kinds. -/
def lastFor
    (fallback : Hook) (hooks : List (Category × Hook)) (kind : Category) :
    Hook :=
  ((hooks.reverse.find? (·.1 = kind)).map (·.2)).getD fallback

theorem handlerFor_register
    (r : HookRegistry) (kind : Category) (hook : Hook) (e : Entity) :
    (r.register kind hook).handlerFor e =
      if kind = e.kind then hook else r.handlerFor e := by
  rw [handlerFor, register, Std.ExtTreeMap.getD_insert]
  simp only [Std.LawfulEqCmp.compare_eq_iff_eq, handlerFor]

theorem handlerFor_registerAll
    (fallback : Hook) (hooks : List (Category × Hook)) (e : Entity) :
    (({ fallback } : HookRegistry).registerAll hooks).handlerFor e =
      lastFor fallback hooks e.kind := by
  induction hooks using List.reverseRecOn with
  | nil => rfl
  | append_singleton hooks last ih =>
    have hregister :
        ({ fallback } : HookRegistry).registerAll (hooks ++ [last]) =
          (({ fallback } : HookRegistry).registerAll hooks).register last.1
            last.2 := by
      simp [registerAll]
    rw [hregister, handlerFor_register, lastFor, List.reverse_concat,
      List.find?_cons]
    by_cases hkind : last.1 = e.kind
    · simp [hkind]
    · simpa [hkind, lastFor] using ih

/-- What a journal shows of calls of handlers of the registry. -/
def tells
    (r : HookRegistry) (calls : List (HookPoint × Entity)) : Journal Unit :=
  calls.flatMap fun (point, e) => (r.handlerFor e).told point e

end HookRegistry

namespace Graph

/-- What the journal of a graph shows. -/
def transcript {σ : Type} (g : Graph σ) : Journal Unit :=
  g.journal.map JournalEntry.shown

/-- From `g` to `g'` the handlers have been called at these points about these
entities. -/
structure Calls
    {σ : Type} (g g' : Graph σ) (calls : List (HookPoint × Entity)) : Prop where
  registry : g'.registry = g.registry
  transcript : g'.transcript = g.transcript ++ g.registry.tells calls

namespace Calls

variable {σ : Type} {g g' g'' : Graph σ}
  {calls calls' : List (HookPoint × Entity)}

theorem of_journal_eq
    (hregistry : g'.registry = g.registry) (hjournal : g'.journal = g.journal) :
    Calls g g' [] where
  registry := hregistry
  transcript := by simp [Graph.transcript, hjournal, HookRegistry.tells]

theorem refl (g : Graph σ) : Calls g g [] :=
  .of_journal_eq rfl rfl

theorem trans
    (h : Calls g g' calls) (h' : Calls g' g'' calls') :
    Calls g g'' (calls ++ calls') where
  registry := h'.registry.trans h.registry
  transcript := by
    rw [h'.transcript, h.transcript, h.registry, List.append_assoc,
      HookRegistry.tells, HookRegistry.tells, HookRegistry.tells,
      List.flatMap_append]

/-- A handler is told of a point that is no action, in whatever state the store
is. -/
theorem of_reports
    {s : σ} {point : HookPoint} {e : Entity}
    (hregistry : g'.registry = g.registry)
    (hjournal : g'.journal = g.journal ++ reports { g with store := s } point e)
    (hpoint : ∀ name attributes, point ≠ .action name attributes) :
    Calls g g' [(point, e)] where
  registry := hregistry
  transcript := by
    simp only [Graph.transcript, hjournal, reports, HookRegistry.tells,
      List.map_append, List.flatMap_singleton, List.map_cons,
      JournalEntry.shown, Hook.told]
    congr 2
    cases hanswer : (g.registry.handlerFor e).answer point e with
    | ok u => cases point <;> rfl
    | error error =>
      cases point with
      | action name attributes => exact absurd rfl (hpoint name attributes)
      | _ => rfl

theorem notified (g : Graph σ) (s : σ) {point : HookPoint} (e : Entity)
    (hpoint : ∀ name attributes, point ≠ .action name attributes) :
    Calls g ({ g with store := s }.notified point e) [(point, e)] :=
  .of_reports rfl rfl hpoint

end Calls

open VolatileStore (Keyed Indexed)

/-! ## Going through lists of entities -/

/-- On each id it is given, the operation treats the entity stored there and
calls its handler, if the entity is concerned, and does nothing otherwise. -/
def Rounds (p : EntityId → GraphM VolatileStore Unit) (point : HookPoint)
    (concerned : Entity → Prop) (treat : Entity → Entity) : Prop :=
  ∀ id g, Keyed g.store →
    (p id g = (.ok (), g) ∧ ∀ e, g.store.entities[id]? = some e →
      ¬concerned e) ∨
    ∃ e s, g.store.entities[id]? = some e ∧ concerned e ∧ Keyed s ∧
      (∀ x : EntityId, s.entities[x]? =
        if x = id then some (treat e) else g.store.entities[x]?) ∧
      p id g = (.ok (), { g with store := s }.notified point (treat e))

theorem associate_rounds (mixin : Category) :
    Rounds (associate mixin) (.mixinAdded mixin) (fun e => e.kind ≠ mixin ∧
      mixin ∉ e.mixins)
      (·.gaining mixin) := by
  intro id g hs
  rcases associate_run_cases hs mixin id with
    ⟨hrun, hcarries⟩ | ⟨e, he, hkind, hmixin, hrun⟩
  · refine Or.inl ⟨hrun, fun e he hlacks => ?_⟩
    exact (hcarries e he).elim hlacks.1 hlacks.2
  · refine Or.inr ⟨e, _, he, ⟨hkind, hmixin⟩, hs.tagged e mixin,
      fun x => ?_, hrun⟩
    rw [VolatileStore.entities_tagged, hs id e he]

theorem dissociate_rounds (mixin : Category) :
    Rounds (dissociate mixin) (.mixinRemoved mixin) (mixin ∈ ·.mixins)
      (·.losing mixin) := by
  intro id g hs
  rcases dissociate_run_cases hs mixin id with
    ⟨hrun, hlacks⟩ | ⟨e, he, hmixin, hrun⟩
  · exact Or.inl ⟨hrun, hlacks⟩
  · refine Or.inr ⟨e, _, he, hmixin, hs.untagged e mixin, fun x => ?_, hrun⟩
    rw [VolatileStore.entities_untagged, hs id e he]

/-- However often an id is listed, the handler of its entity is called at most
once, in its turn. -/
theorem Rounds.forM
    {p : EntityId → GraphM VolatileStore Unit} {point : HookPoint}
    {concerned : Entity → Prop} {treat : Entity → Entity}
    (h : Rounds p point concerned treat)
    (hpoint : ∀ name attributes, point ≠ .action name attributes)
    (honce : ∀ e, ¬concerned (treat e)) (ids : List EntityId)
    {g : Graph VolatileStore} (hs : Keyed g.store) :
    ∃ (g' : Graph VolatileStore) (es : List Entity),
      ids.forM p g = (.ok (), g') ∧
      Calls g g' (es.map fun e => (point, treat e)) ∧
      (es.map Entity.id).Pairwise (fun x y => ids.idxOf x < ids.idxOf y) ∧
      ∀ e, e ∈ es ↔ e.id ∈ ids ∧ g.store.entities[e.id]? = some e ∧
        concerned e := by
  induction ids generalizing g with
  | nil => exact ⟨g, [], rfl, .refl g, List.Pairwise.nil, by simp⟩
  | cons id ids ih =>
    -- Whoever is called later is listed again or further on, and not under this
    -- id.
    have hlater {es : List Entity} (hne : ∀ e ∈ es, e.id ≠ id) (horder :
        (es.map Entity.id).Pairwise (fun x y => ids.idxOf x < ids.idxOf y)) :
        (es.map Entity.id).Pairwise (fun x y => (id :: ids).idxOf x <
          (id :: ids).idxOf y) := by
      refine horder.imp_of_mem fun {x y} hx hy hlt => ?_
      obtain ⟨e, he, rfl⟩ := List.mem_map.mp hx
      obtain ⟨e', he', rfl⟩ := List.mem_map.mp hy
      rw [List.idxOf_cons_ne _ (hne e he).symm,
        List.idxOf_cons_ne _ (hne e' he').symm]
      exact Nat.succ_lt_succ hlt
    rcases h id g hs with
      ⟨hrun, hpassed⟩ | ⟨e₀, s, he₀, hconcerned, hs', hentities, hrun⟩
    · obtain ⟨g', es, hrest, hcalls, horder, hmem⟩ := ih hs
      have hne : ∀ e ∈ es, e.id ≠ id := by
        rintro e he rfl
        obtain ⟨-, hstored, hconcerned⟩ := (hmem e).mp he
        exact hpassed e hstored hconcerned
      refine ⟨g', es, (bind_run_ok hrun).trans hrest, hcalls, hlater hne horder,
        fun e => ?_⟩
      rw [hmem, List.mem_cons]
      constructor
      · rintro ⟨hin, hrest⟩
        exact ⟨Or.inr hin, hrest⟩
      · rintro ⟨rfl | hin, hstored, hconcerned⟩
        · exact absurd hconcerned (hpassed e hstored)
        · exact ⟨hin, hstored, hconcerned⟩
    · obtain ⟨g', es, hrest, hcalls, horder, hmem⟩ :=
        ih (g := { g with store := s }.notified point (treat e₀)) hs'
      obtain rfl : e₀.id = id := hs id e₀ he₀
      have hne : ∀ e ∈ es, e.id ≠ e₀.id := by
        intro e he hid
        obtain ⟨-, hstored, hconcerned⟩ := (hmem e).mp he
        rw [store_notified, hentities, if_pos hid] at hstored
        obtain rfl := Option.some.inj hstored
        exact honce e₀ hconcerned
      refine ⟨g', e₀ :: es, (bind_run_ok hrun).trans hrest,
        (Calls.notified g s (treat e₀) hpoint).trans hcalls, ?_, fun e => ?_⟩
      · refine List.pairwise_cons.mpr ⟨fun x hx => ?_, hlater hne horder⟩
        obtain ⟨e, he, rfl⟩ := List.mem_map.mp hx
        rw [List.idxOf_cons_self, List.idxOf_cons_ne _ (hne e he).symm]
        exact Nat.succ_pos _
      · rw [List.mem_cons, List.mem_cons, hmem, store_notified, hentities]
        by_cases hid : e.id = e₀.id
        · rw [if_pos hid, hid, he₀]
          constructor
          · rintro (rfl | ⟨-, hstored, hconcerned⟩)
            · exact ⟨Or.inl rfl, rfl, hconcerned⟩
            · obtain rfl := Option.some.inj hstored
              exact absurd hconcerned (honce e₀)
          · rintro ⟨-, hstored, -⟩
            exact Or.inl (Option.some.inj hstored).symm
        · rw [if_neg hid]
          constructor
          · rintro (rfl | ⟨hin, hrest⟩)
            · exact absurd rfl hid
            · exact ⟨Or.inr hin, hrest⟩
          · rintro ⟨hid' | hin, hrest⟩
            · exact absurd hid' hid
            · exact Or.inr ⟨hin, hrest⟩

section Operations

variable {g g' g'' : Graph VolatileStore} {es es' : List Entity} {name : String}

/-- Saving a mixin calls the handlers of those that lacked it, in the order in
which they are listed. -/
theorem saveMixin_calls
    (hs : Keyed g.store) (mixin : Category) (ids : List EntityId) :
    ∃ es : List Entity, Calls g (saveMixin mixin ids g).2
        (es.map fun e => (.mixinAdded mixin, e.gaining mixin)) ∧
      (es.map Entity.id).Pairwise (fun x y => ids.idxOf x < ids.idxOf y) ∧
      ∀ e, e ∈ es ↔ e.id ∈ ids ∧ g.store.entities[e.id]? = some e ∧
        e.kind ≠ mixin ∧ mixin ∉ e.mixins := by
  have honce (e : Entity) :
      ¬((e.gaining mixin).kind ≠ mixin ∧ mixin ∉ (e.gaining mixin).mixins) := by
    simp [Entity.gaining, Entity.bump]
  obtain ⟨g', es, hrun, hcalls, horder, hmem⟩ :=
    (associate_rounds mixin).forM (by simp) honce ids hs
  rw [saveMixin, batched_run_ok hrun]
  exact ⟨es, hcalls, horder, hmem⟩

theorem lt_of_idxOf_lt
    {names : List String} (hsorted : names.Pairwise (· < ·)) {x y : String}
    (hx : x ∈ names) (hy : y ∈ names) (h : names.idxOf x < names.idxOf y) :
    x < y := by
  have hlt := List.pairwise_iff_getElem.mp hsorted
    _ _ (List.idxOf_lt_length_of_mem hx) (List.idxOf_lt_length_of_mem hy) h
  rwa [List.getElem_idxOf, List.getElem_idxOf] at hlt

/-- Deleting a mixin calls the handlers of those that carried it, in the order
of their ids. -/
theorem delete_unstored_calls
    (hs : Indexed g.store) (hname : g.store.entities[name]? = none) :
    ∃ es : List Entity, Calls g (delete name g).2
        (es.map fun e => (.mixinRemoved name, e.losing name)) ∧
      (es.map Entity.id).Pairwise (· < ·) ∧
      ∀ e, e ∈ es ↔ g.store.entities[e.id]? = some e ∧ name ∈ e.mixins := by
  have hbucket {e : Entity} (he : g.store.entities[e.id]? = some e)
      (hmixin : name ∈ e.mixins) : e.id ∈ (g.store.bucket name).toList :=
    Std.ExtTreeSet.mem_toList.mpr
      ((hs.member name e.id).mpr
        ⟨e, he, Entity.mem_categories.mpr (Or.inr hmixin)⟩)
  rw [delete_run_unstored hname]
  cases hknown : g.store.index.contains name with
  | false =>
    refine ⟨[], .refl g, List.Pairwise.nil, fun e => ?_⟩
    have habsent : (g.store.bucket name).toList = [] := by
      rw [Std.ExtTreeMap.contains_eq_isSome_getElem?,
        Option.isSome_eq_false_iff, Option.isNone_iff_eq_none] at hknown
      simp [VolatileStore.bucket_eq, hknown]
    constructor
    · nofun
    · rintro ⟨he, hmixin⟩
      have hmem := hbucket he hmixin
      rw [habsent] at hmem
      cases hmem
  | true =>
    have honce (e : Entity) : ¬name ∈ (e.losing name).mixins := by
      simp [Entity.losing, Entity.bump]
    obtain ⟨g', es, hrun, hcalls, horder, hmem⟩ :=
      (dissociate_rounds name).forM (by simp) honce
        (g.store.bucket name).toList hs.keyed
    have hrun' : batched (dissociateAll name) g = (.ok (), g') :=
      batched_run_ok hrun
    rw [if_pos rfl, hrun']
    refine ⟨es, hcalls, horder.imp_of_mem fun {x y} hx hy hlt => ?_,
      fun e => ?_⟩
    · obtain ⟨e, he, rfl⟩ := List.mem_map.mp hx
      obtain ⟨e', he', rfl⟩ := List.mem_map.mp hy
      exact lt_of_idxOf_lt (sorted_names _) ((hmem e).mp he).1
        ((hmem e').mp he').1 hlt
    · rw [hmem]
      constructor
      · exact And.right
      · exact fun h => ⟨hbucket h.1 h.2, h⟩

/-! ## Cascades -/

/-- From `g` to `g'` the entities have been removed, each after a call of its
handler. -/
structure Clears (g g' : Graph VolatileStore) (es : List Entity) : Prop where
  calls : Calls g g' (es.map fun e => (.deleting, e))
  once : (es.map Entity.id).Nodup
  mem (x : EntityId) :
    x ∈ es.map Entity.id ↔ x ∈ g.store.entities ∧ x ∉ g'.store.entities
  kind {e : Entity} :
    e ∈ es → ∃ p, g.store.entities[e.id]? = some p ∧ p.kind = e.kind
  kept {x : EntityId} {e : Entity} : g'.store.entities[x]? = some e →
    ∃ p, g.store.entities[x]? = some p ∧ p.kind = e.kind

namespace Clears

theorem refl (g : Graph VolatileStore) : Clears g g [] where
  calls := .refl g
  once := List.nodup_nil
  mem x := by simp
  kind := nofun
  kept he := ⟨_, he, rfl⟩

theorem stored
    (h : Clears g g' es) {x : EntityId} (hx : x ∈ g'.store.entities) :
    x ∈ g.store.entities := by
  rw [Std.ExtTreeMap.mem_iff_isSome_getElem?, Option.isSome_iff_exists] at hx ⊢
  obtain ⟨e, he⟩ := hx
  obtain ⟨p, hp, -⟩ := h.kept he
  exact ⟨p, hp⟩

theorem trans
    (h : Clears g g' es) (h' : Clears g' g'' es') :
    Clears g g'' (es ++ es') where
  calls := by
    rw [List.map_append]
    exact h.calls.trans h'.calls
  once := by
    rw [List.map_append, List.nodup_append]
    refine ⟨h.once, h'.once, ?_⟩
    rintro x hx y hy rfl
    exact ((h.mem x).mp hx).2 ((h'.mem x).mp hy).1
  mem x := by
    rw [List.map_append, List.mem_append, h.mem, h'.mem]
    constructor
    · rintro (⟨hx, hgone⟩ | ⟨hx, hgone⟩)
      · exact ⟨hx, fun hx' => hgone (h'.stored hx')⟩
      · exact ⟨h.stored hx, hgone⟩
    · rintro ⟨hx, hgone⟩
      by_cases hx' : x ∈ g'.store.entities
      · exact Or.inr ⟨hx', hgone⟩
      · exact Or.inl ⟨hx, hx'⟩
  kind {e} he := by
    rcases List.mem_append.mp he with he | he
    · exact h.kind he
    · obtain ⟨p, hp, hkind⟩ := h'.kind he
      obtain ⟨q, hq, hkind'⟩ := h.kept hp
      exact ⟨q, hq, hkind'.trans hkind⟩
  kept he := by
    obtain ⟨p, hp, hkind⟩ := h'.kept he
    obtain ⟨q, hq, hkind'⟩ := h.kept hp
    exact ⟨q, hq, hkind'.trans hkind⟩

theorem removing {e : Entity} (he : g.store.entities[e.id]? = some e) :
    Clears g (g.removing e) [e] where
  calls := .of_reports (s := g.store) rfl rfl (by simp)
  once := List.nodup_singleton _
  mem x := by
    change x ∈ [e.id] ↔ x ∈ g.store.entities ∧ x ∉ (g.store.erased e).entities
    rw [List.mem_singleton, Std.ExtTreeMap.mem_iff_isSome_getElem?,
      Std.ExtTreeMap.mem_iff_isSome_getElem?, VolatileStore.entities_erased]
    by_cases hx : x = e.id
    · simp [hx, he]
    · by_cases hlink : e.source? = some x
      · simp [hx, hlink]
      · simp [hx, hlink]
  kind {p} hp := by
    obtain rfl := List.mem_singleton.mp hp
    exact ⟨p, he, rfl⟩
  kept {x p} hp := by
    change (g.store.erased e).entities[x]? = some p at hp
    rw [VolatileStore.entities_erased] at hp
    split at hp
    · cases hp
    · split at hp
      · obtain ⟨q, hq, rfl⟩ := Option.map_eq_some_iff.mp hp
        exact ⟨q, hq, rfl⟩
      · exact ⟨p, hp, rfl⟩

end Clears

theorem Walk.clears
    {ids : List EntityId} {V W : NameSet} (h : Walk ids V g W g')
    (hs : Keyed g.store) :
    ∃ es, Clears g g' es := by
  induction h with
  | done => exact ⟨[], .refl _⟩
  | seen _ _ ih => exact ih hs
  | absent _ _ _ ih => exact ih hs
  | removed _ _ hdeps he₁ _ ihdeps ih =>
    have hs₁ := hdeps.keyed hs
    obtain ⟨es, hes⟩ := ihdeps hs
    obtain ⟨es', hes'⟩ := ih (hs₁.erased _)
    have hremoving := Clears.removing ((hs₁ _ _ he₁).symm ▸ he₁)
    exact ⟨_, (hes.trans hremoving).trans hes'⟩

end Operations

end Graph

end LinkGraph
