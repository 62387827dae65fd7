import LinkGraph.Proofs.Graph.Restoring

/-!
# What becomes of entities that are not saved

Saving a link rewrites its sources, deleting rewrites what its dependents
started at, and associating and dissociating a mixin rewrite whoever lacks or
carries it.  What a local operation makes of a stored entity that it does not
save is one function of the entity, its back-references apart.
-/

namespace LinkGraph

namespace Entity

/-- The entity after a mixin has been associated with it: one more mixin, unless
it is the kind or carried already. -/
def associated (mixin : Category) (e : Entity) : Entity :=
  if e.kind ≠ mixin ∧ mixin ∉ e.mixins then e.gaining mixin else e

/-- The entity after a mixin has been dissociated from it. -/
def dissociated (mixin : Category) (e : Entity) : Entity :=
  if mixin ∈ e.mixins then e.losing mixin else e

theorem associated_associated (mixin : Category) (e : Entity) :
    (e.associated mixin).associated mixin = e.associated mixin := by
  by_cases h : e.kind ≠ mixin ∧ mixin ∉ e.mixins
  · have hgains : e.associated mixin = e.gaining mixin := if_pos h
    have hcarries : mixin ∈ (e.gaining mixin).mixins := by simp [gaining, bump]
    rw [hgains]
    exact if_neg fun hnot => hnot.2 hcarries
  · have hsame : e.associated mixin = e := if_neg h
    rw [hsame, hsame]

theorem dissociated_dissociated (mixin : Category) (e : Entity) :
    (e.dissociated mixin).dissociated mixin = e.dissociated mixin := by
  by_cases h : mixin ∈ e.mixins
  · have hloses : e.dissociated mixin = e.losing mixin := if_pos h
    have hlacks : mixin ∉ (e.losing mixin).mixins := by simp [losing, bump]
    rw [hloses]
    exact if_neg hlacks
  · have hsame : e.dissociated mixin = e := if_neg h
    rw [hsame, hsame]

/-- Associating a mixin does not look at back-references. -/
theorem bare_associated (mixin : Category) (e : Entity) :
    (e.associated mixin).bare = e.bare.associated mixin := by
  unfold associated
  rw [apply_ite Entity.bare]
  rfl

end Entity

/-- Saves the entity of a draft, as a link if there are endpoints. -/
def Operation.save (d : Draft) : Option Endpoints → Operation
  | none => .saveResource d
  | some ends => .saveLink d ends

section Operations

variable {σ : Type} [EntityStore σ]

/-- No entity is stored under a name. -/
def Graph.Vacant (g : Graph σ) (name : String) : Prop :=
  g.get? name = .ok none

instance (g : Graph σ) (name : String) : Decidable (g.Vacant name) :=
  inferInstanceAs (Decidable (g.get? name = .ok none))

/-- The operation saves an entity under an id, and the graph takes it. -/
def Operation.Saves (g : Graph σ) (x : EntityId) (op : Operation) : Prop :=
  ∃ d endpoints, op = .save d endpoints ∧ d.id = x ∧ (op.perform g).1 = .ok ()

/-- What an operation makes of a stored entity that it does not save and does
not remove. -/
def Operation.amend (g : Graph σ) (e : Entity) : Operation → Entity
  | .update id attributes =>
    if id = e.id then e.updated attributes.decoded else e
  | .saveMixin mixin ids | .updateMixin mixin ids =>
    if e.id ∈ ids then e.associated mixin else e
  | .delete name => if g.Vacant name then e.dissociated name else e
  | _ => e

/-- An amended entity is the same, or has been updated, or has gained or lost a
mixin. -/
theorem Operation.amend_induction
    {P : Entity → Prop} {e : Entity} (g : Graph σ) (op : Operation) (kept : P e)
    (updated : ∀ accepted, P (e.updated accepted))
    (gained : ∀ mixin, e.kind ≠ mixin → mixin ∉ e.mixins → P (e.gaining mixin))
    (lost : ∀ mixin, mixin ∈ e.mixins → P (e.losing mixin)) :
    P (op.amend g e) := by
  have hassociated (mixin : Category) : P (e.associated mixin) := by
    unfold Entity.associated
    split
    · next hlacks => exact gained mixin hlacks.1 hlacks.2
    · exact kept
  have hdissociated (mixin : Category) : P (e.dissociated mixin) := by
    unfold Entity.dissociated
    split
    · next hcarries => exact lost mixin hcarries
    · exact kept
  cases op with
  | update id attributes =>
    by_cases h : id = e.id
    · simpa only [Operation.amend, h, if_true] using updated attributes.decoded
    · simpa only [Operation.amend, h, if_false] using kept
  | saveMixin mixin ids | updateMixin mixin ids =>
    by_cases h : e.id ∈ ids
    · simpa only [Operation.amend, h, if_true] using hassociated mixin
    · simpa only [Operation.amend, h, if_false] using kept
  | delete name =>
    by_cases h : g.Vacant name
    · simpa only [Operation.amend, h, if_true] using hdissociated name
    · simpa only [Operation.amend, h, if_false] using kept
  | _ => exact kept

end Operations

namespace Graph

open VolatileStore (Keyed Indexed)

variable {g : Graph VolatileStore} {name : String} {x : EntityId}
  {op : Operation}

/-! ## Going through lists of entities -/

theorem map_eq_self {e? : Option Entity} {treat : Entity → Entity}
    (h : ∀ e, e? = some e → treat e = e) : e?.map treat = e? := by
  cases e? with
  | none => rfl
  | some e => rw [Option.map_some, h e rfl]

/-- On each id it is given, the operation treats the entity stored there and
leaves all others alone. -/
def Treats
    (p : EntityId → GraphM VolatileStore Unit) (treat : Entity → Entity) :
    Prop :=
  ∀ id g, Keyed g.store → ∃ g', p id g = (.ok (), g') ∧ Keyed g'.store ∧
    ∀ x : EntityId, g'.store.entities[x]? =
      if x = id then g.store.entities[x]?.map treat else g.store.entities[x]?

theorem associate_treats
    (mixin : Category) :
    Treats (associate mixin) (.associated mixin) := by
  intro id g hs
  rcases associate_run_cases hs mixin id with
    ⟨hrun, hcarries⟩ | ⟨e, he, hkind, hmixin, hrun⟩
  · refine ⟨g, hrun, hs, fun x => ?_⟩
    by_cases hx : x = id
    · subst hx
      have hsame (e : Entity) (he : g.store.entities[x]? = some e) :
          e.associated mixin = e :=
        if_neg fun hlacks => (hcarries e he).elim hlacks.1 hlacks.2
      rw [if_pos rfl, map_eq_self hsame]
    · rw [if_neg hx]
  · refine ⟨_, hrun, hs.tagged e mixin, fun x => ?_⟩
    obtain rfl : e.id = id := hs id e he
    have htaken : e.associated mixin = e.gaining mixin := if_pos ⟨hkind, hmixin⟩
    rw [store_notified, VolatileStore.entities_tagged]
    by_cases hx : x = e.id
    · simp [hx, he, htaken]
    · simp [hx]

theorem dissociate_treats
    (mixin : Category) :
    Treats (dissociate mixin) (.dissociated mixin) := by
  intro id g hs
  rcases dissociate_run_cases hs mixin id with
    ⟨hrun, hlacks⟩ | ⟨e, he, hmixin, hrun⟩
  · refine ⟨g, hrun, hs, fun x => ?_⟩
    by_cases hx : x = id
    · subst hx
      have hsame (e : Entity) (he : g.store.entities[x]? = some e) :
          e.dissociated mixin = e :=
        if_neg (hlacks e he)
      rw [if_pos rfl, map_eq_self hsame]
    · rw [if_neg hx]
  · refine ⟨_, hrun, hs.untagged e mixin, fun x => ?_⟩
    obtain rfl : e.id = id := hs id e he
    have hshed : e.dissociated mixin = e.losing mixin := if_pos hmixin
    rw [store_notified, VolatileStore.entities_untagged]
    by_cases hx : x = e.id
    · simp [hx, he, hshed]
    · simp [hx]

/-- However often an id is listed, its entity is treated once. -/
theorem Treats.forM
    {p : EntityId → GraphM VolatileStore Unit} {treat : Entity → Entity}
    (h : Treats p treat) (honce : ∀ e, treat (treat e) = treat e)
    (ids : List EntityId) (hs : g.store.Keyed) :
    ∃ g', ids.forM p g = (.ok (), g') ∧ Keyed g'.store ∧ ∀ x : EntityId,
      g'.store.entities[x]? =
        if x ∈ ids then g.store.entities[x]?.map treat
        else g.store.entities[x]? := by
  induction ids generalizing g with
  | nil => exact ⟨g, rfl, hs, fun x => by simp⟩
  | cons id ids ih =>
    obtain ⟨g₁, hrun, hs₁, hstep⟩ := h id g hs
    obtain ⟨g₂, hrest, hs₂, hsteps⟩ := ih hs₁
    refine ⟨g₂, (bind_run_ok hrun).trans hrest, hs₂, fun x => ?_⟩
    -- an id that is listed again meets an entity that has been treated already
    have htwice : treat ∘ treat = treat := funext honce
    rw [hsteps, hstep]
    by_cases hx : x = id
    · by_cases hmem : x ∈ ids
      · simp [hx, hx ▸ hmem, htwice]
      · simp [hx, hx ▸ hmem]
    · simp [hx]

theorem entities_saveMixin
    (hs : g.store.Keyed) (mixin : Category) (ids : List EntityId)
    (x : EntityId) :
    (saveMixin mixin ids g).2.store.entities[x]? =
      if x ∈ ids then g.store.entities[x]?.map (.associated mixin)
      else g.store.entities[x]? := by
  obtain ⟨g', hrun, -, hentities⟩ :=
    (associate_treats mixin).forM (Entity.associated_associated mixin) ids hs
  rw [saveMixin, batched_run_ok hrun]
  exact hentities x

/-- Deleting a mixin reaches every entity that carries it, since the index is
exact. -/
theorem entities_delete_unstored
    (hs : g.store.Indexed) (hname : g.store.entities[name]? = none)
    (x : EntityId) :
    (delete name g).2.store.entities[x]? =
      g.store.entities[x]?.map (.dissociated name) := by
  have hlacks (hx : x ∉ g.store.bucket name) :
      g.store.entities[x]?.map (.dissociated name) = g.store.entities[x]? := by
    refine map_eq_self fun e he => if_neg fun hmixin => ?_
    exact hx ((hs.member name x).mpr ⟨e, he,
      Entity.mem_categories.mpr (Or.inr hmixin)⟩)
  rw [delete_run_unstored hname]
  cases hknown : g.store.index.contains name with
  | false =>
    have habsent : x ∉ g.store.bucket name := by
      rw [Std.ExtTreeMap.contains_eq_isSome_getElem?,
        Option.isSome_eq_false_iff, Option.isNone_iff_eq_none] at hknown
      simp [VolatileStore.bucket_eq, hknown]
    exact (hlacks habsent).symm
  | true =>
    obtain ⟨g', hrun, -, hentities⟩ :=
      (dissociate_treats name).forM (Entity.dissociated_dissociated name)
        (g.store.bucket name).toList hs.keyed
    have hrun' : batched (dissociateAll name) g = (.ok (), g') :=
      batched_run_ok hrun
    rw [if_pos rfl, hrun', hentities x]
    split
    · rfl
    · next hx =>
        exact (hlacks fun hmem => hx (Std.ExtTreeSet.mem_toList.mpr hmem)).symm

/-! ## Saving -/

/-- A save is taken or refused; a link that is taken has a stored source. -/
theorem perform_save
    (hs : g.store.Keyed) (d : Draft) (endpoints : Option Endpoints) :
    ((Operation.save d endpoints).perform g =
          (.ok (), g.saved (d.entity endpoints)) ∧
        ∀ y, (d.entity endpoints).source? = some y → y ∈ g.store.entities) ∨
      ∃ e, (Operation.save d endpoints).perform g = (.error e, g) := by
  cases endpoints with
  | none =>
    rw [Operation.save, Operation.perform, forget_run, saveResource_run hs]
    split
    · exact Or.inl ⟨rfl, fun y hy => by cases hy⟩
    · exact Or.inr ⟨_, rfl⟩
  | some ends =>
    rw [Operation.save, Operation.perform, forget_run, saveLink_run hs]
    split
    · cases hmissing : g.missingEndpoint? ends with
      | none =>
        refine Or.inl ⟨rfl, fun y hy => ?_⟩
        obtain rfl : ends.source = y := by
          simpa [Draft.entity, Entity.source?] using hy
        exact (stored_of_missingEndpoint?_eq_none hmissing).1
      | some endpoint => exact Or.inr ⟨_, rfl⟩
    · exact Or.inr ⟨_, rfl⟩

theorem bare_saved
    (hs : g.store.Keyed) (d : Draft) (endpoints : Option Endpoints)
    (x : EntityId) :
    (g.saved (d.entity endpoints)).store.entities[x]?.map Entity.bare =
      if x = d.id then some (d.entity endpoints)
      else g.store.entities[x]?.map Entity.bare := by
  rw [saved, store_notified, VolatileStore.bare_attached,
    VolatileStore.bare_replaced hs]
  rfl

/-! ## All operations -/

theorem bare_perform_save
    (hs : g.store.Keyed) (d : Draft) (endpoints : Option Endpoints)
    (hsaves : ¬(Operation.save d endpoints).Saves g x) :
    ((Operation.save d endpoints).perform g).2.store.entities[x]?.map
      Entity.bare =
      g.store.entities[x]?.map Entity.bare := by
  rcases perform_save hs d endpoints with ⟨hrun, -⟩ | ⟨e, hrun⟩
  · have hx : x ≠ d.id :=
      fun hx => hsaves ⟨d, endpoints, rfl, hx.symm, by rw [hrun]⟩
    rw [hrun, bare_saved hs, if_neg hx]
  · rw [hrun]

theorem vacant_iff : g.Vacant name ↔ g.store.entities[name]? = none := by
  change Except.ok g.store.entities[name]? = Except.ok none ↔ _
  rw [Except.ok.injEq]

theorem bare_perform_update
    (hs : g.store.Keyed) (id : EntityId) (attributes : WireAttributes)
    (x : EntityId) :
    ((Operation.update id attributes).perform g).2.store.entities[x]?.map
      Entity.bare =
      g.store.entities[x]?.map fun e =>
        ((Operation.update id attributes).amend g e).bare := by
  rw [Operation.perform, forget_run, update_run]
  -- the entities stored under other ids have these ids, so they are not the one
  -- that is updated
  have hother (hx : x ≠ id) : (g.store.entities[x]?.map fun e =>
      ((Operation.update id attributes).amend g e).bare) =
        g.store.entities[x]?.map Entity.bare := by
    refine Option.map_congr fun e he => ?_
    have hid : id ≠ e.id := by rw [hs x e he]; exact Ne.symm hx
    rw [Operation.amend, if_neg hid]
  cases he : g.store.entities[id]? with
  | none =>
    by_cases hx : x = id
    · simp [hx, he]
    · exact (hother hx).symm
  | some e =>
    obtain rfl : e.id = id := hs id e he
    simp only [store_notified, VolatileStore.entities_place]
    by_cases hx : x = e.id
    · simp [hx, he, Operation.amend, Entity.updated, Entity.bump]
    · rw [hother hx]
      simp [Entity.updated, Entity.bump, hx]

theorem bare_saveMixin
    (hs : g.store.Keyed) (mixin : Category) (ids : List EntityId)
    (x : EntityId) :
    (saveMixin mixin ids g).2.store.entities[x]?.map Entity.bare =
      g.store.entities[x]?.map fun e =>
        (if e.id ∈ ids then e.associated mixin else e).bare := by
  rw [entities_saveMixin hs]
  cases he : g.store.entities[x]? with
  | none => simp
  | some e =>
    obtain rfl : e.id = x := hs x e he
    by_cases hx : e.id ∈ ids
    · simp [hx]
    · simp [hx]

/-- What a local operation makes of an entity that it does not save, if it stays
stored. -/
theorem bare_perform
    (hs : g.store.Indexed) (hop : op.isLocal) (hsaves : ¬op.Saves g x)
    (hstays : x ∈ (op.perform g).2.store.entities) :
    (op.perform g).2.store.entities[x]?.map Entity.bare =
      g.store.entities[x]?.map fun e => (op.amend g e).bare := by
  cases op with
  | saveResource d => exact bare_perform_save hs.keyed d none hsaves
  | saveLink d ends => exact bare_perform_save hs.keyed d (some ends) hsaves
  | update id attributes => exact bare_perform_update hs.keyed id attributes x
  | saveMixin mixin ids => exact bare_saveMixin hs.keyed mixin ids x
  | updateMixin mixin ids => exact bare_saveMixin hs.keyed mixin ids x
  | delete name =>
    rw [Operation.perform] at hstays ⊢
    cases hname : g.store.entities[name]? with
    | none =>
      have hvacant : g.Vacant name := vacant_iff.mpr hname
      rw [entities_delete_unstored hs hname]
      simp only [Operation.amend, hvacant, if_true, Option.map_map]
      rfl
    | some e =>
      have hvacant : ¬g.Vacant name := by rw [vacant_iff, hname]; simp
      obtain ⟨V, g', hrun, hwalk⟩ := delete_run_stored hs.keyed hname
      rw [hrun] at hstays ⊢
      have hpurged := VolatileStore.purged_of_walk hwalk hs.keyed
      have hxV := (VolatileStore.mem_of_purged hpurged hstays).1
      rw [hpurged x, if_neg hxV]
      simp only [Operation.amend, hvacant, if_false, Option.map_map]
      rfl
  | restore es => simp [Operation.isLocal] at hop

/-! ## On faithful stores -/

section Faithful

variable {σ : Type} [EntityStore σ] [FaithfulStore σ] {g : Graph σ}
  {v : Graph VolatileStore} {op : Operation} {ops : List Operation}
  {x : EntityId} {e e' : Entity}

omit [FaithfulStore σ] in
theorem vacant_iff_of_agrees
    {m : VolatileStore} (h : Agrees g.store m) (name : String) :
    g.Vacant name ↔ m.entities[name]? = none := by
  rw [Vacant, get?, h.get, Except.ok.injEq]

theorem Mirrors.saves_iff (h : Mirrors g v) (hop : g.Unfailing [op]) :
    op.Saves g x ↔ op.Saves v x := by
  unfold Operation.Saves
  rw [(h.perform hop).1]

theorem Mirrors.vacant_iff
    (h : Mirrors g v) (name : String) :
    g.Vacant name ↔ v.Vacant name := by
  rw [Vacant, get?, h.agrees.get]
  rfl

theorem Mirrors.amend_eq (h : Mirrors g v) (op : Operation) (e : Entity) :
    op.amend g e = op.amend v e := by
  cases op with
  | delete name => simp only [Operation.amend, h.vacant_iff]
  | _ => rfl

/-- An entity that an operation leaves stored without saving it was stored
before, and is what the operation makes of it. -/
theorem Mirrors.amended
    (h : Mirrors g v) (hop : g.Unfailing [op]) (hlocal : op.isLocal)
    (hsaves : ¬op.Saves g x) (he' : (op.perform g).2.Stores x e') :
    ∃ e, g.Stores x e ∧ e'.bare = (op.amend g e).bare := by
  have hstored := (stores_iff (h.perform hop).2.agrees).mp he'
  have hbare := bare_perform h.indexed hlocal (hsaves ∘ (h.saves_iff hop).mpr)
    (VolatileStore.mem_of_getElem? hstored)
  rw [hstored, Option.map_some] at hbare
  obtain ⟨e, he, hamended⟩ := Option.map_eq_some_iff.mp hbare.symm
  exact ⟨e, (stores_iff h.agrees).mpr he, by rw [h.amend_eq, hamended]⟩

/-- An operation that saves an entity stores what its draft says. -/
theorem Mirrors.saved
    {d : Draft} {endpoints : Option Endpoints} (h : Mirrors g v)
    (hop : g.Unfailing [.save d endpoints])
    (haccepted : ((Operation.save d endpoints).perform g).1 = .ok ()) :
    ∃ e, ((Operation.save d endpoints).perform g).2.Stores d.id e ∧
      e.bare = d.entity endpoints := by
  obtain ⟨hanswer, hmirrors⟩ := h.perform hop
  rw [hanswer] at haccepted
  rcases perform_save h.indexed.keyed d endpoints with ⟨hrun, -⟩ | ⟨error, hrun⟩
  · have hbare := bare_saved h.indexed.keyed d endpoints d.id
    rw [if_pos rfl, Option.map_eq_some_iff] at hbare
    obtain ⟨e, he, hbare⟩ := hbare
    refine ⟨e, (stores_iff hmirrors.agrees).mpr ?_, hbare⟩
    rw [hrun]
    exact he
  · simp [hrun] at haccepted

end Faithful

end Graph

end LinkGraph
