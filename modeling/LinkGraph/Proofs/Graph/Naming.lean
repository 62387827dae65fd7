import LinkGraph.Proofs.Graph.Attempts
import LinkGraph.Proofs.Graph.BackReferences
import LinkGraph.Proofs.Graph.Listing
import LinkGraph.Proofs.Graph.Restoring

/-!
# Where names come from

A graph does not make up names.  Ids, kinds, mixins and endpoints come from what
operations save and associate, back-references are ids of stored links, and
buckets are named for the categories of their members.  What holds of all names
that are brought in holds of all names that are found.
-/

namespace LinkGraph

/-! ## Names that are brought in -/

/-- The names that a client gives to an entity are fit, its kind is admitted,
and is not also one of its mixins. -/
structure Entity.Named
    (fit : String → Prop) (admits : Category → Bool) (e : Entity) : Prop where
  id : fit e.id
  kind : fit e.kind
  mixins {mixin : Category} : mixin ∈ e.mixins → fit mixin
  endpoints {ends : Endpoints} :
    e.endpoints = some ends → fit ends.source ∧ fit ends.target
  admitted : admits e.kind
  apart : e.kind ∉ e.mixins

/-- The names that a local operation brings into a graph are fit. -/
def Operation.Brings (fit : String → Prop) : Operation → Prop
  | saveResource d => fit d.id ∧ fit d.kind ∧ ∀ mixin ∈ d.mixins, fit mixin
  | saveLink d ends =>
    (fit d.id ∧ fit d.kind ∧ ∀ mixin ∈ d.mixins, fit mixin) ∧ fit ends.source ∧
      fit ends.target
  | saveMixin mixin _ | updateMixin mixin _ => fit mixin
  | _ => True

section Entities

variable {fit : String → Prop} {admits : Category → Bool} {e e' : Entity}
  {mixin : Category}

/-- Back-references are not among the names that are brought in. -/
theorem Entity.named_bare : e.bare.Named fit admits ↔ e.Named fit admits :=
  ⟨fun h => ⟨h.id, h.kind, h.mixins, h.endpoints, h.admitted, h.apart⟩,
    fun h => ⟨h.id, h.kind, h.mixins, h.endpoints, h.admitted, h.apart⟩⟩

theorem Entity.Named.associated (h : e.Named fit admits) (hmixin : fit mixin) :
    (e.associated mixin).Named fit admits := by
  unfold Entity.associated
  split
  · next hlacks =>
    refine ⟨h.id, h.kind, fun {c} hc => ?_, h.endpoints, h.admitted,
      fun hkind => ?_⟩
    · have hc : mixin = c ∨ c ∈ e.mixins := by simpa [gaining, bump] using hc
      rcases hc with rfl | hc
      · exact hmixin
      · exact h.mixins hc
    · have hkind : mixin = e.kind ∨ e.kind ∈ e.mixins := by
        simpa [gaining, bump] using hkind
      exact hkind.elim (fun heq => hlacks.1 heq.symm) h.apart
  · exact h

theorem Entity.Named.dissociated (h : e.Named fit admits) (mixin : Category) :
    (e.dissociated mixin).Named fit admits := by
  unfold Entity.dissociated
  split
  · have hkept {c : Category} (hc : c ∈ (e.losing mixin).mixins) :
        c ∈ e.mixins := by
      have hc : mixin ≠ c ∧ c ∈ e.mixins := by simpa [losing, bump] using hc
      exact hc.2
    exact ⟨h.id, h.kind, fun hc => h.mixins (hkept hc), h.endpoints, h.admitted,
      fun hkind => h.apart (hkept hkind)⟩
  · exact h

theorem Entity.Named.amend
    {σ : Type} [EntityStore σ] (h : e.Named fit admits) {op : Operation}
    (hop : op.Brings fit) (g : Graph σ) :
    (op.amend g e).Named fit admits := by
  cases op with
  | update id attributes =>
    simp only [Operation.amend]
    split
    · exact ⟨h.id, h.kind, h.mixins, h.endpoints, h.admitted, h.apart⟩
    · exact h
  | saveMixin mixin ids | updateMixin mixin ids =>
    simp only [Operation.amend]
    split
    · exact h.associated hop
    · exact h
  | delete name =>
    simp only [Operation.amend]
    split
    · exact h.dissociated name
    · exact h
  | _ => exact h

/-- A draft never gives an entity its kind as a mixin. -/
theorem Draft.named {d : Draft} {endpoints : Option Endpoints}
    (hop : (Operation.save d endpoints).Brings fit) (hkind : admits d.kind) :
    (d.entity endpoints).Named fit admits := by
  have hdraft : (fit d.id ∧ fit d.kind ∧ ∀ mixin ∈ d.mixins, fit mixin) ∧
      ∀ ends, endpoints = some ends → fit ends.source ∧ fit ends.target := by
    cases endpoints with
    | none => exact ⟨hop, nofun⟩
    | some ends => exact ⟨hop.1, fun ends' h => Option.some.inj h ▸ hop.2⟩
  obtain ⟨⟨hid, hdkind, hmixins⟩, hends⟩ := hdraft
  refine ⟨hid, hdkind, fun {c} hc => ?_, fun {ends} h => hends ends h, hkind,
    fun hself => ?_⟩
  · have hc : c ∈ d.mixins ∧ c ≠ d.kind := by simpa [Draft.entity] using hc
    exact hmixins c hc.1
  · simp [Draft.entity] at hself

end Entities

/-! ## Names that are found -/

namespace Graph

section Operations

variable {σ : Type} [EntityStore σ]

/-- The graphs call the same handlers, and validate kinds or not both. -/
structure SameHandlers (g g' : Graph σ) : Prop where
  registry : g'.registry = g.registry
  validates : g'.validates = g.validates

omit [EntityStore σ] in
theorem SameHandlers.admits
    {g g' : Graph σ} (h : SameHandlers g g') :
    g'.admits = g.admits := by
  funext kind
  rw [Graph.admits, Graph.admits, h.registry, h.validates]

theorem sameHandlers_perform
    (op : Operation) (g : Graph σ) :
    SameHandlers g (op.perform g).2 := by
  obtain ⟨r, store, entries, hrun, -⟩ := perform_appends op g
  have hself :
      op.perform g = (r, { g with store, journal := g.journal ++ entries }) :=
    hrun g.journal
  rw [hself]
  exact ⟨rfl, rfl⟩

/-- What has been saved is of an admitted kind. -/
theorem admits_of_saves
    {g : Graph σ} {d : Draft} {endpoints : Option Endpoints}
    (h : ((Operation.save d endpoints).perform g).1 = .ok ()) :
    g.admits d.kind := by
  by_contra hnot
  have hcheck :
      checkCategory d.kind g = (.error (.unknownCategory d.kind), g) := by
    rw [checkCategory_run, if_neg hnot]
  cases endpoints with
  | none =>
    rw [Operation.save, Operation.perform, forget_run, saveResource,
      bind_run_error hcheck] at h
    cases h
  | some ends =>
    rw [Operation.save, Operation.perform, forget_run, saveLink,
      bind_run_error hcheck] at h
    cases h

end Operations

end Graph

namespace VolatileStore

variable {fit : String → Prop} {admits : Category → Bool}

/-- The index is exact, back-references are those of stored links, and what is
stored has been given fit names. -/
structure Named
    (fit : String → Prop) (admits : Category → Bool) (s : VolatileStore) :
    Prop where
  indexed : s.Indexed
  anchored : s.Anchored
  entity {x : EntityId} {e : Entity} :
    s.entities[x]? = some e → e.Named fit admits

theorem named_empty : Named fit admits {} where
  indexed := indexed_empty
  anchored := anchored_empty
  entity h := by simp at h

theorem Named.perform
    {g : Graph VolatileStore} (h : g.store.Named fit g.admits) {op : Operation}
    (hlocal : op.isLocal) (hop : op.Brings fit) :
    (op.perform g).2.store.Named fit g.admits where
  indexed := h.indexed.perform op
  anchored := h.anchored.move (Operation.perform_move h.indexed.keyed hlocal)
  entity {x e'} he' := by
    by_cases hsaves : op.Saves g x
    · obtain ⟨d, endpoints, rfl, rfl, haccepted⟩ := hsaves
      rcases Graph.perform_save h.indexed.keyed d endpoints with
        ⟨hrun, -⟩ | ⟨error, hrun⟩
      · have hbare := Graph.bare_saved h.indexed.keyed d endpoints d.id
        rw [hrun] at he'
        rw [if_pos rfl, he', Option.map_some, Option.some.injEq] at hbare
        rw [← Entity.named_bare, hbare]
        exact Draft.named hop (Graph.admits_of_saves haccepted)
      · simp [hrun] at haccepted
    · have hbare :=
        Graph.bare_perform h.indexed hlocal hsaves (mem_of_getElem? he')
      rw [he', Option.map_some] at hbare
      obtain ⟨e, he, hamended⟩ := Option.map_eq_some_iff.mp hbare.symm
      rw [← Entity.named_bare, ← hamended, Entity.named_bare]
      exact (h.entity he).amend hop g

end VolatileStore

namespace Graph

open FaithfulStore (Holds)

variable {σ : Type} [EntityStore σ] {fit : String → Prop} {g : Graph σ}

/-- All names in the graph are fit, no entity has its kind among its mixins, and
kinds without a handler are stored only if kinds are not validated. -/
structure WellNamed (fit : String → Prop) (g : Graph σ) : Prop where
  id {x : EntityId} {e : Entity} : g.Stores x e → e.id = x ∧ fit x
  kind {x : EntityId} {e : Entity} : g.Stores x e → fit e.kind
  mixins {x : EntityId} {e : Entity} {mixin : Category} :
    g.Stores x e → mixin ∈ e.mixins → fit mixin
  endpoints {x : EntityId} {e : Entity} {ends : Endpoints} : g.Stores x e →
    e.endpoints = some ends → fit ends.source ∧ fit ends.target
  linkedFrom {x l : EntityId} {e : Entity} :
    g.Stores x e → l ∈ e.linkedFrom → fit l
  buckets {names : List Category} {c : Category} :
    EntityStore.categories g.store = .ok names →
    c ∈ names → fit c
  apart {x : EntityId} {e : Entity} : g.Stores x e → e.kind ∉ e.mixins
  registered {x : EntityId} {e : Entity} : g.validates → g.Stores x e →
    g.registry.isRegistered e.kind

/-- If the empty name is not fit, what loads with an empty kind is not
stored. -/
theorem WellNamed.kind_load_eq_empty_iff
    (h : g.WellNamed fit) (hempty : ¬fit "") {id : EntityId} {e : LoadedEntity}
    (he : g.load id = .ok e) :
    e.kind = "" ↔ g.Vacant id := by
  unfold Graph.load at he
  unfold Vacant
  cases hget : g.get? id with
  | error error => simp [hget, bind, Except.bind] at he
  | ok stored? =>
    cases stored? with
    | none =>
      obtain rfl : LoadedEntity.empty id = e := by
        simpa [hget, bind, Except.bind, pure, Except.pure] using he
      simp [LoadedEntity.empty]
    | some stored =>
      obtain rfl : stored.content = e := by
        simpa [hget, bind, Except.bind, pure, Except.pure] using he
      have hkind : stored.kind ≠ "" := fun hkind => hempty (hkind ▸ h.kind hget)
      simp [Entity.content, hkind]

theorem wellNamed_of_holds
    [FaithfulStore σ] {m : VolatileStore} (h : Holds g.store m)
    (hm : m.Named fit g.admits) :
    g.WellNamed fit := by
  have hstored {x : EntityId} {e : Entity} (he : g.Stores x e) :
      m.entities[x]? = some e :=
    Except.ok.inj ((FaithfulStore.get h x).eq_of_ok he)
  have hentity {x : EntityId} {e : Entity} (he : g.Stores x e) :=
    hm.entity (hstored he)
  have hid {x : EntityId} {e : Entity} (he : m.entities[x]? = some e) : fit x :=
    hm.indexed.keyed x e he ▸ (hm.entity he).id
  constructor
  case id =>
    exact fun he => ⟨hm.indexed.keyed _ _ (hstored he), hid (hstored he)⟩
  case kind => exact fun he => (hentity he).kind
  case mixins => exact fun he => (hentity he).mixins
  case endpoints => exact fun he => (hentity he).endpoints
  case apart => exact fun he => (hentity he).apart
  case linkedFrom =>
    intro x l e he hl
    -- A back-reference is the id of a stored link, or that of the entity.
    rcases hm.anchored.sound ⟨e, hstored he, hl⟩ with rfl | hsource
    · exact hid (hstored he)
    · obtain ⟨link, hlink, -⟩ := Option.bind_eq_some_iff.mp hsource
      exact hid hlink
  case buckets =>
    intro names c hnames hc
    obtain rfl := Except.ok.inj ((FaithfulStore.categories h).eq_of_ok hnames)
    have hindex : c ∈ m.index := Std.ExtTreeMap.mem_keys.mp hc
    obtain ⟨e, he, hcategory⟩ :=
      List.mem_flatMap.mp (hm.indexed.mem_index.mp hindex)
    have hnamed := hm.entity (hm.indexed.keyed.mem_values.mp he)
    rcases Entity.mem_categories.mp hcategory with rfl | hmixin
    · exact hnamed.kind
    · exact hnamed.mixins hmixin
  case registered =>
    intro x e hvalidates he
    simpa [admits, hvalidates] using (hentity he).admitted

end Graph

end LinkGraph
