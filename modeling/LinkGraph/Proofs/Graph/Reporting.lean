import LinkGraph.Proofs.Graph.Journal
import LinkGraph.Proofs.Graph.Telling

/-!
# Handlers are told exactly what changed, and influence nothing

The calls of handlers in the course of a request, against the entities before
and after it.
-/

namespace LinkGraph

/-! ## Requests -/

/-- What a graph can be asked without changing it. -/
inductive Lookup where
  | get (id : EntityId)
  | find (id : EntityId)
  | load (id : EntityId)
  | attributes (id : EntityId)
  | list (name : String)
  | entities
  | entityCount
  | stats
  | snapshot

abbrev Lookup.Answer : Lookup → Type
  | get _ => Option Entity
  | find _ => Option Descriptor
  | load _ => LoadedEntity
  | attributes _ => Attributes
  | list _ => List Item
  | entities => List Entity
  | entityCount => Nat
  | stats => Stats
  | snapshot => List UInt8

/-- What a graph can be asked for: an operation that changes it, an action of an
entity, or a lookup. -/
inductive GraphRequest where
  | operate (op : Operation)
  | execute (id : EntityId) (action : String) (attributes : WireAttributes)
  | look (l : Lookup)

abbrev GraphRequest.Answer : GraphRequest → Type
  | operate _ => Reply
  | execute .. => Bool
  | look l => l.Answer

section Requests

variable {σ : Type} [EntityStore σ]

def Lookup.answer (g : Graph σ) : (l : Lookup) → Except StoreError l.Answer
  | get id => g.get? id
  | find id => g.find? id
  | load id => g.load id
  | attributes id => g.attributes id
  | list name => g.listItems name
  | entities => g.entities
  | entityCount => g.entityCount
  | stats => g.stats
  | snapshot => g.exportBytes

def GraphRequest.perform : (r : GraphRequest) → GraphM σ r.Answer
  | operate op => op.reply
  | execute id action attributes => Graph.execute id action attributes
  | look l => fun g => (l.answer g, g)

/-- No call on the store fails in the course of the request. -/
def GraphRequest.Unfailing (g : Graph σ) : GraphRequest → Prop
  | operate op => g.Unfailing [op]
  | execute .. | look _ => Readable g.store

/-- A lookup looks at the store only. -/
theorem Lookup.answer_congr
    {g g' : Graph σ} (h : g.store = g'.store) (l : Lookup) :
    l.answer g = l.answer g' := by
  have hstore (g : Graph σ) : l.answer g = l.answer { store := g.store } := by
    cases l <;> rfl
  rw [hstore g, h, ← hstore g']

end Requests

/-! ## What is to be told -/

/-- The calls are made at one point, one for each of the ids, in their order. -/
def CalledFor
    (point : HookPoint) (ids : List EntityId)
    (calls : List (HookPoint × Entity)) : Prop :=
  calls.map (fun call => (call.1, call.2.id)) = ids.map (point, ·)

theorem CalledFor.map
    (point : HookPoint) (es : List Entity) {treat : Entity → Entity}
    (htreat : ∀ e, (treat e).id = e.id) :
    CalledFor point (es.map Entity.id) (es.map fun e => (point, treat e)) := by
  simp [CalledFor, htreat]

/-- What handlers are to be told of an operation, given which entities are
stored before and after it. -/
def Operation.Tells
    (op : Operation) (before after : EntityId → Entity → Prop) (succeeds : Prop)
    (calls : List (HookPoint × Entity)) : Prop :=
  match op with
  | saveResource d | saveLink d _ =>
    (succeeds → CalledFor .created [d.id] calls) ∧ (¬succeeds → calls = [])
  | update id _ =>
    ((∃ e, before id e) → CalledFor .updated [id] calls) ∧
      ((∀ e, ¬before id e) → calls = [])
  | saveMixin mixin ids | updateMixin mixin ids =>
    ∃ gaining : List EntityId, CalledFor (.mixinAdded mixin) gaining calls ∧
      gaining.Pairwise (fun x y => ids.idxOf x < ids.idxOf y) ∧
      ∀ x, x ∈ gaining ↔ x ∈ ids ∧
        ∃ e e', before x e ∧ after x e' ∧ mixin ∉ e.mixins ∧ mixin ∈ e'.mixins
  | delete name =>
    ((∃ e, before name e) → ∃ removed : List EntityId,
      CalledFor .deleting removed calls ∧
      removed.Nodup ∧ ∀ x, x ∈ removed ↔ (∃ e, before x e) ∧ ∀ e, ¬after x e) ∧
    ((∀ e, ¬before name e) →
      ∃ losing : List EntityId, CalledFor (.mixinRemoved name) losing calls ∧
      losing.Pairwise (· < ·) ∧
      ∀ x, x ∈ losing ↔ ∃ e e', before x e ∧ after x e' ∧ name ∈ e.mixins ∧
        name ∉ e'.mixins)
  | restore _ => calls = []

/-- A call is about an entity as it is stored, after the change or before its
removal, as far as its id and its kind go. -/
def Concerns
    (before after : EntityId → Entity → Prop) (call : HookPoint × Entity) :
    Prop :=
  ∃ e, (if call.1 = .deleting then before call.2.id e else after call.2.id e) ∧
    e.kind = call.2.kind

namespace Graph

variable {g g' : Graph VolatileStore}

open VolatileStore (Keyed Indexed)

/-- The entities stored in a volatile graph. -/
def holds (g : Graph VolatileStore) (x : EntityId) (e : Entity) : Prop :=
  g.store.entities[x]? = some e

/-- Saving an entity calls its handler once, unless it is refused. -/
theorem save_tells
    (hs : Keyed g.store) (d : Draft) (endpoints : Option Endpoints) :
    ∃ calls, Calls g ((Operation.save d endpoints).perform g).2 calls ∧
      (Operation.save d endpoints).Tells g.holds
        ((Operation.save d endpoints).perform g).2.holds
        (((Operation.save d endpoints).perform g).1 = .ok ()) calls ∧
      ∀ call ∈ calls, Concerns g.holds
        ((Operation.save d endpoints).perform g).2.holds call := by
  have htells {after : EntityId → Entity → Prop} {succeeds : Prop}
      {calls : List (HookPoint × Entity)}
      (hok : succeeds → CalledFor .created [d.id] calls)
      (hrefused : ¬succeeds → calls = []) :
      (Operation.save d endpoints).Tells g.holds after succeeds calls := by
    cases endpoints with
    | none => exact ⟨hok, hrefused⟩
    | some ends => exact ⟨hok, hrefused⟩
  rcases perform_save hs d endpoints with ⟨hrun, -⟩ | ⟨error, hrun⟩
  · have hcalls : Calls g (g.saved (d.entity endpoints))
        [(.created, g.store.merged (d.entity endpoints))] :=
      .notified g _ _ (by simp)
    have hbare := bare_saved hs d endpoints d.id
    rw [if_pos rfl, Option.map_eq_some_iff] at hbare
    obtain ⟨e, he, hbare⟩ := hbare
    have hkind : e.kind = d.kind := congrArg Entity.kind hbare
    rw [hrun]
    refine ⟨_, hcalls, htells (fun _ => ?_) (by simp), fun call hcall => ?_⟩
    · simp [CalledFor, Draft.entity]
    · obtain rfl := List.mem_singleton.mp hcall
      refine ⟨e, ?_, ?_⟩
      · simpa [holds, Draft.entity] using he
      · rw [hkind, VolatileStore.merged_kind]
        rfl
  · rw [hrun]
    exact ⟨[], .refl g, htells (by simp) fun _ => rfl, List.forall_mem_nil _⟩

theorem update_tells
    (hs : Keyed g.store) (id : EntityId) (attributes : WireAttributes) :
    ∃ calls, Calls g (update id attributes g).2 calls ∧
      ((∃ e, g.holds id e) → CalledFor .updated [id] calls) ∧
      ((∀ e, ¬g.holds id e) → calls = []) ∧
      ∀ call ∈ calls,
          Concerns g.holds (update id attributes g).2.holds call := by
  rw [update_run]
  cases he : g.store.entities[id]? with
  | none =>
    refine ⟨[], .refl g, ?_, fun _ => rfl, nofun⟩
    rintro ⟨e, hstored⟩
    cases he.symm.trans hstored
  | some e =>
    obtain rfl : e.id = id := hs id e he
    refine ⟨_, .notified g _ _ (by simp), fun _ => rfl,
      fun hnone => absurd he (hnone e), ?_⟩
    intro call hcall
    obtain rfl := List.mem_singleton.mp hcall
    refine ⟨e.updated attributes.decoded, ?_, rfl⟩
    change (g.store.place (e.updated attributes.decoded)).entities[e.id]? = _
    rw [VolatileStore.entities_place]
    exact if_pos rfl

theorem saveMixin_tells
    (hs : Keyed g.store) (mixin : Category) (ids : List EntityId) :
    ∃ calls, Calls g (saveMixin mixin ids g).2 calls ∧
      (∃ gaining : List EntityId, CalledFor (.mixinAdded mixin) gaining calls ∧
        gaining.Pairwise (fun x y => ids.idxOf x < ids.idxOf y) ∧
        ∀ x, x ∈ gaining ↔ x ∈ ids ∧
          ∃ e e', g.holds x e ∧ (saveMixin mixin ids g).2.holds x e' ∧
          mixin ∉ e.mixins ∧ mixin ∈ e'.mixins) ∧
      ∀ call ∈ calls,
          Concerns g.holds (saveMixin mixin ids g).2.holds call := by
  obtain ⟨es, hcalls, horder, hmem⟩ := saveMixin_calls hs mixin ids
  have hafter {x : EntityId} {e : Entity} (hx : x ∈ ids) (he : g.holds x e) :
      (saveMixin mixin ids g).2.holds x (e.associated mixin) := by
    rw [holds, entities_saveMixin hs, if_pos hx, he, Option.map_some]
  have hgains {e : Entity} (hlacks : e.kind ≠ mixin ∧ mixin ∉ e.mixins) :
      e.associated mixin = e.gaining mixin := if_pos hlacks
  refine ⟨_, hcalls, ⟨es.map Entity.id, .map _ es fun _ => rfl, horder,
    fun x => ?_⟩, ?_⟩
  · rw [List.mem_map]
    constructor
    · rintro ⟨e, he, rfl⟩
      obtain ⟨hid, hstored, hlacks⟩ := (hmem e).mp he
      refine ⟨hid, e, _, hstored, hafter hid hstored, hlacks.2, ?_⟩
      rw [hgains hlacks]
      simp [Entity.gaining, Entity.bump]
    · rintro ⟨hid, e, e', he, he', hlacks, hcarries⟩
      obtain rfl : e.id = x := hs x e he
      obtain rfl : e.associated mixin = e' :=
        Option.some.inj ((hafter hid he).symm.trans he')
      have hkind : e.kind ≠ mixin := by
        intro hkind
        have hsame : e.associated mixin = e := if_neg fun h => h.1 hkind
        exact hlacks (hsame ▸ hcarries)
      exact ⟨e, (hmem e).mpr ⟨hid, he, hkind, hlacks⟩, rfl⟩
  · intro call hcall
    obtain ⟨e, he, rfl⟩ := List.mem_map.mp hcall
    obtain ⟨hid, hstored, hlacks⟩ := (hmem e).mp he
    have hgained : (saveMixin mixin ids g).2.holds e.id (e.gaining mixin) :=
      hgains hlacks ▸ hafter hid hstored
    exact ⟨e.gaining mixin, hgained, rfl⟩

theorem delete_stored_tells (hs : Keyed g.store) {name : String} {e : Entity}
    (he : g.holds name e) :
    ∃ calls, Calls g (delete name g).2 calls ∧
      (∃ removed : List EntityId, CalledFor .deleting removed calls ∧
        removed.Nodup ∧
        ∀ x, x ∈ removed ↔ (∃ e, g.holds x e) ∧
          ∀ e, ¬(delete name g).2.holds x e) ∧
      ∀ call ∈ calls, Concerns g.holds (delete name g).2.holds call := by
  obtain ⟨W, g', hrun, hwalk⟩ := delete_run_stored hs he
  obtain ⟨es, hes⟩ := hwalk.clears hs
  rw [hrun]
  refine ⟨_, hes.calls,
    ⟨es.map Entity.id, .map _ es fun _ => rfl, hes.once, fun x => ?_⟩, ?_⟩
  · rw [hes.mem, Std.ExtTreeMap.mem_iff_isSome_getElem?,
      Option.isSome_iff_exists, Std.ExtTreeMap.mem_iff_isSome_getElem?,
      Option.isSome_iff_exists, not_exists]
    exact Iff.rfl
  · intro call hcall
    obtain ⟨e', he', rfl⟩ := List.mem_map.mp hcall
    exact hes.kind he'

theorem delete_unstored_tells
    (hs : Indexed g.store) {name : String} (hname : ∀ e, ¬g.holds name e) :
    ∃ calls, Calls g (delete name g).2 calls ∧
      (∃ losing : List EntityId, CalledFor (.mixinRemoved name) losing calls ∧
        losing.Pairwise (· < ·) ∧
        ∀ x, x ∈ losing ↔ ∃ e e', g.holds x e ∧ (delete name g).2.holds x e' ∧
          name ∈ e.mixins ∧ name ∉ e'.mixins) ∧
      ∀ call ∈ calls, Concerns g.holds (delete name g).2.holds call := by
  have habsent : g.store.entities[name]? = none :=
    Option.eq_none_iff_forall_ne_some.mpr hname
  obtain ⟨es, hcalls, horder, hmem⟩ := delete_unstored_calls hs habsent
  have hafter {x : EntityId} {e : Entity} (he : g.holds x e) :
      (delete name g).2.holds x (e.dissociated name) := by
    rw [holds, entities_delete_unstored hs habsent, he, Option.map_some]
  have hloses {e : Entity} (hcarries : name ∈ e.mixins) :
      e.dissociated name = e.losing name :=
    if_pos hcarries
  refine ⟨_, hcalls, ⟨es.map Entity.id, .map _ es fun _ => rfl, horder,
    fun x => ?_⟩, ?_⟩
  · rw [List.mem_map]
    constructor
    · rintro ⟨e, he, rfl⟩
      obtain ⟨hstored, hcarries⟩ := (hmem e).mp he
      refine ⟨e, _, hstored, hafter hstored, hcarries, ?_⟩
      rw [hloses hcarries]
      simp [Entity.losing, Entity.bump]
    · rintro ⟨e, e', he, -, hcarries, -⟩
      obtain rfl : e.id = x := hs.keyed x e he
      exact ⟨e, (hmem e).mpr ⟨he, hcarries⟩, rfl⟩
  · intro call hcall
    obtain ⟨e, he, rfl⟩ := List.mem_map.mp hcall
    obtain ⟨hstored, hcarries⟩ := (hmem e).mp he
    have hlost : (delete name g).2.holds e.id (e.losing name) :=
      hloses hcarries ▸ hafter hstored
    exact ⟨e.losing name, hlost, rfl⟩

/-- On a volatile store whose index is exact, handlers are told what an
operation changes. -/
theorem perform_tells (hs : Indexed g.store) (op : Operation) :
    ∃ calls, Calls g (op.perform g).2 calls ∧
      op.Tells g.holds (op.perform g).2.holds ((op.perform g).1 =
        .ok ()) calls ∧
      ∀ call ∈ calls, Concerns g.holds (op.perform g).2.holds call := by
  cases op with
  | saveResource d => exact save_tells hs.keyed d none
  | saveLink d ends => exact save_tells hs.keyed d (some ends)
  | update id attributes =>
    rw [Operation.perform, forget_run]
    obtain ⟨calls, hcalls, hstored, habsent, hconcerns⟩ :=
      update_tells hs.keyed id attributes
    exact ⟨calls, hcalls, ⟨hstored, habsent⟩, hconcerns⟩
  | saveMixin mixin ids => exact saveMixin_tells hs.keyed mixin ids
  | updateMixin mixin ids => exact saveMixin_tells hs.keyed mixin ids
  | delete name =>
    by_cases hname : ∃ e, g.holds name e
    · obtain ⟨e, he⟩ := hname
      obtain ⟨calls, hcalls, htells, hconcerns⟩ :=
        delete_stored_tells hs.keyed he
      exact ⟨calls, hcalls, ⟨fun _ => htells, fun hnone => absurd he (hnone e)⟩,
        hconcerns⟩
    · obtain ⟨calls, hcalls, htells, hconcerns⟩ :=
        delete_unstored_tells hs (not_exists.mp hname)
      exact ⟨calls, hcalls,
        ⟨fun hstored => absurd hstored hname, fun _ => htells⟩, hconcerns⟩
  | restore es =>
    rw [Operation.perform_restore hs.keyed]
    exact ⟨[], .of_journal_eq rfl rfl, rfl, List.forall_mem_nil _⟩

end Graph

/-! ## On faithful stores -/

/-- What handlers are to be told in the course of a request. -/
def GraphRequest.Tells
    {σ : Type} [EntityStore σ] (request : GraphRequest) (g : Graph σ)
    (calls : List (HookPoint × Entity)) : Prop :=
  match request with
  | operate op =>
    op.Tells g.Stores (op.reply g).2.Stores (∃ r,
      (op.reply g).1 = .ok r) calls ∧
      ∀ call ∈ calls, Concerns g.Stores (op.reply g).2.Stores call
  | execute id action attributes =>
    (∀ e, g.Stores id e → calls = [(.action action attributes.decoded, e)]) ∧
      ((∀ e, ¬g.Stores id e) → calls = [])
  | look _ => calls = []

namespace Graph

section Requests

variable {σ : Type} [EntityStore σ] {g : Graph σ}

/-- Whoever performs an operation without looking at its answer sees the
same. -/
theorem perform_eq_reply (op : Operation) (g : Graph σ) :
    op.perform g = ((op.reply g).1.map fun _ => (), (op.reply g).2) := by
  have hforget {α : Type} (p : GraphM σ α) (f : α → Reply) :
      ((p g).1.map fun _ => (), (p g).2) =
        (((do return f (← p) : GraphM σ Reply) g).1.map fun _ => (),
          ((do return f (← p) : GraphM σ Reply) g).2) := by
    rw [map_run]
    cases (p g).1 with
    | ok a => rfl
    | error e => rfl
  have hunit (p : GraphM σ Unit) :
      p g = ((p g).1.map fun _ => (), (p g).2) := by
    rcases p g with ⟨r, g'⟩
    cases r with
    | ok u => rfl
    | error e => rfl
  cases op with
  | saveResource d => exact (forget_run _ g).trans (hforget _ .saved)
  | saveLink d ends => exact (forget_run _ g).trans (hforget _ .saved)
  | update id attributes => exact (forget_run _ g).trans (hforget _ .accepted)
  | saveMixin mixin ids => exact (hunit _).trans (hforget _ fun _ => .done)
  | updateMixin mixin ids => exact (hunit _).trans (hforget _ fun _ => .done)
  | delete name => exact (hunit _).trans (hforget _ fun _ => .done)
  | restore entities => exact (forget_run _ g).trans (hforget _ .restored)

theorem reply_ok_iff (op : Operation) (g : Graph σ) :
    (∃ r, (op.reply g).1 = .ok r) ↔ (op.perform g).1 = .ok () := by
  rw [perform_eq_reply]
  cases (op.reply g).1 with
  | ok r => simp [Except.map]
  | error e => simp [Except.map]

theorem registry_after
    (g : Graph σ) (ops : List Operation) :
    (g.after ops).registry = g.registry := by
  induction ops generalizing g with
  | nil => rfl
  | cons op ops ih =>
    obtain ⟨r, store, entries, hrun, -⟩ := (Composed.reply op).appends g
    have hself :
        op.reply g = (r, { g with store, journal := g.journal ++ entries }) :=
      hrun g.journal
    rw [after_cons, ih, perform_eq_reply, hself]

/-- What an action of an entity answers is what the handler of the entity
answers. -/
def actionAnswer
    (r : HookRegistry) (action : String) (attributes : WireAttributes)
    (e : Entity) : Except StoreError Bool :=
  ((r.handlerFor e).answer (.action action attributes.decoded) e).map fun _ => true

theorem execute_run
    (id : EntityId) (action : String) (attributes : WireAttributes)
    (g : Graph σ) :
    execute id action attributes g =
      match EntityStore.get g.store id with
      | .error error => (.error error, g)
      | .ok none => (.ok false, g)
      | .ok (some e) =>
        (actionAnswer g.registry action attributes e,
          { g with
            journal := g.journal ++
              [.called g.store (g.registry.handlerFor e).style
                (.action action attributes.decoded) e] }) := by
  have hfetch : fetch id g = (EntityStore.get g.store id, g) := rfl
  cases hget : EntityStore.get g.store id with
  | error error =>
    rw [hget] at hfetch
    rw [execute, bind_run_error hfetch]
  | ok e? =>
    rw [hget] at hfetch
    rw [execute, bind_run_ok hfetch]
    cases e? with
    | none => rfl
    | some e =>
      have hcall : callHandler (.action action attributes.decoded) e g =
          (.ok ((g.registry.handlerFor e).answer
              (.action action attributes.decoded) e),
            { g with
              journal := g.journal ++
                [.called g.store (g.registry.handlerFor e).style
                  (.action action attributes.decoded) e] }) := rfl
      simp only
      rw [bind_run_ok hcall, actionAnswer]
      cases (g.registry.handlerFor e).answer
        (.action action attributes.decoded) e with
      | ok u => rfl
      | error error => rfl

theorem execute_tells
    (hreadable : Readable g.store) (id : EntityId) (action : String)
    (attributes : WireAttributes) :
    ∃ calls, Calls g (execute id action attributes g).2 calls ∧
      (GraphRequest.execute id action attributes).Tells g calls := by
  obtain ⟨e?, hget⟩ := hreadable.get id
  have hrun := execute_run id action attributes g
  rw [hget] at hrun
  cases e? with
  | none =>
    rw [hrun]
    refine ⟨[], .refl g, fun e he => ?_, fun _ => rfl⟩
    cases hget.symm.trans he
  | some e =>
    rw [hrun]
    refine ⟨[(.action action attributes.decoded, e)], ⟨rfl, ?_⟩,
      fun e' he' => ?_, fun hnone => ?_⟩
    · simp [transcript, JournalEntry.shown, HookRegistry.tells, Hook.told]
    · obtain rfl : e = e' := by simpa using hget.symm.trans he'
      rfl
    · exact absurd hget (hnone e)

end Requests

section Faithful

variable {σ : Type} [EntityStore σ] [FaithfulStore σ] {g : Graph σ}
  {v : Graph VolatileStore}

theorem Related.transcript_eq
    (h : Related g v) :
    g.transcript = v.transcript := by
  have hshown : List.Forall₂ (fun x y => JournalEntry.shown x =
      JournalEntry.shown y) g.journal v.journal := by
    refine h.journal.imp fun x y hxy => ?_
    cases hxy with
    | called => rfl
    | failed => rfl
  exact List.forall₂_eq_eq_eq ▸
    List.forall₂_map_left_iff.mpr (List.forall₂_map_right_iff.mpr hshown)

theorem Related.calls
    {g' : Graph σ} {v' : Graph VolatileStore}
    {calls : List (HookPoint × Entity)} (h : Related g v) (h' : Related g' v')
    (hcalls : Calls v v' calls) :
    Calls g g' calls where
  registry := by rw [h'.registry, hcalls.registry, h.registry]
  transcript := by
    rw [h'.transcript_eq, hcalls.transcript, h.transcript_eq, h.registry]

theorem Mirrors.stores_eq (h : Mirrors g v) : g.Stores = v.holds := by
  funext x e
  exact propext (stores_iff h.agrees)

/-- In the course of a request that no call on the store fails in, handlers are
told what changes. -/
theorem Mirrors.request_tells (h : Mirrors g v) {request : GraphRequest}
    (hrequest : request.Unfailing g) :
    ∃ calls, Calls g (request.perform g).2 calls ∧ request.Tells g calls := by
  cases request with
  | operate op =>
    obtain ⟨hanswer, hmirrors⟩ := h.perform hrequest
    obtain ⟨calls, hcalls, htells, hconcerns⟩ := perform_tells h.indexed op
    have hreply : (op.reply g).2 = (op.perform g).2 := by rw [perform_eq_reply]
    refine ⟨calls, ?_, ?_, ?_⟩
    · change Calls g (op.reply g).2 calls
      rw [hreply]
      exact h.related.calls hmirrors.related hcalls
    · rw [reply_ok_iff, hreply, h.stores_eq, hmirrors.stores_eq, hanswer]
      exact htells
    · rw [hreply, h.stores_eq, hmirrors.stores_eq]
      exact hconcerns
  | execute id action attributes =>
    exact execute_tells h.readable id action attributes
  | look l => exact ⟨[], .refl g, rfl⟩

end Faithful

end Graph

end LinkGraph
