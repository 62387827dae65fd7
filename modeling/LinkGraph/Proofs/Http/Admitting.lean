import LinkGraph.Proofs.Graph.Naming
import LinkGraph.Proofs.Graph.Reporting
import LinkGraph.Proofs.Http.Refusing
import LinkGraph.Proofs.Results
import LinkGraph.Proofs.Store.Replay

/-!
# Only fit names are admitted

A call that may change the graph is performed only after every name that it
brings in has been checked, in whichever of its fields the name stands.  So all
names found in a session that has served nothing but requests are fit, those
that the graph derives included.
-/

namespace LinkGraph.Http

open FaithfulStore (Holds)
open SettlingStore (Steady)

/-! ## Checks -/

/-- A name is neither empty nor oversized. -/
def Fit (name : String) : Prop :=
  name ≠ "" ∧ name.utf8ByteSize ≤ maxIdentifierSize

theorem checkIdentifier_eq_ok {field value : String} :
    checkIdentifier field value = .ok () ↔ Fit value := by
  unfold checkIdentifier Fit
  by_cases hempty : value = ""
  · simp [hempty]
  · by_cases hsize : maxIdentifierSize < value.utf8ByteSize
    · simp [hempty, hsize]
    · simp [hempty, hsize, Nat.le_of_not_lt hsize]

/-- Of two checks made one after the other both have to pass. -/
theorem seq_eq_ok {p q : Except String Unit} :
    (p >>= fun _ => q) = .ok () ↔ p = .ok () ∧ q = .ok () := by
  cases p with
  | error message => simp [bind, Except.bind]
  | ok u => simp [bind, Except.bind]

theorem checkIdentifiers_eq_ok {field : String} {values : List String} :
    checkIdentifiers field values = .ok () ↔ ∀ value ∈ values, Fit value := by
  induction values with
  | nil => simp [checkIdentifiers, pure, Except.pure]
  | cons value values ih =>
    rw [List.forall_mem_cons, ← ih, ← @checkIdentifier_eq_ok field, ← seq_eq_ok]
    rfl

/-- The operation that a call runs if it may change the graph. -/
def Call.operation? : Call → Option Operation
  | saveResource d => some (.saveResource d)
  | saveLink d ends => some (.saveLink d ends)
  | update id attributes => some (.update id attributes)
  | saveMixin mixin ids => some (.saveMixin mixin ids)
  | delete name => some (.delete name)
  | _ => none

theorem Call.amends_eq
    (call : Call) :
    call.amends = call.operation?.isSome := by
  cases call with
  | _ => rfl

theorem Call.isLocal_operation
    {call : Call} {op : Operation} (h : call.operation? = some op) :
    op.isLocal := by
  cases call with
  | saveResource | saveLink | update | saveMixin | delete =>
    obtain rfl := Option.some.inj h
    rfl
  | _ => cases h

/-- The check covers every name that the operation of a call brings in. -/
theorem Call.brings_of_check
    {call : Call} {op : Operation} (h : call.operation? = some op)
    (hcheck : call.check = .ok ()) :
    op.Brings Fit := by
  cases call with
  | saveResource d =>
    obtain rfl := Option.some.inj h
    simp only [Call.check, seq_eq_ok, checkIdentifier_eq_ok,
      checkIdentifiers_eq_ok] at hcheck
    obtain ⟨hid, hkind, hmixins, -⟩ := hcheck
    exact ⟨hid, hkind, hmixins⟩
  | saveLink d ends =>
    obtain rfl := Option.some.inj h
    simp only [Call.check, seq_eq_ok, checkIdentifier_eq_ok,
      checkIdentifiers_eq_ok] at hcheck
    obtain ⟨hid, hkind, hsource, htarget, hmixins, -⟩ := hcheck
    exact ⟨⟨hid, hkind, hmixins⟩, hsource, htarget⟩
  | saveMixin mixin ids =>
    obtain rfl := Option.some.inj h
    simp only [Call.check, seq_eq_ok, checkIdentifier_eq_ok] at hcheck
    exact hcheck.1
  | update | delete =>
    obtain rfl := Option.some.inj h
    trivial
  | _ => cases h

/-! ## Performing -/

section Performing

variable {σ : Type} [EntityStore σ] (schema : Option String)

omit [EntityStore σ] schema in
theorem graph_run_map
    {α β : Type} (p : GraphM σ α) (f : α → β) (s : Session σ) :
    ((do return f (← Session.run p) : SessionM σ β) s).2.graph =
      (p s.graph).2 := by
  rw [map_run]
  rfl

theorem graph_perform
    {call : Call} {op : Operation} (h : call.operation? = some op)
    (s : Session σ) :
    (perform schema call s).2.graph = (op.perform s.graph).2 := by
  cases call with
  | saveResource d =>
    obtain rfl := Option.some.inj h
    rw [Operation.perform, Graph.forget_run]
    exact graph_run_map (Graph.saveResource d) _ s
  | saveLink d ends =>
    obtain rfl := Option.some.inj h
    rw [Operation.perform, Graph.forget_run]
    exact graph_run_map (Graph.saveLink d ends) _ s
  | update id attributes =>
    obtain rfl := Option.some.inj h
    rw [Operation.perform, Graph.forget_run]
    exact graph_run_map (Graph.update id attributes) _ s
  | saveMixin mixin ids =>
    obtain rfl := Option.some.inj h
    exact graph_run_map (Graph.saveMixin mixin ids) _ s
  | delete name =>
    obtain rfl := Option.some.inj h
    exact graph_run_map (Graph.delete name) _ s
  | _ => cases h

theorem sameHandlers_execute
    (id : EntityId) (action : String) (attributes : WireAttributes)
    (g : Graph σ) :
    Graph.SameHandlers g (Graph.execute id action attributes g).2 := by
  rw [Graph.execute_run]
  split
  · exact ⟨rfl, rfl⟩
  · exact ⟨rfl, rfl⟩
  · exact ⟨rfl, rfl⟩

omit [EntityStore σ] schema in
theorem graph_map
    {α β : Type} {q : SessionM σ α} {s : Session σ}
    (h : (q s).2.graph = s.graph) (f : α → β) :
    ((do return f (← q) : SessionM σ β) s).2.graph = s.graph := by
  rw [map_run]
  exact h

theorem sameHandlers_perform (call : Call) (s : Session σ) :
    Graph.SameHandlers s.graph (perform schema call s).2.graph := by
  have hkept (h : (perform schema call s).2.graph = s.graph) :
      Graph.SameHandlers s.graph (perform schema call s).2.graph := by
    rw [h]
    exact ⟨rfl, rfl⟩
  cases call with
  | saveResource | saveLink | update | saveMixin | delete =>
    rw [graph_perform schema rfl]
    exact Graph.sameHandlers_perform _ s.graph
  | action id name attributes =>
    have hrun := graph_run_map (Graph.execute id name attributes)
      (fun executed => Call.body true (Call.executedMembers executed) none) s
    have hexecute := sameHandlers_execute id name attributes s.graph
    rw [← hrun] at hexecute
    exact hexecute
  | list name =>
    refine hkept (graph_map ?_ _)
    obtain ⟨items, -, hrun⟩ | ⟨e, -, hrun⟩ := s.list_run_cases name
    · rw [hrun]
    · rw [hrun]
  | status =>
    refine hkept (congrArg Session.graph ?_)
    exact Session.Looks.bind (Session.lookup_looks _)
      (fun stats => fun _ => rfl) s
  | find id => exact hkept (graph_map (q := Session.lookup (·.find? id)) rfl _)
  | load id => exact hkept (graph_map (q := Session.lookup (·.load id)) rfl _)
  | next cursor start count =>
    exact hkept (graph_map (q := Session.next cursor start count) rfl _)
  | health | property | setProperty => exact hkept rfl

/-- The id that a request loads an entity for, if it does. -/
def Request.loads? (r : Request) : Option EntityId :=
  match resolve r with
  | .ok (.load id) => some id
  | _ => none

theorem resolve_of_loads
    {r : Request} {id : EntityId} (h : r.loads? = some id) :
    resolve r = .ok (.load id) := by
  unfold Request.loads? at h
  split at h
  · next id' hload =>
    obtain rfl := Option.some.inj h
    exact hload
  · cases h

/-- Entities are loaded by posting. -/
theorem method_of_load
    {r : Request} {id : EntityId} (h : resolve r = .ok (.load id)) :
    r.method = "POST" := by
  obtain hview | ⟨_, _, _, -, hpost, -⟩ | ⟨name, hcall | hcall⟩ :=
    resolve_cases h
  · obtain hcall | hcall := eq_health_or_status_of_view hview <;> cases hcall
  · exact hpost
  · cases hcall
  · cases hcall

omit [EntityStore σ] schema in
theorem not_successful_of_error {body : Option Json} (e : StoreError) :
    ¬(⟨statusOf e, body⟩ : Response).Successful := by
  unfold Response.Successful statusOf
  cases e with
  | _ => simp

/-- The answer to a load that succeeds is what the graph loads. -/
theorem serve_load
    {r : Request} {id : EntityId} {s : Session σ}
    (h : resolve r = .ok (.load id)) (hok : (serve schema r s).1.Successful) :
    ∃ e, s.graph.load id = .ok e ∧
      (serve schema r s).1 =
        ⟨200, some (Call.body true (Call.loadedMembers e) none)⟩ := by
  have hperform :
      (perform schema (.load id) s).1 = (s.graph.load id).map fun e =>
        Call.body true (Call.loadedMembers e) none :=
    congrArg Prod.fst (map_run (Session.lookup (·.load id))
      (fun e => Call.body true (Call.loadedMembers e) none) s)
  have hpost : r.method ≠ "HEAD" := by
    rw [method_of_load h]
    decide
  obtain ⟨hcheck, -⟩ |
      ⟨call, body, hresolve, -, ⟨json, hr, hbody, hrun⟩ | ⟨e, -, -, hrun⟩⟩ :=
    serve_cases schema r s
  · obtain ⟨message, hmessage⟩ := hcheck _ h
    cases hmessage
  · obtain rfl : call = .load id := Except.ok.inj (hresolve.symm.trans h)
    rw [hperform] at hr
    obtain ⟨e, he, rfl⟩ := map_eq_ok.mp hr
    rw [hrun, hbody hpost]
    exact ⟨e, he, rfl⟩
  · rw [hrun] at hok
    exact absurd hok (not_successful_of_error e)

end Performing

/-! ## Serving -/

section Serving

variable {σ : Type} [EntityStore σ] (schema : Option String)

theorem sameHandlers_serve (r : Request) (s : Session σ) :
    Graph.SameHandlers s.graph (serve schema r s).2.graph := by
  rcases serve_performs schema r s with hsame | ⟨call, -, -, hserve⟩
  · rw [hsame]
    exact ⟨rfl, rfl⟩
  · rw [hserve]
    exact sameHandlers_perform schema call s

variable [FaithfulStore σ] [SettlingStore σ]

/-- The names stored in a session are fit. -/
def NamesFit (s : Session σ) : Prop :=
  Graph.Settled (·.Named Fit s.graph.admits) s.graph.store

theorem NamesFit.serve {s : Session σ} (h : NamesFit s) (r : Request) :
    NamesFit (serve schema r s).2 := by
  rw [NamesFit, (sameHandlers_serve schema r s).admits]
  rcases serve_performs schema r s with hsame | ⟨call, -, hcheck, hserve⟩
  · rw [hsame]
    exact h
  · rw [hserve]
    cases hop : call.operation? with
    | none =>
      have hspares : call.amends = false := by rw [Call.amends_eq, hop]; rfl
      rw [perform_spares schema hspares s]
      exact h
    | some op =>
      rw [graph_perform schema hop]
      refine Graph.Settled.perform h op fun m hm _ => ?_
      exact VolatileStore.Named.perform (g := s.graph.upon m) hm
        (Call.isLocal_operation hop) (Call.brings_of_check hop hcheck)

theorem NamesFit.served
    {s : Session σ} (h : NamesFit s) {exchanges : List (Exchange σ)}
    (hmedium : ∀ x ∈ exchanges, ∀ s m, Holds s m → Holds (x.meanwhile s) m) :
    NamesFit (served schema s exchanges) ∧
      Graph.SameHandlers s.graph (served schema s exchanges).graph := by
  induction exchanges generalizing s with
  | nil => exact ⟨h, rfl, rfl⟩
  | cons x exchanges ih =>
    obtain ⟨hsteady, m, hm, hnamed⟩ := h
    have hfound : NamesFit (x.finds s) :=
      ⟨x.steady hsteady, m, hmedium x List.mem_cons_self _ _ hm, hnamed⟩
    obtain ⟨hserved, hsame⟩ := ih (hfound.serve schema x.request) fun y hy =>
      hmedium y (List.mem_cons_of_mem x hy)
    have hstep := sameHandlers_serve schema x.request (x.finds s)
    exact ⟨hserved, hsame.registry.trans hstep.registry,
      hsame.validates.trans hstep.validates⟩

/-- Whatever requests are served on an empty store, and whatever its medium
refuses meanwhile, all names found are fit, and an entity loads with an empty
kind exactly if it is not stored. -/
theorem wellNamed_served {s : Session σ} (hsteady : Steady s.graph.store)
    (hempty : Holds s.graph.store {}) {exchanges : List (Exchange σ)}
    (hmedium : ∀ x ∈ exchanges, ∀ s m, Holds s m → Holds (x.meanwhile s) m) :
    let left := served schema s exchanges
    Graph.SameHandlers s.graph left.graph ∧ left.graph.WellNamed Fit ∧
    ∀ r id, resolve r = .ok (.load id) → (serve schema r left).1.Successful →
      ∃ e, (serve schema r left).1 = ⟨200,
        some (Call.body true (Call.loadedMembers e) none)⟩ ∧
        (e.kind = "" ↔ left.graph.Vacant id) := by
  intro left
  obtain ⟨⟨-, m, hm, hnamed⟩, hsame⟩ := NamesFit.served schema
    (⟨hsteady, {}, hempty, VolatileStore.named_empty⟩ : NamesFit s) hmedium
  have hwell : left.graph.WellNamed Fit := Graph.wellNamed_of_holds hm hnamed
  refine ⟨hsame, hwell, fun r id hresolve hok => ?_⟩
  obtain ⟨e, he, hresponse⟩ := serve_load schema hresolve hok
  exact ⟨e, hresponse, hwell.kind_load_eq_empty_iff (fun h => h.1 rfl) he⟩

omit schema in
/-- What the tables hold does not depend on what the medium answers. -/
theorem holds_of_refusal {s : DurableStore} {m : VolatileStore} (h : Holds s m)
    (refusal : Option String) : Holds { s with refusal } m := by
  obtain ⟨base, h⟩ := h
  exact ⟨base, h.base_keyed, h.base_pruned, h.keyed, h.pruned, h.tables,
    h.entity, h.bucket, h.opened⟩

end Serving

def posted (target body : String) : Request where
  method := "POST"
  target
  body

/-- A resource lists its kind among its mixins, a link is refused for its empty
target, and the medium has come to refuse writes when a mixin is associated. -/
def partlyRefused : List (Exchange DurableStore) :=
  [{ request := posted "/save_resource"
        "\x7b\"id\":\"vm1\",\"kind\":\"compute\",\"mixins\":[\"compute\",\"gpu\"]\x7d" },
    { request := posted "/save_link"
        "\x7b\"id\":\"l1\",\"kind\":\"compute\",\"source\":\"vm1\",\"target\":\"\"\x7d" },
    { request := posted "/save_mixin"
        "\x7b\"mixin\":\"hot\",\"entity_ids\":[\"vm1\"]\x7d"
      meanwhile s := { s with refusal := some "disk full" } }]

def computeHandled : HookRegistry :=
  ({} : HookRegistry).register "compute" .silent

theorem wellNamed_served_partlyRefused :
    let left := served none (.onTables {} computeHandled true) partlyRefused
    left.graph.WellNamed Fit ∧ ¬left.graph.Vacant "vm1" ∧
    ∃ e, (serve none (posted "/load" "\x7b\"id\":\"vm1\"\x7d") left).1 =
      ⟨200, some (Call.body true (Call.loadedMembers e) none)⟩ ∧
      e.kind ≠ "" := by
  intro left
  have hempty :
      Holds (Session.onTables {} computeHandled true).graph.store {} :=
    ⟨_, (DurableStore.tracks_empty none).reflects⟩
  have hmedium :
      ∀ x ∈ partlyRefused, ∀ s m, Holds s m → Holds (x.meanwhile s) m := by
    simp only [partlyRefused, List.forall_mem_cons]
    exact ⟨fun _ _ h => h, fun _ _ h => h,
      fun _ _ h => holds_of_refusal h _, by simp⟩
  obtain ⟨-, hwell, hload⟩ := wellNamed_served none
    (steady_onTables {} computeHandled true) hempty hmedium
  have hstored : ¬left.graph.Vacant "vm1" := by decide +kernel
  have hloads :
      (posted "/load" "\x7b\"id\":\"vm1\"\x7d").loads? = some "vm1" := by
    decide +kernel
  obtain ⟨e, hresponse, hkind⟩ :=
    hload _ "vm1" (resolve_of_loads hloads) (by decide +kernel)
  exact ⟨hwell, hstored, e, hresponse, fun hnone => hstored (hkind.mp hnone)⟩

end LinkGraph.Http
