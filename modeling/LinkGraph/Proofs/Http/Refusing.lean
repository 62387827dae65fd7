import LinkGraph.Http.Router
import LinkGraph.Proofs.Graph.Settling
import LinkGraph.Proofs.Results
import LinkGraph.Proofs.Session.Cursors

/-!
# A refused request leaves no trace

What a request may do to a session is decided by the call it makes.  The calls
that amend the graph run one operation each, which takes effect as a whole or
not at all; the others do not touch the store.  A read of a cursor takes the
cursor away whatever it answers, which is the one thing that a refused request
can change.
-/

namespace LinkGraph

open SettlingStore (Steady)

/-! ## Operations of a session -/

namespace Session

section Frames

variable {σ α β : Type}

/-- The operation leaves the session as it is. -/
def Looks (q : SessionM σ α) : Prop :=
  ∀ s, (q s).2 = s

/-- The operation leaves the store as it is. -/
def Spares (q : SessionM σ α) : Prop :=
  ∀ s, (q s).2.graph.store = s.graph.store

theorem lookup_looks
    (read : Graph σ → Except StoreError α) :
    Looks (lookup read) :=
  fun _ => rfl

theorem Looks.bind {q : SessionM σ α} {f : α → SessionM σ β} (hq : Looks q)
    (hf : ∀ a, Looks (f a)) : Looks (q >>= f) := by
  intro s
  have hs := hq s
  rcases hrun : q s with ⟨r, s'⟩
  rw [hrun] at hs
  obtain rfl : s' = s := hs
  cases r with
  | error e => rw [bind_run_error hrun]
  | ok a => rw [bind_run_ok hrun, hf a s']

theorem Looks.spares {q : SessionM σ α} (hq : Looks q) : Spares q := by
  intro s
  rw [hq s]

theorem Spares.map {q : SessionM σ α} (hq : Spares q) (f : α → β) :
    Spares (do return f (← q)) := by
  intro s
  rw [map_run]
  exact hq s

theorem run_spares {p : GraphM σ α} (hp : Graph.Still p) : Spares (run p) :=
  fun s => hp s.graph

theorem next_spares
    (name : String) (start count : Nat) :
    Spares (next name start count : SessionM σ _) :=
  fun _ => rfl

end Frames

variable {σ α β : Type} [EntityStore σ]

theorem list_spares
    (name : String) :
    Spares (list name : SessionM σ CursorHandle) := by
  intro s
  obtain ⟨items, -, hrun⟩ | ⟨e, -, hrun⟩ := s.list_run_cases name
  · rw [hrun]
  · rw [hrun]

variable [SettlingStore σ]

/-- From a steady session on the operation fails and leaves store and cursors as
they are, or leaves a steady session. -/
def Traceless (q : SessionM σ α) : Prop :=
  ∀ s, Steady s.graph.store → Steady (q s).2.graph.store ∧
    ∀ e, (q s).1 = .error e → (q s).2.graph.store = s.graph.store ∧
      (q s).2.cursors = s.cursors

theorem Looks.traceless {q : SessionM σ α} (hq : Looks q) : Traceless q := by
  intro s hs
  rw [hq s]
  exact ⟨hs, fun _ _ => ⟨rfl, rfl⟩⟩

theorem Traceless.map {q : SessionM σ α} (hq : Traceless q) (f : α → β) :
    Traceless (do return f (← q)) := by
  intro s hs
  obtain ⟨hsteady, hfailed⟩ := hq s hs
  rw [map_run]
  refine ⟨hsteady, fun e he => ?_⟩
  cases hr : (q s).1 with
  | ok a => simp [hr, Except.map] at he
  | error e' => exact hfailed e' hr

theorem run_traceless
    {p : GraphM σ α} (hp : Graph.Atomic p) :
    Traceless (run p) := by
  intro s hs
  change Steady (p s.graph).2.store ∧ ∀ e, (p s.graph).1 = .error e →
    (p s.graph).2.store = s.graph.store ∧ s.cursors = s.cursors
  rcases hp s.graph hs with ⟨e, hr, hstore⟩ | ⟨a, hr, hsteady⟩
  · rw [hstore]
    exact ⟨hs, fun _ _ => ⟨rfl, rfl⟩⟩
  · refine ⟨hsteady, fun e he => ?_⟩
    rw [hr] at he
    cases he

theorem list_traceless
    (name : String) :
    Traceless (list name : SessionM σ CursorHandle) := by
  intro s hs
  obtain ⟨items, -, hrun⟩ | ⟨e, -, hrun⟩ := s.list_run_cases name
  · rw [hrun]
    exact ⟨hs, nofun⟩
  · rw [hrun]
    exact ⟨hs, fun _ _ => ⟨rfl, rfl⟩⟩

end Session

/-- Running an action leaves the store as it is, whatever the handler
answers. -/
theorem Graph.execute_still
    {σ : Type} [EntityStore σ] (id : EntityId) (action : String)
    (attributes : WireAttributes) :
    Still (execute id action attributes : GraphM σ Bool) := by
  intro g
  rcases hfetch : (fetch id : GraphM σ (Option Entity)) g with ⟨r, g₁⟩
  obtain rfl : g = g₁ := congrArg Prod.snd hfetch
  cases r with
  | error e => rw [execute, bind_run_error hfetch]
  | ok e? =>
    rw [execute, bind_run_ok hfetch]
    cases e? with
    | none => rfl
    | some e =>
      rcases hcall : callHandler (.action action attributes.decoded) e g with
        ⟨answer?, g₂⟩
      have hstore : g₂.store = g.store := by
        have hrun :
            (callHandler (.action action attributes.decoded) e g).2.store =
              g.store := rfl
        rw [hcall] at hrun
        exact hrun
      cases answer? with
      | error error =>
        dsimp only
        rw [bind_run_error hcall]
        exact hstore
      | ok answer =>
        dsimp only
        rw [bind_run_ok hcall]
        cases answer with
        | error error => exact hstore
        | ok u => exact hstore

namespace Http

/-! ## Calls -/

/-- The call runs an operation that may change the graph. -/
def Call.amends : Call → Bool
  | saveResource _ | saveLink .. | update .. | saveMixin .. | delete _ => true
  | _ => false

def amendingPaths : List String :=
  ["/save_resource", "/save_link", "/update", "/save_mixin", "/update_mixin",
    "/delete"]

/-- What is read as a record is made of the values of its fields. -/
theorem record_eq_ok
    {types : List Type} {fields : Json.Fields types}
    {make : Json.Row types → Call} {depth : Nat} {tree : Json.Tree}
    {call : Call} (h : fields.record make depth tree = .ok call) :
    ∃ row, make row = call := by
  obtain ⟨row, -, hrow⟩ := map_eq_ok.mp h
  exact ⟨row, hrow⟩

theorem readBody_eq_ok
    {reader : Json.Reader Call} {r : Request} {call : Call}
    (h : readBody reader r = .ok call) :
    ∃ depth tree, reader depth tree = .ok call := by
  unfold readBody at h
  split at h
  · cases h
  split at h
  · cases h
  split at h
  · next call' hread =>
    obtain rfl : call' = call := Except.ok.inj h
    refine ⟨Json.nestingLimit,
      (Json.document (Json.scan (Text.scalars r.body))).root, ?_⟩
    obtain ⟨value, hvalue, hwhole⟩ := bind_eq_ok hread
    split at hwhole
    · cases hwhole
    · rw [hvalue, ← hwhole]
      rfl
  · cases h
  · cases h

/-- A call comes from a view, from the body of a posted request, or is about a
property. -/
theorem resolve_cases {r : Request} {call : Call} (h : resolve r = .ok call) :
    resource? (pathOf r.target) = some (.view call) ∨
    (∃ reader depth tree,
      resource? (pathOf r.target) = some (.operation reader) ∧
      r.method = "POST" ∧ reader depth tree = .ok call) ∨
    ∃ name, call = .property name ∨ call = .setProperty name := by
  unfold resolve at h
  dsimp only at h
  cases hresource : resource? (pathOf r.target) with
  | none => simp [hresource] at h
  | some resource =>
    rw [hresource] at h
    cases resource with
    | view viewed =>
      dsimp only at h
      split at h
      · obtain rfl : viewed = call := Except.ok.inj h
        exact Or.inl rfl
      · cases h
    | operation reader =>
      dsimp only at h
      split at h
      · next hpost =>
        obtain ⟨depth, tree, hread⟩ := readBody_eq_ok h
        exact Or.inr (Or.inl ⟨reader, depth, tree, rfl, hpost, hread⟩)
      · cases h
    | property segment =>
      dsimp only at h
      split at h
      · split at h
        · cases h
        · next name _ =>
          split at h
          · exact Or.inr (Or.inr ⟨name, Or.inl (Except.ok.inj h).symm⟩)
          · obtain ⟨depth, tree, hread⟩ := readBody_eq_ok h
            obtain ⟨row, rfl⟩ := record_eq_ok hread
            exact Or.inr (Or.inr ⟨name, Or.inr rfl⟩)
      · cases h

/-- What stands behind a path leads to no call that may change the graph. -/
def Resource.Spares : Resource → Prop
  | view call => call.amends = false
  | operation reader =>
    ∀ depth tree call, reader depth tree = .ok call → call.amends = false
  | property _ => True

theorem record_spares {types : List Type} {fields : Json.Fields types}
    {make : Json.Row types → Call} (hmake : ∀ row, (make row).amends = false) :
    (Resource.operation (fields.record make)).Spares := by
  intro depth tree call hread
  obtain ⟨row, rfl⟩ := record_eq_ok hread
  exact hmake row

theorem resource_spares
    {path : List Char} {resource : Resource}
    (h : resource? path = some resource)
    (hpath : String.ofList path ∉ amendingPaths) :
    resource.Spares := by
  unfold resource? at h
  split at h
  case h_14 =>
    dsimp only at h
    split at h
    · obtain rfl := Option.some.inj h
      exact trivial
    · cases h
  -- A path of its own: its resource is a view, a record without amendment, or
  -- excluded.
  all_goals first
    | (obtain rfl := Option.some.inj h; exact rfl)
    | (obtain rfl := Option.some.inj h; exact record_spares fun _ => rfl)
    | (next hname => simp [hname, amendingPaths] at hpath)

theorem eq_health_or_status_of_view
    {path : List Char} {call : Call} (h : resource? path = some (.view call)) :
    call = .health ∨ call = .status := by
  unfold resource? at h
  split at h
  case h_14 =>
    dsimp only at h
    split at h <;> simp at h
  all_goals simp at h
  all_goals simp [← h]

/-- Only a request for one of six paths makes a call that may change the
graph. -/
theorem amends_eq_false_of_resolve
    {r : Request} {call : Call} (h : resolve r = .ok call)
    (hpath : String.ofList (pathOf r.target) ∉ amendingPaths) :
    call.amends = false := by
  obtain hview | ⟨reader, depth, tree, hoperation, -, hread⟩ |
      ⟨name, rfl | rfl⟩ := resolve_cases h
  · exact resource_spares hview hpath
  · exact resource_spares hoperation hpath depth tree call hread
  · rfl
  · rfl

/-- A cursor is read by posting. -/
theorem method_of_next {r : Request} {cursor : String} {start count : Nat}
    (h : resolve r = .ok (.next cursor start count)) : r.method = "POST" := by
  obtain hview | ⟨_, _, _, -, hpost, -⟩ | ⟨name, hcall | hcall⟩ :=
    resolve_cases h
  · obtain hcall | hcall := eq_health_or_status_of_view hview <;> cases hcall
  · exact hpost
  · cases hcall
  · cases hcall

open Session (Spares Traceless)

section Performing

variable {σ : Type} [EntityStore σ] (schema : Option String)

theorem perform_spares {call : Call} (hcall : call.amends = false) :
    Spares (perform schema call : SessionM σ Json) := by
  cases call with
  | health | property | setProperty => exact fun _ => rfl
  | status =>
    refine (Session.Looks.bind (Session.lookup_looks _) fun stats => ?_).spares
    exact fun _ => rfl
  | find id => exact (Session.lookup_looks _).spares.map _
  | load id => exact (Session.lookup_looks _).spares.map _
  | action id name attributes =>
    exact (Session.run_spares (Graph.execute_still id name attributes)).map _
  | list name => exact (Session.list_spares name).map _
  | next cursor start count =>
    exact (Session.next_spares cursor start count).map _
  | saveResource | saveLink | update | saveMixin | delete => cases hcall

variable [SettlingStore σ]

theorem perform_traceless
    {call : Call}
    (hcall : ∀ cursor start count, call ≠ .next cursor start count) :
    Traceless (perform schema call : SessionM σ Json) := by
  cases call with
  | health | property | setProperty =>
    exact Session.Looks.traceless fun _ => rfl
  | status =>
    refine Session.Looks.traceless
      (Session.Looks.bind (Session.lookup_looks _) fun stats => ?_)
    exact fun _ => rfl
  | find id => exact (Session.lookup_looks _).traceless.map _
  | load id => exact (Session.lookup_looks _).traceless.map _
  | action id name attributes =>
    exact (Session.run_traceless
      (Graph.execute_still id name attributes).atomic).map _
  | list name => exact (Session.list_traceless name).map _
  | next cursor start count => exact absurd rfl (hcall cursor start count)
  | saveResource d =>
    exact (Session.run_traceless (Graph.saveResource_atomic d)).map _
  | saveLink d ends =>
    exact (Session.run_traceless (Graph.saveLink_atomic d ends)).map _
  | update id attributes =>
    exact (Session.run_traceless (Graph.update_atomic id attributes)).map _
  | saveMixin mixin ids =>
    exact (Session.run_traceless (Graph.saveMixin_atomic mixin ids)).map _
  | delete name =>
    exact (Session.run_traceless (Graph.delete_atomic name)).map _

end Performing

/-! ## Requests -/

/-- The status tells the client that its request has been served. -/
def Response.Successful (response : Response) : Prop :=
  200 ≤ response.status ∧ response.status < 300

instance (response : Response) : Decidable response.Successful :=
  inferInstanceAs (Decidable (200 ≤ response.status ∧ response.status < 300))

section Serving

variable {σ : Type} [EntityStore σ] (schema : Option String)

theorem respond_cases (call : Call) (s : Session σ) :
    (∃ message, call.check = .error message ∧
      respond schema call s = (⟨400, some (call.failureBody message)⟩, s)) ∨
    call.check = .ok () ∧
      ((∃ json, (perform schema call s).1 = .ok json ∧
        respond schema call s = (⟨200, some json⟩, (perform schema call s).2)) ∨
      ∃ e, (perform schema call s).1 = .error e ∧ respond schema call s =
        (⟨statusOf e, some (call.failureBody (describe e))⟩,
          (perform schema call s).2)) := by
  unfold respond
  cases call.check with
  | error message => exact Or.inl ⟨message, rfl, rfl⟩
  | ok u =>
    rcases hrun : perform schema call s with ⟨r, s'⟩
    refine Or.inr ⟨rfl, ?_⟩
    simp only [bind, StateT.bind, ExceptT.run, hrun]
    cases r with
    | ok json => exact Or.inl ⟨json, rfl, rfl⟩
    | error e => exact Or.inr ⟨e, rfl, rfl⟩

theorem serve_of_resolve
    {r : Request} {call : Call} (h : resolve r = .ok call) (s : Session σ) :
    serve schema r s =
      (if r.method = "HEAD" then { (respond schema call s).1 with body := none }
        else (respond schema call s).1, (respond schema call s).2) := by
  rw [serve, h]
  rfl

/-- A request is answered without the session, or performs a call that has
passed its check. -/
theorem serve_cases (r : Request) (s : Session σ) :
    ((∀ call, resolve r = .ok call → ∃ message, call.check = .error message) ∧
      ∃ response, serve schema r s = (response, s)) ∨
    ∃ call body, resolve r = .ok call ∧ call.check = .ok () ∧
      ((∃ json, (perform schema call s).1 = .ok json ∧
        (r.method ≠ "HEAD" → body = some json) ∧
        serve schema r s = (⟨200, body⟩, (perform schema call s).2)) ∨
      ∃ e, (perform schema call s).1 = .error e ∧
        (r.method ≠ "HEAD" → body = some (call.failureBody (describe e))) ∧
        serve schema r s = (⟨statusOf e, body⟩,
          (perform schema call s).2)) := by
  cases hresolve : resolve r with
  | error status =>
    refine Or.inl ⟨nofun, ⟨status, none⟩, ?_⟩
    rw [serve, hresolve]
    rfl
  | ok call =>
    rw [serve_of_resolve schema hresolve]
    obtain ⟨message, hmessage, hrun⟩ |
        ⟨hcheck, ⟨json, hr, hrun⟩ | ⟨e, hr, hrun⟩⟩ :=
      respond_cases schema call s
    · rw [hrun]
      refine Or.inl ⟨?_, _, rfl⟩
      intro call' hcall
      obtain rfl := Except.ok.inj hcall
      exact ⟨message, hmessage⟩
    · rw [hrun]
      by_cases hhead : r.method = "HEAD"
      · exact Or.inr ⟨call, none, rfl, hcheck,
          Or.inl ⟨json, hr, absurd hhead, by rw [if_pos hhead]⟩⟩
      · exact Or.inr ⟨call, some json, rfl, hcheck,
          Or.inl ⟨json, hr, fun _ => rfl, by rw [if_neg hhead]⟩⟩
    · rw [hrun]
      by_cases hhead : r.method = "HEAD"
      · exact Or.inr ⟨call, none, rfl, hcheck,
          Or.inr ⟨e, hr, absurd hhead, by rw [if_pos hhead]⟩⟩
      · exact Or.inr ⟨call, _, rfl, hcheck,
          Or.inr ⟨e, hr, fun _ => rfl, by rw [if_neg hhead]⟩⟩

/-- A request changes the session only by a call that has passed its check. -/
theorem serve_performs
    (r : Request) (s : Session σ) :
    (serve schema r s).2 = s ∨
    ∃ call, resolve r = .ok call ∧ call.check = .ok () ∧
      (serve schema r s).2 = (perform schema call s).2 := by
  obtain ⟨-, response, hrun⟩ |
      ⟨call, body, hresolve, hcheck, ⟨json, -, -, hrun⟩ | ⟨e, -, -, hrun⟩⟩ :=
    serve_cases schema r s
  · rw [hrun]
    exact Or.inl rfl
  · rw [hrun]
    exact Or.inr ⟨call, hresolve, hcheck, rfl⟩
  · rw [hrun]
    exact Or.inr ⟨call, hresolve, hcheck, rfl⟩

/-- A read fails when it overruns an open cursor, and only then. -/
theorem perform_next_cases
    (cursor : String) (start count : Nat) (s : Session σ) :
    (∃ items, s.cursors.cursors[cursor]? = some items ∧ items.length < start ∧
      (perform schema (.next cursor start count) s).1 =
        .error (.indexOutOfRange start items.length) ∧
      (perform schema (.next cursor start count) s).2.cursors =
        { s.cursors with cursors := s.cursors.cursors.erase cursor }) ∨
    (∀ items, s.cursors.cursors[cursor]? = some items → start ≤ items.length) ∧
      ∃ json, (perform schema (.next cursor start count) s).1 = .ok json := by
  have hperform := LinkGraph.map_run (Session.next cursor start count)
    (fun items => Call.body true (Call.itemMembers items) none) s
  change perform schema (.next cursor start count) s = _ at hperform
  rw [hperform]
  cases hopen : s.cursors.cursors[cursor]? with
  | none =>
    rw [Session.next_run_none hopen]
    exact Or.inr ⟨nofun, _, rfl⟩
  | some items =>
    rw [Session.next_run_some hopen, CursorRegistry.slice]
    by_cases hstart : items.length < start
    · rw [if_pos hstart]
      exact Or.inl ⟨items, rfl, hstart, rfl, rfl⟩
    · rw [if_neg hstart]
      refine Or.inr ⟨?_, _, rfl⟩
      intro items' hitems
      obtain rfl := Option.some.inj hitems
      exact Nat.le_of_not_lt hstart

/-- The request reads an open cursor from behind the end of its items. -/
def Overruns
    (r : Request) (s : Session σ) (cursor : String) (start : Nat)
    (items : List Item) : Prop :=
  (∃ count, resolve r = .ok (.next cursor start count)) ∧
    s.cursors.cursors[cursor]? = some items ∧
    items.length < start

theorem serve_spares (r : Request) (s : Session σ)
    (hpath : String.ofList (pathOf r.target) ∉ amendingPaths) :
    (serve schema r s).2.graph.store = s.graph.store := by
  rcases serve_performs schema r s with hsame | ⟨call, hresolve, -, hserve⟩
  · rw [hsame]
  · rw [hserve]
    exact perform_spares schema (amends_eq_false_of_resolve hresolve hpath) s

theorem serve_overrun
    {r : Request} {s : Session σ} {cursor : String} {start : Nat}
    {items : List Item} (h : Overruns r s cursor start items) :
    (∃ call : Call, (serve schema r s).1 = ⟨400, some
      (call.failureBody (describe (.indexOutOfRange start items.length)))⟩) ∧
    (serve schema r s).2.cursors =
      { s.cursors with cursors := s.cursors.cursors.erase cursor } := by
  obtain ⟨⟨count, hresolve⟩, hitems, hstart⟩ := h
  obtain ⟨items', hitems', -, hr, hcursors⟩ | ⟨hclamped, -⟩ :=
    perform_next_cases schema cursor start count s
  · obtain rfl : items = items' := Option.some.inj (hitems.symm.trans hitems')
    obtain ⟨hcheck, -⟩ | ⟨call, body, hresolve', -, hrest⟩ :=
      serve_cases schema r s
    · obtain ⟨message, hmessage⟩ := hcheck _ hresolve
      cases hmessage
    · obtain rfl : call = .next cursor start count :=
        Except.ok.inj (hresolve'.symm.trans hresolve)
      rw [hr] at hrest
      obtain ⟨json, hjson, -, -⟩ | ⟨e, he, hbody, hrun⟩ := hrest
      · cases hjson
      · obtain rfl := Except.error.inj he
        have hpost : r.method ≠ "HEAD" := by
          rw [method_of_next hresolve]
          decide
        rw [hrun, hbody hpost]
        exact ⟨⟨_, rfl⟩, hcursors⟩
  · exact absurd hstart (Nat.not_lt.mpr (hclamped items hitems))

end Serving

/-- A request, and what becomes of the store before it arrives: the medium may
begin to refuse writes, for instance, or accept them again. -/
structure Exchange (σ : Type) [EntityStore σ] [SettlingStore σ] where
  request : Request
  meanwhile : σ → σ := id
  steady {s : σ} : Steady s → Steady (meanwhile s) := by exact fun h => h

variable {σ : Type} [EntityStore σ] [SettlingStore σ]

def Exchange.finds (x : Exchange σ) (s : Session σ) : Session σ :=
  { s with graph := { s.graph with store := x.meanwhile s.graph.store } }

def served
    (schema : Option String) (s : Session σ) (exchanges : List (Exchange σ)) :
    Session σ :=
  exchanges.foldl (fun s x => (serve schema x.request (x.finds s)).2) s

/-- What a request leaves behind, given the session that it finds, the response
and the session afterwards. -/
structure LeavesNoTrace
    (r : Request) (found : Session σ) (response : Response) (left : Session σ) :
    Prop where
  /-- If it is refused, entities and index are as before. -/
  store : ¬response.Successful → left.graph.store = found.graph.store
  /-- So are the cursors, unless one has been overrun. -/
  cursors : ¬response.Successful →
    (∀ cursor start items, ¬Overruns r found cursor start items) →
    left.cursors = found.cursors
  /-- An overrun cursor is gone, and no other. -/
  overrun {cursor : String} {start : Nat} {items : List Item} :
    Overruns r found cursor start items →
    (∃ call : Call, response = ⟨400, some
      (call.failureBody (describe (.indexOutOfRange start items.length)))⟩) ∧
    left.cursors =
      { found.cursors with cursors := found.cursors.cursors.erase cursor }
  /-- Outside six paths entities and index are as before whatever the status. -/
  spared : String.ofList (pathOf r.target) ∉ amendingPaths →
    left.graph.store = found.graph.store

variable (schema : Option String)

theorem serve_steady (r : Request) {s : Session σ} (hs : Steady s.graph.store) :
    Steady (serve schema r s).2.graph.store := by
  rcases serve_performs schema r s with hsame | ⟨call, -, -, hserve⟩
  · rw [hsame]
    exact hs
  · rw [hserve]
    cases hcall : call.amends with
    | false =>
      rw [perform_spares schema hcall s]
      exact hs
    | true =>
      refine (perform_traceless schema ?_ s hs).1
      rintro cursor start count rfl
      cases hcall

theorem serve_refused {r : Request} {s : Session σ} (hs : Steady s.graph.store)
    (hrefused : ¬(serve schema r s).1.Successful) :
    (serve schema r s).2.graph.store = s.graph.store ∧
    ((∀ cursor start items, ¬Overruns r s cursor start items) →
      (serve schema r s).2.cursors = s.cursors) := by
  obtain ⟨-, response, hrun⟩ |
      ⟨call, body, hresolve, -, ⟨json, -, -, hrun⟩ | ⟨e, he, -, hrun⟩⟩ :=
    serve_cases schema r s
  · rw [hrun]
    exact ⟨rfl, fun _ => rfl⟩
  · rw [hrun] at hrefused
    exact absurd ⟨Nat.le_refl 200, (by omega : 200 < 300)⟩ hrefused
  · rw [hrun]
    by_cases hnext : ∃ cursor start count, call = .next cursor start count
    · obtain ⟨cursor, start, count, rfl⟩ := hnext
      refine ⟨perform_spares schema rfl s, fun hoverruns => ?_⟩
      obtain ⟨items, hitems, hstart, -⟩ | ⟨-, json, hjson⟩ :=
        perform_next_cases schema cursor start count s
      · exact absurd ⟨⟨count, hresolve⟩, hitems,
          hstart⟩ (hoverruns cursor start items)
      · rw [hjson] at he
        cases he
    · have hother : ∀ cursor start count, call ≠ .next cursor start count := by
        rintro cursor start count rfl
        exact hnext ⟨cursor, start, count, rfl⟩
      obtain ⟨hstore, hcursors⟩ := (perform_traceless schema hother s hs).2 e he
      exact ⟨hstore, fun _ => hcursors⟩

theorem served_steady
    {s : Session σ} (hs : Steady s.graph.store)
    (exchanges : List (Exchange σ)) :
    Steady (served schema s exchanges).graph.store := by
  induction exchanges generalizing s with
  | nil => exact hs
  | cons x exchanges ih =>
    exact ih (serve_steady schema x.request (x.steady hs))

omit schema in
theorem steady_onTables
    (tables : Tables) (registry : HookRegistry) (validates : Bool) :
    Steady (Session.onTables tables registry validates).graph.store :=
  rfl

/-- A refused request leaves no trace, wherever in a sequence of requests it
comes, whatever the tables of the store hold and whatever its medium refuses. -/
theorem leavesNoTrace_served {s : Session σ} (hs : Steady s.graph.store)
    (before : List (Exchange σ)) (x : Exchange σ) :
    let found := x.finds (served schema s before)
    LeavesNoTrace x.request found (serve schema x.request found).1
      (serve schema x.request found).2 := by
  intro found
  have hfound : Steady found.graph.store :=
    x.steady (served_steady schema hs before)
  exact {
    store := fun hrefused => (serve_refused schema hfound hrefused).1
    cursors := fun hrefused => (serve_refused schema hfound hrefused).2
    overrun := serve_overrun schema
    spared := serve_spares schema x.request found }

def savedAndListed : List (Exchange DurableStore) :=
  [{ request :=
      { method := "POST", target := "/save_resource",
        body := "\x7b\"id\":\"vm1\",\"kind\":\"compute\"\x7d" } },
    { request :=
      { method := "POST", target := "/list",
        body := "\x7b\"category\":\"compute\"\x7d" } }]

/-- The medium has come to refuse writes when the resource is to be deleted. -/
def deletingOnFullDisk : Exchange DurableStore where
  request :=
    { method := "POST", target := "/delete", body := "\x7b\"id\":\"vm1\"\x7d" }
  meanwhile s := { s with refusal := some "disk full" }

theorem leavesNoTrace_served_fullDisk :
    let found :=
  deletingOnFullDisk.finds (served none (.onTables {} {} false) savedAndListed)
    (serve none deletingOnFullDisk.request found).1.status = 500 ∧
      (serve none deletingOnFullDisk.request found).2.graph.store =
        found.graph.store := by
  have htrace := leavesNoTrace_served none (steady_onTables {} {} false)
    savedAndListed deletingOnFullDisk
  generalize hfound :
    deletingOnFullDisk.finds (served none (.onTables {} {} false)
      savedAndListed) = found at htrace ⊢
  have hstatus :
      (serve none deletingOnFullDisk.request found).1.status = 500 := by
    subst hfound
    decide +kernel
  refine ⟨hstatus, htrace.store fun hsuccess => ?_⟩
  rw [Response.Successful, hstatus] at hsuccess
  omega

end Http

end LinkGraph
