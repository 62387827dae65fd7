import LinkGraph.Proofs.Graph.Reporting

/-!
# Handlers influence nothing

Two graphs whose handlers differ only in what they answer go through the same
states, call the same handlers and answer the same, except that an action of an
entity is answered by the handler of the entity.  Together with what handlers
are told, this is all that they have to do with a graph.
-/

namespace LinkGraph

def JournalEntry.isCall {σ : Type} : JournalEntry σ → Bool
  | called .. => true
  | failed .. => false

/-- A step of two scripts that differ in what handlers answer.  The handlers may
be others at every step, so that any of their calls may fail in one script and
not in the other. -/
structure Cue where
  request : GraphRequest
  registry : HookRegistry
  registry' : HookRegistry
  alike : registry.Alike registry'

/-- Two answers to a request are the same, but for those of handlers to an
action of a stored entity. -/
def GraphRequest.Coincide
    {σ : Type} [EntityStore σ] (request : GraphRequest) (g g' : Graph σ)
    (answer answer' : Except StoreError request.Answer) : Prop :=
  match request with
  | execute id action attributes =>
    (∀ e, g.Stores id e →
      answer = Graph.actionAnswer g.registry action attributes e ∧
        answer' = Graph.actionAnswer g'.registry action attributes e) ∧
      ((∀ e, ¬g.Stores id e) → answer = answer')
  | operate _ | look _ => answer = answer'

namespace Graph

variable {σ : Type}

/-- The calls of handlers, with the state of the store at each of them. -/
def calls (g : Graph σ) : Journal σ :=
  g.journal.filter JournalEntry.isCall

/-- Nothing tells the graphs apart but what their handlers answer, and have
answered. -/
structure Twins (g g' : Graph σ) : Prop extends Alike g g' where
  calls : g.calls = g'.calls

namespace Twins

theorem refl (g : Graph σ) : Twins g g where
  store := rfl
  validates := rfl
  registry := .refl _
  calls := rfl

variable {g g' : Graph σ}

theorem with_store
    (h : Twins g g') {s : σ} :
    Twins { g with store := s } { g' with store := s } where
  store := rfl
  validates := h.validates
  registry := h.registry
  calls := h.calls

theorem with_registry
    (h : Twins g g') {r r' : HookRegistry} (halike : r.Alike r') :
    Twins { g with registry := r } { g' with registry := r' } where
  store := h.store
  validates := h.validates
  registry := halike
  calls := h.calls

/-- The call of a handler is the same, whatever is noted of its answer. -/
theorem with_call
    (h : Twins g g') (point : HookPoint) (e : Entity)
    {entries entries' : Journal σ} (hentries : ∀ entry ∈ entries, ¬entry.isCall)
    (hentries' : ∀ entry ∈ entries', ¬entry.isCall) :
    Twins
      { g with journal := g.journal ++
          .called g.store (g.registry.handlerFor e).style point e :: entries }
      { g' with journal := g'.journal ++
          .called g'.store (g'.registry.handlerFor e).style point e ::
            entries' } where
  store := h.store
  validates := h.validates
  registry := h.registry
  calls := by
    have hcalls := h.calls
    unfold Graph.calls at hcalls ⊢
    rw [List.filter_append, List.filter_append, hcalls,
      List.filter_cons_of_pos rfl, List.filter_cons_of_pos rfl,
      List.filter_eq_nil_iff.mpr hentries, List.filter_eq_nil_iff.mpr hentries',
      h.store, h.registry.style]

theorem notified (h : Twins g g') (point : HookPoint) (e : Entity) :
    Twins (g.notified point e) (g'.notified point e) := by
  have hnote (g : Graph σ) :
      ∀ entry ∈ (g.reports point e).tail, ¬entry.isCall := by
    intro entry hentry
    rw [reports, List.tail_cons] at hentry
    split at hentry
    · cases hentry
    · obtain rfl := List.mem_singleton.mp hentry
      simp [JournalEntry.isCall]
  exact h.with_call point e (hnote g) (hnote g')

end Twins

variable {α β : Type}

/-- The operation does the same to graphs that differ only in what their
handlers answer. -/
def Impartial (p : GraphM σ α) : Prop :=
  ∀ ⦃g g' : Graph σ⦄, Twins g g' → (p g).1 = (p g').1 ∧ Twins (p g).2 (p g').2

namespace Impartial

theorem bind
    {p : GraphM σ α} {f : α → GraphM σ β} (hp : Impartial p)
    (hf : ∀ a, Impartial (f a)) :
    Impartial (p >>= f) := by
  intro g g' h
  obtain ⟨hanswer, htwins⟩ := hp h
  rcases hg : p g with ⟨r, g₁⟩
  rcases hg' : p g' with ⟨r', g₁'⟩
  rw [hg, hg'] at hanswer htwins
  obtain rfl : r = r' := hanswer
  cases r with
  | ok a =>
    rw [bind_run_ok hg, bind_run_ok hg']
    exact hf a htwins
  | error e =>
    rw [bind_run_error hg, bind_run_error hg']
    exact ⟨rfl, htwins⟩

theorem tryCatch
    {p : GraphM σ α} {handler : StoreError → GraphM σ α} (hp : Impartial p)
    (hhandler : ∀ e, Impartial (handler e)) :
    Impartial (tryCatch p handler) := by
  intro g g' h
  obtain ⟨hanswer, htwins⟩ := hp h
  rcases hg : p g with ⟨r, g₁⟩
  rcases hg' : p g' with ⟨r', g₁'⟩
  rw [hg, hg'] at hanswer htwins
  obtain rfl : r = r' := hanswer
  cases r with
  | ok a =>
    rw [tryCatch_run_ok hg, tryCatch_run_ok hg']
    exact ⟨rfl, htwins⟩
  | error e =>
    rw [tryCatch_run_error hg, tryCatch_run_error hg']
    exact hhandler e htwins

theorem change (op : StoreM σ α) : Impartial (change op) := by
  intro g g' h
  rw [change_run, change_run, h.store]
  exact ⟨rfl, h.with_store⟩

theorem batched
    [EntityStore σ] {p : GraphM σ α} (hp : Impartial p) :
    Impartial (batched p) := by
  refine (change _).bind fun _ => (hp.tryCatch fun e => ?_).bind fun a => ?_
  · intro g g' h
    refine ⟨rfl, ?_⟩
    change Twins { g with store := EntityStore.abort g.store }
      { g' with store := EntityStore.abort g'.store }
    rw [h.store]
    exact h.with_store
  · exact (change _).bind fun _ _ _ h => ⟨rfl, h⟩

end Impartial

variable [EntityStore σ]

theorem Composed.impartial
    {points : HookPoint → Prop} {refusals : StoreError → Prop} {p : GraphM σ α}
    (hp : Composed points refusals p) :
    Impartial p := by
  induction hp with
  | pure a => exact fun _ _ h => ⟨rfl, h⟩
  | refuse => exact fun _ _ h => ⟨rfl, h⟩
  | bind _ _ ihp ihf => exact ihp.bind ihf
  | @asking _ _ _ view f hview _ ih =>
    intro g g' h
    change (f (view g) g).1 = (f (view g') g').1 ∧
      Twins (f (view g) g).2 (f (view g') g').2
    rw [hview h.toAlike]
    exact ih (view g') h
  | query r => exact fun _ _ h => ⟨congrArg r.perform h.store, h⟩
  | change w => exact .change _
  | notify =>
    intro g g' h
    rw [notify_run, notify_run]
    exact ⟨rfl, h.notified _ _⟩
  | batched _ ih => exact ih.batched

/-- The one request that a handler has an answer to is an action of a stored
entity. -/
theorem Twins.perform
    {g g' : Graph σ} (h : Twins g g') (request : GraphRequest) :
    request.Coincide g g' (request.perform g).1 (request.perform g').1 ∧
      Twins (request.perform g).2 (request.perform g').2 := by
  cases request with
  | operate op => exact (Composed.reply op).impartial h
  | look l => exact ⟨l.answer_congr h.store, h⟩
  | execute id action attributes =>
    have hrun := execute_run id action attributes g
    have hrun' := execute_run id action attributes g'
    rw [GraphRequest.perform, hrun, hrun', ← h.store]
    simp only [GraphRequest.Coincide, Stores]
    cases EntityStore.get g.store id with
    | error error => exact ⟨⟨by simp, fun _ => rfl⟩, h⟩
    | ok e? =>
      cases e? with
      | none => exact ⟨⟨by simp, fun _ => rfl⟩, h⟩
      | some e =>
        refine ⟨⟨?_, fun hnone => absurd rfl (hnone e)⟩, ?_⟩
        · rintro e' he'
          obtain rfl := Option.some.inj (Except.ok.inj he')
          exact ⟨rfl, rfl⟩
        · have hcalled := h.with_call (.action action attributes.decoded) e
            (List.forall_mem_nil _) (List.forall_mem_nil _)
          rwa [← h.store] at hcalled

end Graph

namespace Cue

variable {σ : Type} [EntityStore σ]

def perform
    (handlers : Cue → HookRegistry) (cue : Cue) : GraphM σ cue.request.Answer :=
  fun g => cue.request.perform { g with registry := handlers cue }

/-- The graph after a script. -/
def play
    (handlers : Cue → HookRegistry) (g : Graph σ) (script : List Cue) :
    Graph σ :=
  script.foldl (fun g cue => (cue.perform handlers g).2) g

/-- Wherever the two scripts have led from a graph, stores and calls of handlers
are the same, and so are the answers to the next request, those of handlers
apart. -/
structure Concurs (g : Graph σ) (script : List Cue) (next : Cue) : Prop where
  store : (play registry g script).store = (play registry' g script).store
  calls : (play registry g script).calls = (play registry' g script).calls
  answer : next.request.Coincide
    { play registry g script with registry := next.registry }
    { play registry' g script with registry := next.registry' }
    (next.perform registry (play registry g script)).1
    (next.perform registry' (play registry' g script)).1

theorem twins_play {g g' : Graph σ} (h : g.Twins g') (script : List Cue) :
    (play registry g script).Twins (play registry' g' script) := by
  induction script generalizing g g' with
  | nil => exact h
  | cons cue script ih =>
    exact ih ((h.with_registry cue.alike).perform cue.request).2

theorem concurs
    (g : Graph σ) (script : List Cue) (next : Cue) :
    Concurs g script next := by
  have htwins := twins_play (.refl g) script
  exact ⟨htwins.store, htwins.calls,
    ((htwins.with_registry next.alike).perform next.request).1⟩

end Cue

namespace Graph

variable {σ : Type} [EntityStore σ] [FaithfulStore σ] {g : Graph σ}
  {ops : List Operation}

/-- Whatever operations lead to a graph whose store does not fail, the journal
of the next request tells exactly what it changes, each time through the handler
registered last for the kind of the entity.  Whatever handlers answer, graphs
take the same course. -/
theorem told_and_unmoved
    (hg : g.Fresh) (fallback : Hook) (hooks : List (Category × Hook))
    (hregistry : g.registry = ({ fallback } : HookRegistry).registerAll hooks)
    (hops : g.Unfailing ops) :
    (∀ request : GraphRequest, request.Unfailing (g.after ops) →
      ∃ calls : List (HookPoint × Entity),
        (request.perform (g.after ops)).2.transcript =
          (g.after ops).transcript ++
          calls.flatMap (fun call =>
            (HookRegistry.lastFor fallback hooks call.2.kind).told
              call.1 call.2) ∧
        request.Tells (g.after ops) calls) ∧
    ∀ (g : Graph σ) (script : List Cue) (next : Cue),
        Cue.Concurs g script next := by
  have hmirrors := (hg.mirrors hops.start).after hops
  have hhandlers := (registry_after g ops).trans hregistry
  refine ⟨fun request hrequest => ?_, Cue.concurs⟩
  obtain ⟨calls, hcalls, htells⟩ := hmirrors.request_tells hrequest
  refine ⟨calls, ?_, htells⟩
  rw [hcalls.transcript, HookRegistry.tells, hhandlers]
  simp only [HookRegistry.handlerFor_registerAll]

/-- An empty graph with two handlers for one kind, the later of which fails when
told of a deletion. -/
def twiceHandled : Graph VolatileStore where
  store := {}
  registry := ({} : HookRegistry).registerAll
    [("k", .recording "first" []), ("k", .recording "last" ["delete"])]

/-- A resource, a link from it, and a link from that link. -/
def linkOnLink : List Operation :=
  [.saveResource { id := "a", kind := "k" },
    .saveLink { id := "l", kind := "k" } ⟨"a", "a"⟩,
    .saveLink { id := "m", kind := "k" } ⟨"l", "a"⟩]

def twiceHandled.linked : Graph VolatileStore :=
  twiceHandled.after linkOnLink

/-- The deletion of a link with a link from it is told twice, each time to the
later handler. -/
theorem told_and_unmoved_linked :
    ∃ (calls : List (HookPoint × Entity)) (removed : List EntityId),
      (Operation.reply (.delete "l") twiceHandled.linked).2.transcript =
        twiceHandled.linked.transcript ++ calls.flatMap (fun call =>
          (HookRegistry.lastFor .silent
            [("k", .recording "first" []), ("k", .recording "last" ["delete"])]
            call.2.kind).told call.1 call.2) ∧
      CalledFor .deleting removed calls ∧ removed.Nodup ∧
        "l" ∈ removed ∧ "m" ∈ removed ∧ "a" ∉ removed := by
  have hfresh : twiceHandled.Fresh := ⟨⟨rfl, VolatileStore.keyed_empty⟩, rfl⟩
  obtain ⟨hops, hdelete⟩ := unfailing_append.mp
    (unfailing_volatile (g := twiceHandled) VolatileStore.keyed_empty
      (linkOnLink ++ [.delete "l"]))
  obtain ⟨calls, htranscript, ⟨htells, -⟩, -⟩ :=
    (told_and_unmoved hfresh .silent _ rfl hops).1
      (.operate (.delete "l")) hdelete
  have hstored {g : Graph VolatileStore} {x : EntityId}
      (hx : g.store.entities[x]?.isSome) : ∃ e, g.Stores x e := by
    obtain ⟨e, he⟩ := Option.isSome_iff_exists.mp hx
    exact ⟨e, congrArg Except.ok he⟩
  have hgone {g : Graph VolatileStore} {x : EntityId}
      (hx : g.store.entities[x]? = none) (e : Entity) : ¬g.Stores x e := by
    intro he
    cases (congrArg Except.ok hx).symm.trans he
  have hl : twiceHandled.linked.store.entities["l"]?.isSome := by decide +kernel
  have hm : twiceHandled.linked.store.entities["m"]?.isSome := by decide +kernel
  have hl' : (Operation.reply (.delete "l")
      twiceHandled.linked).2.store.entities["l"]? = none := by
    decide +kernel
  have hm' : (Operation.reply (.delete "l")
      twiceHandled.linked).2.store.entities["m"]? = none := by
    decide +kernel
  have ha' : (Operation.reply (.delete "l")
      twiceHandled.linked).2.store.entities["a"]?.isSome := by
    decide +kernel
  obtain ⟨removed, hcalled, honce, hmem⟩ := htells (hstored hl)
  refine ⟨calls, removed, htranscript, hcalled, honce,
    (hmem "l").mpr ⟨hstored hl, hgone hl'⟩,
    (hmem "m").mpr ⟨hstored hm, hgone hm'⟩, fun ha => ?_⟩
  obtain ⟨e, he⟩ := hstored ha'
  exact ((hmem "a").mp ha).2 e he

end Graph

end LinkGraph
