import LinkGraph.Proofs.Graph.Attempts

/-!
# What handlers are handed

When a handler is called, the entity it is handed is the one that is stored
under its id at that moment, in a batch as well as outside, also where the
operation fails later on.  There is one exception.  A link that is saved as its
own source is attached to itself after the copy for the handler has been taken,
so that the copy may lack this back-reference.

The argument is a program logic: `Hands m p post` says of an operation `p`,
started over the content `m`, what its handlers are handed and which contents it
may leave behind.
-/

namespace LinkGraph

open FaithfulStore (Holds)

namespace Entity

/-- What is stored while a handler is handed the entity at a point: the entity
itself, or the link once it has become one of its own back-references. -/
def asStored (e : Entity) (point : HookPoint) : Entity :=
  if point = .created ∧ e.source? = some e.id then e.linked e.id else e

theorem asStored_of_ne_created
    {point : HookPoint} (e : Entity) (hpoint : point ≠ .created) :
    e.asStored point = e := by
  simp [asStored, hpoint]

theorem asStored_eq_self_iff {e : Entity} {point : HookPoint} :
    e.asStored point = e ↔
      ¬(point = .created ∧ e.source? = some e.id ∧ e.id ∉ e.linkedFrom) := by
  unfold asStored
  split
  case isFalse hself => simp only [true_iff]; exact fun h => hself ⟨h.1, h.2.1⟩
  case isTrue hself =>
    by_cases hmem : e.id ∈ e.linkedFrom
    · simp [linked_of_mem hmem, hmem]
    · have hne : e.linked e.id ≠ e :=
        fun heq => hmem (heq ▸ mem_linked.mpr (Or.inl rfl))
      simp [hself, hmem, hne]

end Entity

/-- If the entry is about a call of a handler, a look at the store at that
moment fails, or finds the entity that the handler was handed as it is
stored. -/
def JournalEntry.Current {σ : Type} [EntityStore σ] : JournalEntry σ → Prop
  | called store _ point e =>
    Answers (EntityStore.get store e.id) (.ok (some (e.asStored point)))
  | failed .. => True

/-- Once an entity has been saved, it is stored as its handler is then told. -/
theorem VolatileStore.entities_saved
    {s : VolatileStore} {e : Entity} (hs : s.Keyed) :
    ((s.replaced e).attached e).entities[(s.merged e).id]? =
      some ((s.merged e).asStored .created) := by
  rw [entities_attached, merged_id, entities_replaced hs, if_pos rfl,
    Entity.asStored, merged_source?, merged_id]
  by_cases hself : e.source? = some e.id
  · simp [hself]
  · simp [hself]

/-- A write does to the content of a faithful store what it does to a volatile
store. -/
theorem StoreWrite.follows
    {σ : Type} [EntityStore σ] [FaithfulStore σ] {s : σ} {m : VolatileStore}
    (h : Holds s m) (w : StoreWrite) :
    Follows Holds (w.perform s) (w.perform m) := by
  cases w with
  | put e => exact FaithfulStore.put h e
  | remove id => exact FaithfulStore.remove h id
  | indexInsert c id => exact FaithfulStore.indexInsert h c id
  | indexRemove c id => exact FaithfulStore.indexRemove h c id

namespace Graph

variable {σ α β : Type} [EntityStore σ] [FaithfulStore σ] {m : VolatileStore}

/-- Started over the content `m`, the operation hands to handlers what is stored
at the time, and if it succeeds, `post` holds of its result and of the content
it leaves behind. -/
def Hands
    (m : VolatileStore) (p : GraphM σ α) (post : α → VolatileStore → Prop) :
    Prop :=
  ∀ g, Holds g.store m → ∃ entries, (p g).2.journal = g.journal ++ entries ∧
    (∀ entry ∈ entries, entry.Current) ∧
    ∀ a, (p g).1 = .ok a → ∃ m', Holds (p g).2.store m' ∧ post a m'

namespace Hands

variable {p : GraphM σ α} {f : α → GraphM σ β}
  {mid post : α → VolatileStore → Prop}
  {post' : β → VolatileStore → Prop} {refusals : StoreError → Prop}

/-! ## Rules -/

/-- What leaves the journal as it is hands nothing to handlers. -/
theorem of_journal_eq (hjournal : ∀ g, (p g).2.journal = g.journal)
    (hpost : ∀ g, Holds g.store m → ∀ a, (p g).1 = .ok a →
      ∃ m', Holds (p g).2.store m' ∧ post a m') : Hands m p post := by
  intro g hm
  exact ⟨[], by rw [hjournal, List.append_nil], List.forall_mem_nil _, hpost g hm⟩

theorem pure {a : α} (hpost : post a m) : Hands m (pure a : GraphM σ α) post :=
  of_journal_eq (fun _ => rfl) fun _ hm _ ha =>
    ⟨m, hm, Except.ok.inj ha ▸ hpost⟩

theorem throw (e : StoreError) : Hands m (throw e : GraphM σ α) post :=
  of_journal_eq (fun _ => rfl) fun _ _ _ ha => by cases ha

theorem bind
    (hp : Hands m p mid) (hf : ∀ a m', mid a m' → Hands m' (f a) post') :
    Hands m (p >>= f) post' := by
  intro g hm
  obtain ⟨entries, hjournal, hcurrent, hmid⟩ := hp g hm
  rcases hrun : p g with ⟨r, g'⟩
  rw [hrun] at hjournal hmid
  cases r with
  | error e =>
    rw [bind_run_error hrun]
    exact ⟨entries, hjournal, hcurrent, fun _ ha => by cases ha⟩
  | ok a =>
    obtain ⟨m', hm', ha⟩ := hmid a rfl
    obtain ⟨entries', hjournal', hcurrent', hpost⟩ := hf a m' ha g' hm'
    rw [bind_run_ok hrun]
    refine ⟨entries ++ entries', ?_,
      List.forall_mem_append.mpr ⟨hcurrent, hcurrent'⟩, hpost⟩
    rw [hjournal', hjournal, List.append_assoc]

theorem mono
    (hp : Hands m p mid) (hpost : ∀ a m', mid a m' → post a m') :
    Hands m p post := by
  intro g hm
  obtain ⟨entries, hjournal, hcurrent, hmid⟩ := hp g hm
  refine ⟨entries, hjournal, hcurrent, fun a ha => ?_⟩
  obtain ⟨m', hm', hmida⟩ := hmid a ha
  exact ⟨m', hm', hpost a m' hmida⟩

theorem query
    {read : σ → Except StoreError α}
    {read' : VolatileStore → Except StoreError α}
    (hread : ∀ s m, Holds s m → Answers (read s) (read' m)) :
    Hands m (query read) fun a m' => m' = m ∧ read' m = .ok a :=
  of_journal_eq (fun _ => rfl) fun g hm _ ha =>
    ⟨m, hm, rfl, (hread g.store m hm).eq_of_ok ha⟩

theorem change {op : StoreM σ α} {op' : StoreM VolatileStore α}
    (hop : ∀ s, Holds s m → Follows Holds (op s) (op' m)) :
    Hands m (change op) fun a m' => op' m = (.ok a, m') := by
  refine of_journal_eq (fun _ => rfl) fun g hm a ha => ?_
  have ha : (op g.store).1 = .ok a := ha
  rcases hop g.store hm with ⟨hr, hm'⟩ | ⟨e, hr, -⟩
  · exact ⟨_, hm', Prod.ext (hr.symm.trans ha) rfl⟩
  · simp [hr] at ha

theorem write (w : StoreWrite) :
    Hands m (Graph.change w.perform : GraphM σ w.Answer) fun _ m' => m' =
      (w.perform m).2 :=
  (change fun _ hm => w.follows hm).mono fun _ _ h => (congrArg Prod.snd h).symm

/-- A handler may be handed an entity that is stored as it is handed over. -/
theorem callHandler
    {point : HookPoint} {e : Entity}
    (he : m.entities[e.id]? = some (e.asStored point)) :
    Hands m (callHandler point e : GraphM σ (Except StoreError Unit))
      fun _ m' => m' = m := by
  intro g hm
  have hcurrent :
      Answers (EntityStore.get g.store e.id) (.ok (some (e.asStored point))) :=
    he ▸ FaithfulStore.get hm e.id
  refine ⟨[.called g.store (g.registry.handlerFor e).style point e], rfl, ?_,
    fun _ _ => ⟨m, hm, rfl⟩⟩
  exact List.forall_mem_singleton.mpr hcurrent

theorem notify
    {point : HookPoint} {e : Entity}
    (he : m.entities[e.id]? = some (e.asStored point)) :
    Hands m (notify point e : GraphM σ Unit) fun _ m' => m' = m := by
  refine (callHandler he).bind ?_
  rintro answer _ rfl
  cases answer with
  | ok _ => exact pure rfl
  | error error =>
    intro g hm
    exact ⟨[.failed point e.id error], rfl,
      List.forall_mem_singleton.mpr trivial, fun _ _ => ⟨_, hm, rfl⟩⟩

/-- What an entity is found to be, it is stored as. -/
theorem fetch
    (id : EntityId) :
    Hands m (fetch id : GraphM σ (Option Entity)) fun e? m' =>
    m' = m ∧ ∀ e, e? = some e → m.entities[id]? = some e ∧ e.id = id := by
  refine of_journal_eq (fun _ => rfl) fun g hm e? he => ⟨m, hm, rfl, ?_⟩
  rintro e rfl
  have hstored : m.entities[id]? = some e :=
    Except.ok.inj ((FaithfulStore.get hm id).eq_of_ok he)
  exact ⟨hstored, FaithfulStore.keyed hm id e hstored⟩

/-- A dropped batch hands nothing to handlers that its operation has not. -/
theorem batched (hp : Hands m p post) : Hands m (batched p) post := by
  have hbegin :
      Hands m (Graph.change EntityStore.begin : GraphM σ Unit)
        fun _ m' => m' = m :=
    (change fun _ hm => FaithfulStore.begin hm).mono fun _ _ h =>
      (congrArg Prod.snd h).symm
  have hcommit (m : VolatileStore) :
      Hands m (Graph.change EntityStore.commit : GraphM σ Unit)
        fun _ m' => m' = m :=
    (change fun _ hm => FaithfulStore.commit hm).mono fun _ _ h =>
      (congrArg Prod.snd h).symm
  have hcaught : Hands m (MonadExcept.tryCatch p fun e => do
      modify fun g => { g with store := EntityStore.abort g.store }
      MonadExcept.throw e) post := by
    intro g hm
    obtain ⟨entries, hjournal, hcurrent, hpost⟩ := hp g hm
    rcases hrun : p g with ⟨r, g'⟩
    rw [hrun] at hjournal hpost
    cases r with
    | error e =>
      rw [tryCatch_run_error hrun]
      exact ⟨entries, hjournal, hcurrent, fun _ ha => by cases ha⟩
    | ok a =>
      rw [tryCatch_run_ok hrun]
      exact ⟨entries, hjournal, hcurrent, hpost⟩
  refine hbegin.bind ?_
  rintro - _ rfl
  refine hcaught.bind fun a m' ha => (hcommit m').bind ?_
  rintro - _ rfl
  exact pure ha

theorem forM
    {p : α → GraphM σ Unit} (hp : ∀ a m, Hands m (p a) fun _ _ => True)
    (as : List α) :
    Hands m (as.forM p) fun _ _ => True := by
  induction as generalizing m with
  | nil => exact pure trivial
  | cons a as ih => exact (hp a m).bind fun _ _ _ => ih

theorem foldlM
    {p : β → α → GraphM σ β} (hp : ∀ b a m, Hands m (p b a) fun _ _ => True)
    (as : List α) (b : β) :
    Hands m (as.foldlM p b) fun _ _ => True := by
  induction as generalizing m b with
  | nil => exact pure trivial
  | cons a as ih =>
    rw [List.foldlM_cons]
    exact (hp b a m).bind fun b' _ _ => ih b'

/-- What calls no handlers hands nothing to them. -/
theorem of_composed
    (h : Composed (fun _ => False) refusals p) :
    Hands m p fun _ _ => True := by
  induction h generalizing m with
  | pure a => exact pure trivial
  | refuse => exact throw _
  | bind _ _ ihp ihf => exact ihp.bind fun a _ _ => ihf a
  | asking view _ _ ih => exact fun g hm => ih (view g) g hm
  | query r =>
    exact of_journal_eq (fun _ => rfl) fun _ hm _ _ => ⟨m, hm, trivial⟩
  | change w => exact (write w).mono fun _ _ _ => trivial
  | notify hpoint => exact hpoint.elim
  | batched _ ih => exact ih.batched

/-- What calls no handlers leaves the content behind that it leaves on a
volatile store. -/
theorem of_simulates {q : GraphM VolatileStore α} (h : Simulates p q)
    (hp : Composed (fun _ => False) (fun _ => False) p)
    (hq : ∀ v : Graph VolatileStore, v.store = m → m.Keyed → ∃ a m',
      q v = (.ok a, { v with store := m' }) ∧ post a m') : Hands m p post := by
  intro g hm
  obtain ⟨entries, hjournal, hcurrent, -⟩ := of_composed hp g hm
  obtain ⟨a, m', hrun, hpost⟩ := hq (g.upon m) rfl (FaithfulStore.keyed hm)
  refine ⟨entries, hjournal, hcurrent, fun b hb => ?_⟩
  have hfollows := h.upon hp.appends hm
  rw [hrun] at hfollows
  rcases hfollows with ⟨hr, hmimics⟩ | ⟨e, hr, -⟩
  · obtain rfl := Except.ok.inj (hb.symm.trans hr)
    exact ⟨m', hmimics.store, hpost⟩
  · simp [hr] at hb

/-! ## Operations -/

theorem saveResource
    (d : Draft) :
    Hands m (saveResource d : GraphM σ EntityId) fun _ _ => True := by
  refine (of_composed (.checkCategory (fun _ he => he) d.kind)).bind
    fun _ m _ => ?_
  have hreplace :
    Hands m (replace (d.entity none) : GraphM σ Entity) fun e m' =>
      m'.entities[e.id]? = some (e.asStored .created) := by
    refine of_simulates (replace_simulates _) (.replace _) ?_
    rintro v rfl hkeyed
    exact ⟨_, _, replace_run hkeyed _, VolatileStore.entities_saved hkeyed⟩
  refine hreplace.batched.bind fun e m' he => ?_
  exact (notify he).bind fun _ _ _ => pure trivial

theorem saveLink (d : Draft) (ends : Endpoints) :
    Hands m (saveLink d ends : GraphM σ EntityId) fun _ _ => True := by
  refine (of_composed (.checkCategory (fun _ he => he) d.kind)).bind
    fun _ m _ => ?_
  refine (of_composed (.checkEndpoint (fun _ he => he) d.id ends.source)).bind
    fun _ m _ => ?_
  refine (of_composed (.checkEndpoint (fun _ he => he) d.id ends.target)).bind
    fun _ m _ => ?_
  have hwrite : Hands m
      (do let e ← replace (d.entity (some ends)); attach ends.source e.id;
          return e :
        GraphM σ Entity) fun e m' => m'.entities[e.id]? =
          some (e.asStored .created) := by
    refine of_simulates (replaceAndAttach_simulates d ends)
      (.replaceAndAttach _ _) ?_
    rintro v rfl hkeyed
    exact ⟨_, _, replaceAndAttach_run hkeyed d ends,
      VolatileStore.entities_saved hkeyed⟩
  refine hwrite.batched.bind fun e m' he => ?_
  exact (notify he).bind fun _ _ _ => pure trivial

theorem put
    (e : Entity) :
    Hands m (Graph.change (EntityStore.put e) : GraphM σ (Option Entity))
    fun _ m' => m'.entities[e.id]? = some e := by
  refine (write (.put e)).mono ?_
  rintro - _ rfl
  change (m.place e).entities[e.id]? = some e
  rw [VolatileStore.entities_place, if_pos rfl]

/-- Unless it is told of its creation, a stored entity may be handed over. -/
theorem tell
    {point : HookPoint} {e : Entity} (hpoint : point ≠ .created)
    (he : m.entities[e.id]? = some e) :
    Hands m (Graph.notify point e : GraphM σ Unit) fun _ _ => True := by
  have hstored : m.entities[e.id]? = some (e.asStored point) := by
    rw [he, e.asStored_of_ne_created hpoint]
  exact (notify hstored).mono fun _ _ _ => trivial

theorem update (id : EntityId) (attributes : WireAttributes) :
    Hands m (update id attributes : GraphM σ WireAttributes) fun _ _ => True := by
  refine (fetch id).bind fun e? m' _ => ?_
  cases e? with
  | none => exact pure trivial
  | some e =>
    exact (put _).bind fun _ _ he => (tell (by nofun) he).bind fun _ _ _ => pure trivial

theorem associate (mixin : Category) (id : EntityId) :
    Hands m (associate mixin id : GraphM σ Unit) fun _ _ => True := by
  refine (fetch id).bind fun e? m' _ => ?_
  cases e? with
  | none => exact pure trivial
  | some e =>
    by_cases hcarries : e.kind = mixin ∨ mixin ∈ e.mixins
    · simpa only [hcarries, if_true] using pure trivial
    · simp only [hcarries, if_false]
      refine (write (.indexInsert mixin id)).bind fun _ _ _ => ?_
      exact (put _).bind fun _ _ he => tell (by nofun) he

theorem dissociate (mixin : Category) (id : EntityId) :
    Hands m (dissociate mixin id : GraphM σ Unit) fun _ _ => True := by
  refine (fetch id).bind fun e? m' _ => ?_
  cases e? with
  | none => exact pure trivial
  | some e =>
    by_cases hcarries : mixin ∈ e.mixins
    · simp only [hcarries, if_true]
      have hput (m : VolatileStore) : Hands m
          (do let _ ← Graph.change (EntityStore.put (e.losing mixin))
              Graph.notify (.mixinRemoved mixin) (e.losing mixin) :
                GraphM σ Unit) fun _ _ => True :=
        (put _).bind fun _ _ he => tell (by nofun) he
      by_cases hkind : e.kind = mixin
      · simpa [hkind, Entity.losing, Entity.bump] using hput m'
      · have hkind' : ({ e with mixins := e.mixins.erase mixin }.bump).kind ≠
            mixin := hkind
        simp only [hkind', ne_eq, not_false_eq_true, if_true]
        exact (write (.indexRemove mixin id)).bind fun _ m _ => hput m
    · simpa only [hcarries, if_false] using pure trivial

/-- The handler is told before anything is taken from the store. -/
theorem erase {e : Entity} (he : m.entities[e.id]? = some e) :
    Hands m (erase e.id e : GraphM σ Unit) fun _ _ => True := by
  refine (tell (by nofun) he).bind fun _ _ _ => ?_
  have hleave : Composed (fun _ => False) (fun _ => False)
      (leaveIndex e.id e : GraphM σ Unit) :=
    .forM (fun c => .indexRemove c e.id) e.categories
  have hremove : Composed (fun _ => False) (fun _ => False)
      (do let _ ← Graph.change (EntityStore.remove e.id) : GraphM σ Unit) :=
    (Composed.remove e.id).bind fun _ => .pure ()
  refine of_composed (hleave.bind fun _ => ?_)
  cases e.source? with
  | none => exact hremove
  | some source => exact (Composed.detach source e.id).bind fun _ => hremove

theorem cascade (depth : Nat) (id : EntityId) (visited : NameSet) :
    Hands m (cascade depth id visited : GraphM σ NameSet) fun _ _ => True := by
  induction depth generalizing m id visited with
  | zero => exact pure trivial
  | succ depth ih =>
    rw [Graph.cascade]
    by_cases hid : id ∈ visited
    · simpa only [hid, if_true] using pure trivial
    · simp only [hid, if_false]
      refine (fetch id).bind fun e? m' _ => ?_
      cases e? with
      | none => exact pure trivial
      | some e =>
        refine (foldlM (fun visited id _ => ih id visited) _ _).bind fun visited
          m' _ => ?_
        refine (fetch id).bind ?_
        rintro e? _ ⟨rfl, hfound⟩
        cases e? with
        | none => exact pure trivial
        | some e =>
          obtain ⟨he, rfl⟩ := hfound e rfl
          exact (erase he).bind fun _ _ _ => pure trivial

theorem delete
    (name : String) :
    Hands m (delete name : GraphM σ Unit) fun _ _ => True := by
  refine (query fun _ _ hm => FaithfulStore.contains hm name).bind fun stored
    m' _ => ?_
  cases stored with
  | true =>
    have hget : Hands m' (get : GraphM σ (Graph σ)) fun _ _ => True :=
      of_journal_eq (fun _ => rfl) fun _ hm _ _ => ⟨m', hm, trivial⟩
    exact hget.bind fun g _ _ =>
      (cascade (chainBound g) name ∅).batched.bind fun _ _ _ => pure trivial
  | false =>
    refine (query fun _ _ hm => FaithfulStore.hasCategory hm name).bind
      fun known m' _ => ?_
    cases known with
    | false => exact pure trivial
    | true =>
      refine batched ((query fun _ _ hm => FaithfulStore.members hm name).bind
        fun ids _ _ => ?_)
      exact forM (fun id _ => dissociate name id) ids

theorem reply
    (op : Operation) :
    Hands m (op.reply : GraphM σ Reply) fun _ _ => True := by
  have hmixin (mixin : Category) (ids : List EntityId) :
      Hands m (saveMixin mixin ids : GraphM σ Unit) fun _ _ => True :=
    batched (forM (fun id _ => associate mixin id) ids)
  cases op with
  | saveResource d => exact (saveResource d).bind fun _ _ _ => pure trivial
  | saveLink d ends => exact (saveLink d ends).bind fun _ _ _ => pure trivial
  | update id attributes =>
    exact (update id attributes).bind fun _ _ _ => pure trivial
  | saveMixin mixin ids =>
    exact (hmixin mixin ids).bind fun _ _ _ => pure trivial
  | updateMixin mixin ids =>
    exact (hmixin mixin ids).bind fun _ _ _ => pure trivial
  | delete name => exact (delete name).bind fun _ _ _ => pure trivial
  | restore entities => exact of_composed (.reply (.restore entities))

theorem execute
    (id : EntityId) (action : String) (attributes : WireAttributes) :
    Hands m (execute id action attributes : GraphM σ Bool) fun _ _ => True := by
  refine (fetch id).bind ?_
  rintro e? m' ⟨rfl, hfound⟩
  cases e? with
  | none => exact pure trivial
  | some e =>
    obtain ⟨he, rfl⟩ := hfound e rfl
    have hstored : m'.entities[e.id]? =
        some (e.asStored (.action action attributes.decoded)) := by
      rw [he, e.asStored_of_ne_created (by nofun)]
    refine (callHandler hstored).bind fun answer _ _ => ?_
    cases answer with
    | ok _ => exact pure trivial
    | error error => exact throw error

theorem request
    (r : GraphRequest) :
    Hands m (r.perform : GraphM σ r.Answer) fun _ _ => True := by
  cases r with
  | operate op => exact reply op
  | execute id action attributes => exact execute id action attributes
  | look l =>
    exact of_journal_eq (fun _ => rfl) fun _ hm _ _ => ⟨m, hm, trivial⟩

end Hands

/-! ## What handlers see -/

variable [SettlingStore σ] {g : Graph σ}

/-- After any attempts at operations, a look at the store while a handler is
called in the course of a request finds, unless it fails, the entity that the
handler was handed.  Only a link that is saved as its own source is stored with
one back-reference, to itself, that the handler need not be shown. -/
theorem handed_attempted (hg : g.Fresh) (hsteady : SettlingStore.Steady g.store)
    (attempts : List (Attempt σ)) (request : GraphRequest) :
    ∃ entries, (request.perform (g.attempted attempts)).2.journal =
        (g.attempted attempts).journal ++ entries ∧
      ∀ store style point e, .called store style point e ∈ entries →
        Answers (EntityStore.get store e.id) (.ok (some (e.asStored point))) ∧
          (e.asStored point = e ↔
            ¬(point = .created ∧ e.source? = some e.id ∧
              e.id ∉ e.linkedFrom)) := by
  have hsettled : Settled (fun _ => True) g.store :=
    ⟨hsteady, {}, hg.store, trivial⟩
  obtain ⟨-, m, hm, -⟩ := hsettled.attempted (fun _ _ _ => trivial) attempts
  obtain ⟨entries, hjournal, hcurrent, -⟩ := Hands.request request _ hm
  exact ⟨entries, hjournal, fun store style point e hcalled =>
    ⟨hcurrent _ hcalled, Entity.asStored_eq_self_iff⟩⟩

/-- One resource has been saved. -/
def oneResource : List (Attempt VolatileStore) :=
  [{ op := .saveResource { id := "a", kind := "k" } }]

/-- A link replaces the resource and takes it, that is itself, for its
source. -/
def becomingOwnSource : GraphRequest :=
  .operate (.saveLink { id := "a", kind := "k" } ⟨"a", "a"⟩)

/-- The handler of the link is shown no back-reference, while the link is stored
with one. -/
theorem handed_attempted_becomingOwnSource :
    ∃ store style e stored,
      .called store style .created e ∈
        (becomingOwnSource.perform
          (attempted { store := {} } oneResource)).2.journal ∧
      EntityStore.get store e.id = .ok (some stored) ∧
      stored ≠ e ∧ "a" ∈ stored.linkedFrom ∧ "a" ∉ e.linkedFrom := by
  have hfresh : Fresh { store := ({} : VolatileStore) } :=
    ⟨⟨rfl, VolatileStore.keyed_empty⟩, rfl⟩
  obtain ⟨entries, hjournal, hhanded⟩ :=
    handed_attempted hfresh trivial oneResource becomingOwnSource
  let e : Entity := { id := "a", kind := "k", endpoints := some ⟨"a", "a"⟩ }
  have hentries : (becomingOwnSource.perform
      (attempted { store := {} } oneResource)).2.journal =
      (attempted { store := {} } oneResource).journal ++
        [.called (becomingOwnSource.perform
          (attempted { store := {} } oneResource)).2.store
          .silent .created e] := by
    decide +kernel
  obtain rfl := List.append_cancel_left (hjournal.symm.trans hentries)
  obtain ⟨hanswers, hsame⟩ := hhanded _ _ _ _ (List.mem_singleton.mpr rfl)
  refine ⟨_, .silent, e, e.asStored .created, ?_,
    hanswers.eq_of_readable ⟨_, rfl⟩, ?_, ?_, ?_⟩
  · rw [hentries]
    exact List.mem_append_right _ (List.mem_singleton.mpr rfl)
  · rw [ne_eq, hsame, not_not]
    exact ⟨rfl, rfl, by decide +kernel⟩
  · decide +kernel
  · decide +kernel

end Graph

end LinkGraph
