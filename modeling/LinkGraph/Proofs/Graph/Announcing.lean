import LinkGraph.Proofs.Graph.Atomicity

/-!
# What a failing operation has announced

A handler is told of a change after it has been made.  Saving and updating tell
it when nothing can fail any more.  A mixin, however, is associated and
dissociated entity by entity, and each handler is told at once, inside a batch
that a later entity or the commit may still fail.  This file says exactly when a
failing operation has told handlers of changes that were then dropped.
-/

namespace LinkGraph

/-- At such a point a handler is told of a change that has been made. -/
def HookPoint.announces : HookPoint → Bool
  | created | updated | mixinAdded _ | mixinRemoved _ => true
  | deleting | action .. => false

/-- The change that a handler was told of. -/
def JournalEntry.announcement?
    {σ : Type} : JournalEntry σ → Option (HookPoint × Entity)
  | called _ _ point e => if point.announces then some (point, e) else none
  | failed .. => none

/-- Going through ids, `e` is the first entity that is found and concerned, and
no id before it fails to be read. -/
inductive DurableStore.FirstConcerned
    (s : DurableStore) (concerned : Entity → Prop) :
    List EntityId → Entity → Prop
  | here {id : EntityId} {ids : List EntityId} {e : Entity} :
      s.get id = .ok (some e) → concerned e →
        FirstConcerned s concerned (id :: ids) e
  | later {id : EntityId} {ids : List EntityId} {e : Entity}
    {e? : Option Entity} :
      s.get id = .ok e? → (∀ p, e? = some p → ¬concerned p) →
      FirstConcerned s concerned ids e →
      FirstConcerned s concerned (id :: ids) e

namespace DurableStore

variable {s s' : DurableStore} {concerned : Entity → Prop} {id : EntityId}
  {ids : List EntityId} {e p : Entity} {e? : Option Entity} {error : StoreError}

theorem not_firstConcerned_nil : ¬s.FirstConcerned concerned [] e := by
  intro h
  cases h

theorem not_firstConcerned_of_error (hget : s.get id = .error error) :
    ¬s.FirstConcerned concerned (id :: ids) e := by
  intro h
  cases h with
  | here hfound _ => simp [hget] at hfound
  | later hread _ _ => simp [hget] at hread

theorem firstConcerned_of_concerned
    (hget : s.get id = .ok (some p)) (hp : concerned p) :
    s.FirstConcerned concerned (id :: ids) e ↔ e = p := by
  constructor
  · intro h
    cases h with
    | here hfound _ =>
      exact Option.some.inj (Except.ok.inj (hfound.symm.trans hget))
    | later hread hpassed _ =>
      obtain rfl := Except.ok.inj (hget.symm.trans hread)
      exact absurd hp (hpassed p rfl)
  · rintro rfl
    exact .here hget hp

theorem firstConcerned_of_passed (hget : s.get id = .ok e?)
    (hpassed : ∀ p, e? = some p → ¬concerned p) :
    s.FirstConcerned concerned (id :: ids) e ↔
      s.FirstConcerned concerned ids e := by
  constructor
  · intro h
    cases h with
    | here hfound he =>
      obtain rfl := Except.ok.inj (hget.symm.trans hfound)
      exact absurd he (hpassed e rfl)
    | later _ _ hrest => exact hrest
  · exact .later hget hpassed

theorem firstConcerned_congr (hget : ∀ key, s'.get key = s.get key) :
    s'.FirstConcerned concerned ids e ↔ s.FirstConcerned concerned ids e := by
  constructor
  · intro h
    induction h with
    | here hfound he => exact .here ((hget _).symm.trans hfound) he
    | later hread hpassed _ ih =>
      exact .later ((hget _).symm.trans hread) hpassed ih
  · intro h
    induction h with
    | here hfound he => exact .here ((hget _).trans hfound) he
    | later hread hpassed _ ih => exact .later ((hget _).trans hread) hpassed ih

end DurableStore

/-- On a store the operation gets as far as rewriting an entity for a mixin: the
first of the entities it goes through that lack the mixin, or carry it, can be
written. -/
def Operation.Rewrites (s : DurableStore) : Operation → Prop
  | saveMixin mixin ids | updateMixin mixin ids =>
    ∃ e, s.FirstConcerned (fun e => e.kind ≠ mixin ∧ mixin ∉ e.mixins) ids e ∧
      (∃ members?, s.members? mixin = .ok members?) ∧
      ∃ previous, s.get e.id = .ok previous
  | delete name => EntityStore.contains s name = .ok false ∧
    ∃ ids e, s.members? name = .ok (some ids) ∧
      s.FirstConcerned (name ∈ ·.mixins) ids e ∧
      ∃ previous, s.get e.id = .ok previous
  | _ => False

namespace Graph

variable {σ α β : Type}

/-- What handlers are told in the course of an operation about changes made. -/
def announcements (p : GraphM σ α) (g : Graph σ) : List (HookPoint × Entity) :=
  ((p g).2.journal.drop g.journal.length).filterMap JournalEntry.announcement?

/-! ## Announcements and sequences -/

section Sequences

variable {p : GraphM σ α} {f : α → GraphM σ β} {g g' : Graph σ}
  {points points' : HookPoint → Prop}

theorem announcements_eq
    {entries : Journal σ} (h : (p g).2.journal = g.journal ++ entries) :
    announcements p g = entries.filterMap JournalEntry.announcement? := by
  rw [announcements, h, List.drop_left]

theorem announcements_of_journal_eq
    (h : (p g).2.journal = g.journal) :
    announcements p g = [] := by
  have hjournal : (p g).2.journal = g.journal ++ [] := by
    rw [h, List.append_nil]
  exact announcements_eq hjournal

/-- An operation that ends with a handler being told of a change announces this
change. -/
theorem announcements_of_notified
    {r : Except StoreError α} {s : σ} {point : HookPoint} {e : Entity}
    (h : p g = (r, { g with store := s }.notified point e))
    (hpoint : point.announces) :
    announcements p g = [(point, e)] := by
  have hjournal :
      (p g).2.journal = g.journal ++ reports { g with store := s } point e := by
    rw [h]
    rfl
  rw [announcements_eq hjournal, reports, List.filterMap_cons]
  simp only [JournalEntry.announcement?, hpoint, if_true]
  split
  · rfl
  · rfl

theorem Appends.journal_eq (h : Appends points p) (g : Graph σ) :
    ∃ entries, (p g).2.journal = g.journal ++ entries ∧
      ∀ entry ∈ entries, points entry.point := by
  obtain ⟨r, store, entries, hrun, hentries⟩ := h g
  have hself : p g = (r, { g with store, journal := g.journal ++ entries }) :=
    hrun g.journal
  exact ⟨entries, by rw [hself], hentries⟩

theorem filterMap_announcement?_eq_nil {entries : Journal σ}
    (h : ∀ entry ∈ entries, entry.point.announces = false) :
    entries.filterMap JournalEntry.announcement? = [] := by
  rw [List.filterMap_eq_nil_iff]
  intro entry hentry
  have hpoint := h entry hentry
  cases entry with
  | called _ _ point e =>
    have hpoint : point.announces = false := hpoint
    simp [JournalEntry.announcement?, hpoint]
  | failed => rfl

theorem announcements_bind_ok
    {a : α} (hp : Appends points p) (hf : Appends points' (f a))
    (hrun : p g = (.ok a, g')) :
    announcements (p >>= f) g =
      announcements p g ++ announcements (f a) g' := by
  obtain ⟨entries, hjournal, -⟩ := hp.journal_eq g
  obtain ⟨entries', hjournal', -⟩ := hf.journal_eq g'
  have hboth :
      ((p >>= f) g).2.journal = g.journal ++ (entries ++ entries') := by
    rw [hrun] at hjournal
    rw [bind_run_ok hrun, hjournal', ← List.append_assoc, ← hjournal]
  rw [announcements_eq hjournal, announcements_eq hjournal',
    announcements_eq hboth, List.filterMap_append]

theorem announcements_map (p : GraphM σ α) (f : α → β) (g : Graph σ) :
    announcements (do return f (← p)) g = announcements p g := by
  have hjournal :
      ((do return f (← p) : GraphM σ β) g).2.journal = (p g).2.journal := by
    rcases hrun : p g with ⟨r, g'⟩
    cases r with
    | error e => rw [bind_run_error hrun]
    | ok a => rw [bind_run_ok hrun, pure_run]
  rw [announcements, announcements, hjournal]

theorem announcements_bind_error
    {e : StoreError} (hrun : p g = (.error e, g')) :
    announcements (p >>= f) g = announcements p g := by
  rw [announcements, announcements, bind_run_error hrun, hrun]

end Sequences

/-! ## Operations that announce nothing they do not keep -/

variable {p : GraphM DurableStore α} {f : α → GraphM DurableStore β}
  {g : Graph DurableStore} {points : HookPoint → Prop}

/-- Opening, committing and dropping a batch does not show in the journal. -/
theorem announcements_batched
    (p : GraphM DurableStore α) (g : Graph DurableStore) :
    announcements (batched p) g =
      announcements p { g with store := g.store.opening } := by
  have hbegin :
      bracketing.begin g = (.ok (), { g with store := g.store.opening }) := rfl
  have hjournal : (batched p g).2.journal =
      (p { g with store := g.store.opening }).2.journal := by
    rw [batched_eq_around]
    rcases hrun : p { g with store := g.store.opening } with ⟨r, g'⟩
    cases r with
    | error e =>
      rw [bracketing.around_run_error hbegin hrun]
      rfl
    | ok a =>
      rw [bracketing.around_run_ok hbegin hrun]
      rcases hcommit : bracketing.commit g' with ⟨r, g''⟩
      have hsame : g''.journal = g'.journal := by
        have hstill : (bracketing.commit g').2.journal = g'.journal := rfl
        rw [hcommit] at hstill
        exact hstill
      cases r with
      | error e => rw [bind_run_error hcommit, hsame]
      | ok u => rw [bind_run_ok hcommit, pure_run, hsame]
  rw [announcements, announcements, hjournal]

/-- The operation adds to the journal, and if it fails it has told no handler of
a change. -/
def Discreet (p : GraphM DurableStore α) : Prop :=
  ∀ g, ∃ entries, (p g).2.journal = g.journal ++ entries ∧
    ∀ e, (p g).1 = .error e → ∀ entry ∈ entries, entry.point.announces = false

theorem Discreet.announcements_eq_nil (hp : Discreet p) {e : StoreError}
    (he : (p g).1 = .error e) : announcements p g = [] := by
  obtain ⟨entries, hjournal, hentries⟩ := hp g
  rw [announcements_eq hjournal]
  exact filterMap_announcement?_eq_nil (hentries e he)

theorem Composed.discreet
    (hp : Composed (fun point => point.announces = false) (fun _ => True) p) :
    Discreet p := by
  intro g
  obtain ⟨entries, hjournal, hentries⟩ := hp.appends.journal_eq g
  exact ⟨entries, hjournal, fun _ _ => hentries⟩

/-- What announces nothing may precede a discreet operation. -/
theorem Discreet.bind
    (hp : Composed (fun point => point.announces = false) (fun _ => True) p)
    (hf : ∀ a, Discreet (f a)) : Discreet (p >>= f) := by
  intro g
  obtain ⟨entries, hjournal, hentries⟩ := hp.appends.journal_eq g
  rcases hrun : p g with ⟨r, g'⟩
  rw [hrun] at hjournal
  cases r with
  | error error =>
    rw [bind_run_error hrun]
    exact ⟨entries, hjournal, fun _ _ => hentries⟩
  | ok a =>
    obtain ⟨entries', hjournal', hentries'⟩ := hf a g'
    rw [bind_run_ok hrun]
    refine ⟨entries ++ entries', ?_, fun e he => ?_⟩
    · rw [hjournal', hjournal, List.append_assoc]
    · exact List.forall_mem_append.mpr ⟨hentries, hentries' e he⟩

/-- Nothing fails once a handler is told in the end. -/
theorem Discreet.notify (point : HookPoint) (e : Entity) (a : α) :
    Discreet (do Graph.notify point e; return a) := by
  intro g
  rw [bind_run_ok (notify_run g point e), pure_run]
  exact ⟨g.reports point e, rfl, fun e he => by cases he⟩

theorem Discreet.map
    (hp : Discreet p) (f : α → β) :
    Discreet (do return f (← p)) := by
  intro g
  obtain ⟨entries, hjournal, hentries⟩ := hp g
  rcases hrun : p g with ⟨r, g'⟩
  rw [hrun] at hjournal hentries
  cases r with
  | error e =>
    rw [bind_run_error hrun]
    exact ⟨entries, hjournal, fun _ _ => hentries e rfl⟩
  | ok a =>
    rw [bind_run_ok hrun, pure_run]
    exact ⟨entries, hjournal, fun e he => by cases he⟩

theorem saveResource_discreet (d : Draft) : Discreet (saveResource d) :=
  .bind (.checkCategory (fun _ _ => trivial) d.kind) fun _ =>
    .bind (.batched (.replace _)) fun e =>
    .notify .created e d.id

theorem saveLink_discreet
    (d : Draft) (ends : Endpoints) :
    Discreet (saveLink d ends) :=
  .bind (.checkCategory (fun _ _ => trivial) d.kind) fun _ =>
    .bind (.checkEndpoint (fun _ _ => trivial) d.id ends.source) fun _ =>
    .bind (.checkEndpoint (fun _ _ => trivial) d.id ends.target) fun _ =>
      .bind (.batched (.replaceAndAttach _ _)) fun e => .notify .created e d.id

theorem update_discreet (id : EntityId) (attributes : WireAttributes) :
    Discreet (update id attributes) := by
  refine .bind (.fetch id) fun e? => ?_
  cases e? with
  | none => exact (Composed.pure attributes).discreet
  | some e => exact .bind (.put _) fun _ => .notify .updated _ _

theorem restore_discreet
    (entities : List Entity) :
    Discreet (restore entities) :=
  (Composed.restore entities).discreet

/-! ## Going through entities within a batch -/

/-- How an operation on single ids turns out on a graph: it passes over what it
is not concerned with, rewrites and announces a concerned entity if this can be
written, and fails silently otherwise. -/
structure Sweeps
    (p : EntityId → GraphM DurableStore Unit) (g : Graph DurableStore)
    (concerned writable : Entity → Prop) : Prop where
  composed (id : EntityId) : Composed (fun _ => True) (fun _ => True) (p id)
  unreadable {id : EntityId} {error : StoreError} :
    g.store.get id = .error error →
    p id g = (.error error, g)
  passed {id : EntityId} {e? : Option Entity} : g.store.get id = .ok e? →
    (∀ e, e? = some e → ¬concerned e) → p id g = (.ok (), g)
  rewritten {id : EntityId} {e : Entity} :
    g.store.get id = .ok (some e) → concerned e →
    writable e → ∃ s point e', p id g = (.ok (),
      { g with store := s }.notified point e') ∧
      point.announces
  refused {id : EntityId} {e : Entity} :
    g.store.get id = .ok (some e) → concerned e →
    ¬writable e → ∃ error s, p id g = (.error error, { g with store := s })

/-- A sweep over a list announces something if the first concerned entity can be
written. -/
theorem Sweeps.announcements_forM
    {p : EntityId → GraphM DurableStore Unit}
    {concerned writable : Entity → Prop} (h : Sweeps p g concerned writable)
    (ids : List EntityId) :
    announcements (ids.forM p) g ≠ [] ↔
      ∃ e, g.store.FirstConcerned concerned ids e ∧ writable e := by
  induction ids with
  | nil =>
    rw [announcements_of_journal_eq rfl]
    simp [DurableStore.not_firstConcerned_nil]
  | cons id ids ih =>
    change announcements (p id >>= fun _ => ids.forM p) g ≠ [] ↔ _
    have hrest : Appends (fun _ => True) (ids.forM p) :=
      (Composed.forM h.composed ids).appends
    cases hget : g.store.get id with
    | error error =>
      have hrun := h.unreadable hget
      rw [announcements_bind_error hrun,
        announcements_of_journal_eq (by rw [hrun])]
      simp [DurableStore.not_firstConcerned_of_error hget]
    | ok e? =>
      by_cases hconcerned : ∃ e, e? = some e ∧ concerned e
      · obtain ⟨e, rfl, he⟩ := hconcerned
        simp only [DurableStore.firstConcerned_of_concerned hget he,
          exists_eq_left]
        by_cases hwritable : writable e
        · obtain ⟨s, point, e', hrun, hpoint⟩ := h.rewritten hget he hwritable
          rw [announcements_bind_ok (h.composed id).appends hrest hrun,
            announcements_of_notified hrun hpoint]
          simp [hwritable]
        · obtain ⟨error, s, hrun⟩ := h.refused hget he hwritable
          rw [announcements_bind_error hrun,
            announcements_of_journal_eq (by rw [hrun])]
          simp [hwritable]
      · have hpassed : ∀ e, e? = some e → ¬concerned e :=
          fun e he hc => hconcerned ⟨e, he, hc⟩
        have hrun := h.passed hget hpassed
        rw [announcements_bind_ok (h.composed id).appends hrest hrun,
          announcements_of_journal_eq (by rw [hrun]), List.nil_append, ih]
        simp only [DurableStore.firstConcerned_of_passed hget hpassed]

/-- Changes the index, writes an entity and tells its handler of it. -/
def rewriting
    (index : GraphM DurableStore Unit) (point : HookPoint) (e : Entity) :
    GraphM DurableStore Unit := do
  index
  let _ ← change (EntityStore.put e)
  notify point e

theorem rewriting_run_ok
    {index : GraphM DurableStore Unit} {s : DurableStore} {e : Entity}
    {previous : Option Entity}
    (hindex : index g = (.ok (), { g with store := s })) (hlevel : 0 < s.level)
    (hget : s.get e.id = .ok previous) (point : HookPoint) :
    ∃ s', rewriting index point e g =
      (.ok (), { g with store := s' }.notified point e) := by
  have hput := DurableStore.put_run_ok hlevel hget
  have hchange := change_run_of_eq (g := { g with store := s }) hput
  exact ⟨_, by rw [rewriting, bind_run_ok hindex, bind_run_ok hchange, notify_run]⟩

theorem rewriting_run_error
    {index : GraphM DurableStore Unit} {s : DurableStore} {e : Entity}
    {error : StoreError} (hindex : index g = (.ok (), { g with store := s }))
    (hget : s.get e.id = .error error) (point : HookPoint) :
    ∃ s',
      rewriting index point e g = (.error error, { g with store := s' }) := by
  obtain ⟨s', hput⟩ := DurableStore.put_run_error hget
  have hchange := change_run_of_eq (g := { g with store := s }) hput
  exact ⟨s', by rw [rewriting, bind_run_ok hindex, bind_run_error hchange]⟩

theorem fetch_run_durable
    {id : EntityId} {r : Except StoreError (Option Entity)}
    (hget : g.store.get id = r) :
    fetch id g = (r, g) := by
  rw [← hget]
  rfl

theorem associate_run_concerned
    {mixin : Category} {id : EntityId} {e : Entity}
    (hget : g.store.get id = .ok (some e))
    (hconcerned : e.kind ≠ mixin ∧ mixin ∉ e.mixins) :
    associate mixin id g =
      rewriting (change (EntityStore.indexInsert mixin id)) (.mixinAdded mixin)
        (e.gaining mixin) g := by
  rw [associate, bind_run_ok (fetch_run_durable hget)]
  simp only
  rw [if_neg (not_or.mpr hconcerned)]
  rfl

/-- An entity leaves the bucket of a mixin, unless the mixin is its kind. -/
def leaveBucket
    (mixin : Category) (id : EntityId) (e : Entity) :
    GraphM DurableStore Unit :=
  if e.kind ≠ mixin then change (EntityStore.indexRemove mixin id) else pure ()

theorem leaveBucket_run
    {mixin : Category} {members? : Option (List EntityId)}
    (hlevel : 0 < g.store.level)
    (hmembers : g.store.members? mixin = .ok members?) (id : EntityId)
    (e : Entity) :
    ∃ s, leaveBucket mixin id e g = (.ok (), { g with store := s }) ∧
      0 < s.level ∧
      ∀ key, s.get key = g.store.get key := by
  unfold leaveBucket
  by_cases hkind : e.kind = mixin
  · refine ⟨g.store, ?_, hlevel, fun _ => rfl⟩
    rw [if_neg (not_not.mpr hkind)]
    rfl
  · obtain ⟨s, hindex, hsame, hgets⟩ :=
      DurableStore.changeBucket_run_ok hlevel hmembers (Bucket.erase? · id)
    refine ⟨s, ?_, hsame ▸ hlevel, hgets⟩
    rw [if_pos hkind]
    exact change_run_of_eq hindex

theorem dissociate_run_concerned {mixin : Category} {id : EntityId} {e : Entity}
    (hget : g.store.get id = .ok (some e)) (hcarries : mixin ∈ e.mixins) :
    dissociate mixin id g =
      rewriting (leaveBucket mixin id e) (.mixinRemoved mixin)
        (e.losing mixin) g := by
  rw [dissociate, bind_run_ok (fetch_run_durable hget)]
  simp only
  rw [if_pos hcarries]
  by_cases hkind : e.kind = mixin
  · simp [rewriting, leaveBucket, Entity.bump, Entity.losing, hkind]
  · simp [rewriting, leaveBucket, Entity.bump, Entity.losing, hkind]

theorem associate_sweeps (mixin : Category) (hlevel : 0 < g.store.level) :
    Sweeps (associate mixin) g (fun e => e.kind ≠ mixin ∧
      mixin ∉ e.mixins) fun e =>
      (∃ members?, g.store.members? mixin = .ok members?) ∧
        ∃ previous, g.store.get e.id = .ok previous where
  composed id := .associate trivial id
  unreadable hget := by
    rw [associate, bind_run_error (fetch_run_durable hget)]
  passed {id e?} hget hpassed := by
    rw [associate, bind_run_ok (fetch_run_durable hget)]
    cases e? with
    | none => rfl
    | some e =>
      have hcarries : e.kind = mixin ∨ mixin ∈ e.mixins := by
        have hnot := hpassed e rfl
        rw [not_and_or, not_not, not_not] at hnot
        exact hnot
      simp only
      rw [if_pos hcarries]
      rfl
  rewritten {id e} hget hconcerned hwritable := by
    obtain ⟨⟨members?, hmembers⟩, previous, hprevious⟩ := hwritable
    obtain ⟨s, hindex, hsame, hgets⟩ :=
      DurableStore.changeBucket_run_ok hlevel hmembers (Bucket.insert? · id)
    have hop : change (EntityStore.indexInsert mixin id) g =
        (.ok (), { g with store := s }) :=
      change_run_of_eq hindex
    obtain ⟨s', hrun⟩ := rewriting_run_ok (e := e.gaining mixin) hop
      (hsame ▸ hlevel) ((hgets e.id).trans hprevious) (.mixinAdded mixin)
    exact ⟨s', _, _, (associate_run_concerned hget hconcerned).trans hrun, rfl⟩
  refused {id e} hget hconcerned hwritable := by
    rw [associate_run_concerned hget hconcerned]
    cases hmembers : g.store.members? mixin with
    | error error =>
      obtain ⟨s, hindex⟩ :=
        DurableStore.changeBucket_run_error hmembers (Bucket.insert? · id)
      have hop : change (EntityStore.indexInsert mixin id) g =
          (.error error, { g with store := s }) := change_run_of_eq hindex
      exact ⟨error, s, by rw [rewriting, bind_run_error hop]⟩
    | ok members? =>
      obtain ⟨s, hindex, hsame, hgets⟩ :=
        DurableStore.changeBucket_run_ok hlevel hmembers (Bucket.insert? · id)
      have hop : change (EntityStore.indexInsert mixin id) g =
          (.ok (), { g with store := s }) :=
        change_run_of_eq hindex
      cases hget' : g.store.get e.id with
      | error error =>
        obtain ⟨s', hrun⟩ := rewriting_run_error (e := e.gaining mixin) hop
          ((hgets e.id).trans hget') (.mixinAdded mixin)
        exact ⟨error, s', hrun⟩
      | ok previous =>
        exact absurd ⟨⟨members?, hmembers⟩, previous, hget'⟩ hwritable

theorem dissociate_sweeps
    {mixin : Category} {members? : Option (List EntityId)}
    (hlevel : 0 < g.store.level)
    (hmembers : g.store.members? mixin = .ok members?) :
    Sweeps (dissociate mixin) g (mixin ∈ ·.mixins) fun e =>
      ∃ previous, g.store.get e.id = .ok previous where
  composed id := .dissociate trivial id
  unreadable hget := by
    rw [dissociate, bind_run_error (fetch_run_durable hget)]
  passed {id e?} hget hpassed := by
    rw [dissociate, bind_run_ok (fetch_run_durable hget)]
    cases e? with
    | none => rfl
    | some e =>
      simp only
      rw [if_neg (hpassed e rfl)]
      rfl
  rewritten {id e} hget hcarries hwritable := by
    obtain ⟨previous, hprevious⟩ := hwritable
    obtain ⟨s, hindex, hlevel', hgets⟩ := leaveBucket_run hlevel hmembers id e
    obtain ⟨s', hrun⟩ := rewriting_run_ok (e := e.losing mixin) hindex hlevel'
      ((hgets e.id).trans hprevious) (.mixinRemoved mixin)
    exact ⟨s', _, _, (dissociate_run_concerned hget hcarries).trans hrun, rfl⟩
  refused {id e} hget hcarries hwritable := by
    obtain ⟨s, hindex, -, hgets⟩ := leaveBucket_run hlevel hmembers id e
    cases hget' : g.store.get e.id with
    | error error =>
      obtain ⟨s', hrun⟩ := rewriting_run_error (e := e.losing mixin) hindex
        ((hgets e.id).trans hget') (.mixinRemoved mixin)
      exact ⟨error, s', (dissociate_run_concerned hget hcarries).trans hrun⟩
    | ok previous => exact absurd ⟨previous, hget'⟩ hwritable

/-! ## The operations -/

theorem announcements_saveMixin
    (mixin : Category) (ids : List EntityId) (g : Graph DurableStore) :
    announcements (saveMixin mixin ids) g ≠ [] ↔
      (Operation.saveMixin mixin ids).Rewrites g.store := by
  rw [saveMixin, announcements_batched,
    (associate_sweeps mixin
      (DurableStore.level_opening_pos g.store)).announcements_forM]
  simp only [DurableStore.firstConcerned_congr
    (DurableStore.get_opening g.store), DurableStore.members?_opening,
    DurableStore.get_opening]
  rfl

/-- Deleting an entity announces nothing: handlers are asked before, not told
afterwards. -/
theorem announcements_delete_stored
    {name : String} (hstored : EntityStore.contains g.store name = .ok true) :
    announcements (delete name) g = [] := by
  have hdeleting : HookPoint.deleting.announces = false := rfl
  have hcascade :
    Composed (fun point => point.announces = false) (fun _ => True)
      (do let _ ← batched (cascade (chainBound g) name ∅) :
            GraphM DurableStore Unit) :=
    (Composed.cascade hdeleting _ name ∅).batched.bind fun _ => .pure ()
  have hquery : query (EntityStore.contains · name) g = (.ok true, g) :=
    congrArg (·, g) hstored
  have hrun : delete name g =
      (do let _ ← batched (cascade (chainBound g) name ∅)) g := by
    rw [delete, bind_run_ok hquery]
    rfl
  obtain ⟨entries, hjournal, hentries⟩ := hcascade.appends.journal_eq g
  rw [announcements_eq (by rw [hrun, hjournal])]
  exact filterMap_announcement?_eq_nil hentries

/-- Deleting a name under which nothing is stored comes down to its bucket, if
it can be read. -/
theorem delete_run_unstored_durable {name : String}
    (hstored : EntityStore.contains g.store name = .ok false) :
    delete name g = match g.store.members? name with
      | .error error => (.error error, g)
      | .ok none => (.ok (), g)
      | .ok (some _) => batched (dissociateAll name) g := by
  have hquery : query (EntityStore.contains · name) g = (.ok false, g) :=
    congrArg (·, g) hstored
  have hknown : query (EntityStore.hasCategory · name) g =
      (Option.isSome <$> g.store.members? name, g) := rfl
  rw [delete, bind_run_ok hquery]
  simp only [Bool.false_eq_true, if_false]
  cases hmembers : g.store.members? name with
  | error error =>
    rw [hmembers] at hknown
    exact bind_run_error hknown
  | ok members? =>
    rw [hmembers] at hknown
    rw [bind_run_ok hknown]
    cases members? with
    | none => rfl
    | some ids => rfl

theorem announcements_dissociateAll
    {name : String} {ids : List EntityId} (hlevel : 0 < g.store.level)
    (hmembers : g.store.members? name = .ok (some ids)) :
    announcements (dissociateAll name) g ≠ [] ↔
      ∃ e, g.store.FirstConcerned (name ∈ ·.mixins) ids e ∧
        ∃ previous, g.store.get e.id = .ok previous := by
  have hquery : query (EntityStore.members · name) g = (.ok ids, g) := by
    change ((·.getD []) <$> g.store.members? name, g) = _
    rw [hmembers]
    rfl
  rw [← (dissociate_sweeps hlevel hmembers).announcements_forM, announcements,
    announcements, dissociateAll, bind_run_ok hquery]

theorem announcements_delete (name : String) (g : Graph DurableStore) :
    announcements (delete name) g ≠ [] ↔
      (Operation.delete name).Rewrites g.store := by
  cases hstored : EntityStore.contains g.store name with
  | error error =>
    have hquery : query (EntityStore.contains · name) g = (.error error, g) :=
      congrArg (·, g) hstored
    rw [delete, announcements_bind_error hquery,
      announcements_of_journal_eq (by rw [hquery])]
    simp [Operation.Rewrites, hstored]
  | ok stored =>
    cases stored with
    | true =>
      rw [announcements_delete_stored hstored]
      simp [Operation.Rewrites, hstored]
    | false =>
      have hrun := delete_run_unstored_durable hstored
      cases hmembers : g.store.members? name with
      | error error =>
        rw [hmembers] at hrun
        rw [announcements_of_journal_eq (by rw [hrun])]
        simp [Operation.Rewrites, hmembers]
      | ok members? =>
        rw [hmembers] at hrun
        cases members? with
        | none =>
          rw [announcements_of_journal_eq (by rw [hrun])]
          simp [Operation.Rewrites, hmembers]
        | some ids =>
          have hlevel := DurableStore.level_opening_pos g.store
          have hmembers' :=
            (DurableStore.members?_opening g.store name).trans hmembers
          have hsame : announcements (delete name) g =
              announcements (batched (dissociateAll name)) g := by
            rw [announcements, announcements, hrun]
          rw [hsame, announcements_batched,
            announcements_dissociateAll hlevel hmembers']
          simp [DurableStore.firstConcerned_congr
            (DurableStore.get_opening g.store), DurableStore.get_opening,
            Operation.Rewrites, hstored, hmembers]

/-- Saving, updating and restoring announce nothing when they fail. -/
theorem announcements_reply {op : Operation} {error : StoreError}
    (hfail : (op.reply g).1 = .error error) :
    announcements op.reply g ≠ [] ↔ op.Rewrites g.store := by
  have hquiet {p : GraphM DurableStore Reply} (hp : Discreet p)
      (he : (p g).1 = .error error) : announcements p g ≠ [] ↔ False := by
    have hnone := hp.announcements_eq_nil he
    exact iff_of_false (not_not.mpr hnone) fun h => h
  cases op with
  | saveResource d =>
    exact hquiet ((saveResource_discreet d).map Reply.saved) hfail
  | saveLink d ends =>
    exact hquiet ((saveLink_discreet d ends).map Reply.saved) hfail
  | update id attributes =>
    exact hquiet ((update_discreet id attributes).map Reply.accepted) hfail
  | restore entities =>
    exact hquiet ((restore_discreet entities).map Reply.restored) hfail
  | saveMixin mixin ids =>
    have hmap := announcements_map (saveMixin mixin ids) (fun _ => Reply.done) g
    rw [← announcements_saveMixin mixin ids g, ← hmap]
    rfl
  | updateMixin mixin ids =>
    have hmap := announcements_map (saveMixin mixin ids) (fun _ => Reply.done) g
    have hsame := announcements_saveMixin mixin ids g
    rw [← hmap] at hsame
    exact hsame
  | delete name =>
    have hmap := announcements_map (delete name) (fun _ => Reply.done) g
    rw [← announcements_delete name g, ← hmap]
    rfl

/-- Whatever the tables of a store without an open batch hold, and whatever its
medium answers: an operation that fails leaves the store as it was, and has told
handlers of changes nevertheless if and only if it has got as far as rewriting
an entity for a mixin. -/
theorem announced_of_failed
    {g : Graph DurableStore} (hidle : g.store.batch = none) (op : Operation)
    {error : StoreError} (hfail : (op.reply g).1 = .error error) :
    (op.reply g).2.store = g.store ∧
      (announcements op.reply g ≠ [] ↔ op.Rewrites g.store) := by
  refine ⟨?_, announcements_reply hfail⟩
  rcases reply_atomic op g hidle with ⟨e, -, hstore⟩ | ⟨r, hr, -⟩
  · exact hstore
  · simp [hr] at hfail

/-- A resource, and an id whose row is no entity. -/
def secondResourceGarbled : Graph DurableStore where
  store := { tables := {
    entities := .ofList [
      ("a", Binary.Format.entity.write { id := "a", kind := "k" }),
      ("b", [0xFF])]
    categories := .ofList [("k", Tables.membersFormat.write ["a", "b"])] } }

/-- A handler is told that `a` carries the mixin, and then the row of `b` cannot
be read. -/
theorem announced_of_failed_secondResourceGarbled :
    (∃ error, (Operation.reply (.saveMixin "m" ["a", "b"])
      secondResourceGarbled).1 = .error error) ∧
      (Operation.reply (.saveMixin "m" ["a", "b"])
        secondResourceGarbled).2.store =
        secondResourceGarbled.store ∧
      announcements (Operation.reply (.saveMixin "m" ["a", "b"]))
        secondResourceGarbled ≠ [] := by
  have hrewrites : (Operation.saveMixin "m" ["a", "b"]).Rewrites
      secondResourceGarbled.store := by
    have hget : secondResourceGarbled.store.get "a" =
        .ok (some { id := "a", kind := "k" }) := by
      decide +kernel
    have hmembers : secondResourceGarbled.store.members? "m" = .ok none := by
      decide +kernel
    exact ⟨_, .here hget ⟨by decide, by simp⟩, ⟨none, hmembers⟩, _, hget⟩
  have hfails : (Operation.reply (.saveMixin "m" ["a", "b"])
      secondResourceGarbled).1.isOk = false := by
    decide +kernel
  cases hreply :
    (Operation.reply (.saveMixin "m" ["a", "b"]) secondResourceGarbled).1 with
  | ok r =>
    rw [hreply] at hfails
    cases hfails
  | error error =>
    obtain ⟨hstore, hannounced⟩ :=
      announced_of_failed (g := secondResourceGarbled) rfl
        (.saveMixin "m" ["a", "b"]) hreply
    exact ⟨⟨error, rfl⟩, hstore, hannounced.mpr hrewrites⟩

end Graph

end LinkGraph
