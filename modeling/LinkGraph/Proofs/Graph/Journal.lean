import LinkGraph.Proofs.Graph.Composed

/-!
# Operations do not look at the journal

An operation adds to the journal, about the points where it calls handlers, and
never reads it.  Graphs that differ in their journals therefore go through the
same course from there on: the same answers, the same stores, the same handlers
called.
-/

namespace LinkGraph

/-- An operation that is performed on a graph, and what becomes of the store
before, for instance by reopening it or by a change of what the medium
answers. -/
structure GraphCall (σ : Type) where
  meanwhile : σ → σ := id
  op : Operation

/-- What shows of a call: its answer, the store it leaves behind, and what it
adds to the journal. -/
structure GraphEffect (σ : Type) where
  answer : Except StoreError Reply
  store : σ
  reports : Journal σ

def JournalEntry.point {σ : Type} : JournalEntry σ → HookPoint
  | called _ _ point _ | failed point _ _ => point

namespace Graph

variable {σ α β : Type} [EntityStore σ] {points : HookPoint → Prop}
  {refusals : StoreError → Prop}

/-- The outcomes of calls made one after the other. -/
def course (g : Graph σ) : List (GraphCall σ) → List (GraphEffect σ)
  | [] => []
  | call :: calls =>
    let (answer, g') := call.op.reply { g with store := call.meanwhile g.store }
    ⟨answer, g'.store, g'.journal.drop g.journal.length⟩ :: course g' calls

/-- Whatever the journal tells, the operation gives the same answer, leaves the
same store behind and adds the same entries, all of them about points of a
kind. -/
def Appends (points : HookPoint → Prop) (p : GraphM σ α) : Prop :=
  ∀ g, ∃ r store entries,
    (∀ journal, p (journaling g journal) =
      (r, { g with store, journal := journal ++ entries })) ∧
    ∀ entry ∈ entries, points entry.point

omit [EntityStore σ] in
/-- What gives an answer and a store without touching the journal appends
nothing. -/
theorem Appends.of_run
    {p : GraphM σ α} (answer : Graph σ → Except StoreError α × σ)
    (h : ∀ g journal, p (journaling g journal) =
      ((answer g).1, { g with store := (answer g).2, journal })) :
    Appends points p := by
  intro g
  refine ⟨(answer g).1, (answer g).2, [], fun journal => ?_, by simp⟩
  rw [h, List.append_nil]

omit [EntityStore σ] in
theorem Appends.bind
    {p : GraphM σ α} {f : α → GraphM σ β} (hp : Appends points p)
    (hf : ∀ a, Appends points (f a)) :
    Appends points (p >>= f) := by
  intro g
  obtain ⟨r, store, entries, hrun, hentries⟩ := hp g
  cases r with
  | error e =>
    exact ⟨.error e, store, entries,
      fun journal => bind_run_error (hrun journal), hentries⟩
  | ok a =>
    obtain ⟨r, store', entries', hrest, hentries'⟩ := hf a { g with store }
    refine ⟨r, store', entries ++ entries', fun journal => ?_,
      List.forall_mem_append.mpr ⟨hentries, hentries'⟩⟩
    rw [bind_run_ok (hrun journal), ← List.append_assoc]
    exact hrest (journal ++ entries)

omit [EntityStore σ] in
theorem Appends.tryCatch {p : GraphM σ α} {handler : StoreError → GraphM σ α}
    (hp : Appends points p) (hhandler : ∀ e, Appends points (handler e)) :
    Appends points (tryCatch p handler) := by
  intro g
  obtain ⟨r, store, entries, hrun, hentries⟩ := hp g
  cases r with
  | ok a =>
    exact ⟨.ok a, store, entries, fun journal => tryCatch_run_ok (hrun journal),
      hentries⟩
  | error e =>
    obtain ⟨r, store', entries', hrest, hentries'⟩ :=
      hhandler e { g with store }
    refine ⟨r, store', entries ++ entries', fun journal => ?_,
      List.forall_mem_append.mpr ⟨hentries, hentries'⟩⟩
    rw [tryCatch_run_error (hrun journal), ← List.append_assoc]
    exact hrest (journal ++ entries)

omit [EntityStore σ] in
theorem change_appends (op : StoreM σ α) : Appends points (change op) :=
  .of_run (fun g => op g.store) fun _ _ => rfl

theorem Appends.batched
    {p : GraphM σ α} (hp : Appends points p) :
    Appends points (batched p) := by
  have hcaught : Appends points (MonadExcept.tryCatch p fun e => do
      modify fun g => { g with store := EntityStore.abort g.store }
      throw e) :=
    hp.tryCatch fun e =>
      .of_run (fun g => (.error e, EntityStore.abort g.store)) fun _ _ => rfl
  refine (change_appends _).bind fun _ => hcaught.bind fun a =>
    (change_appends _).bind fun _ => ?_
  exact .of_run (fun g => (.ok a, g.store)) fun _ _ => rfl

omit [EntityStore σ] in
theorem point_of_mem_reports
    {g : Graph σ} {point : HookPoint} {e : Entity} {entry : JournalEntry σ}
    (hentry : entry ∈ g.reports point e) :
    entry.point = point := by
  unfold reports at hentry
  rcases List.mem_cons.mp hentry with rfl | hentry
  · rfl
  · split at hentry
    · simp at hentry
    · obtain rfl := List.mem_singleton.mp hentry
      rfl

theorem Composed.appends
    {p : GraphM σ α} (h : Composed points refusals p) :
    Appends points p := by
  induction h with
  | pure a => exact .of_run (fun g => (.ok a, g.store)) fun _ _ => rfl
  | @refuse _ _ e _ =>
    exact .of_run (fun g => (.error e, g.store)) fun _ _ => rfl
  | bind _ _ ihp ihf => exact ihp.bind ihf
  | asking view hview _ ih =>
    intro g
    obtain ⟨r, store, entries, hrun, hentries⟩ := ih (view g) g
    refine ⟨r, store, entries, fun journal => ?_, hentries⟩
    have hget : (get : GraphM σ (Graph σ)) (journaling g journal) =
        (.ok (journaling g journal), journaling g journal) := rfl
    rw [bind_run_ok hget, hview (alike_journaling g journal)]
    exact hrun journal
  | query r =>
    exact .of_run (fun g => (r.perform g.store, g.store)) fun _ _ => rfl
  | change w => exact change_appends _
  | @notify _ point hpoint e =>
    intro g
    refine ⟨.ok (), g.store, g.reports point e,
      fun journal => notify_run _ _ _, ?_⟩
    intro entry hentry
    rw [point_of_mem_reports hentry]
    exact hpoint
  | batched _ ih => exact ih.batched

/-- An operation that leaves the store as it was changes nothing but the
journal. -/
theorem reply_eq_journaling
    {g : Graph σ} {op : Operation} (h : (op.reply g).2.store = g.store) :
    (op.reply g).2 = journaling g (op.reply g).2.journal := by
  obtain ⟨r, store, entries, hrun, -⟩ := (Composed.reply op).appends g
  have hself :
      op.reply g = (r, { g with store, journal := g.journal ++ entries }) :=
    hrun g.journal
  rw [hself] at h ⊢
  obtain rfl : store = g.store := h
  rfl

/-- Graphs that differ in their journals go through the same course. -/
theorem course_journaling
    (g : Graph σ) (journal : Journal σ) (calls : List (GraphCall σ)) :
    (journaling g journal).course calls = g.course calls := by
  induction calls generalizing g journal with
  | nil => rfl
  | cons call calls ih =>
    obtain ⟨r, store, entries, hrun, -⟩ :=
      (Composed.reply call.op).appends { g with store := call.meanwhile g.store }
    have hreplies (journal : Journal σ) :
        (journaling g journal).course (call :: calls) =
          ⟨r, store, entries⟩ :: course { g with store } calls := by
      have hcall : call.op.reply
          { journaling g journal with
            store := call.meanwhile (journaling g journal).store } =
              (r, { g with store, journal := journal ++ entries }) :=
        hrun journal
      have hreports :
          (journal ++ entries).drop (journaling g journal).journal.length =
            entries :=
        List.drop_left
      simp only [course, hcall]
      rw [hreports]
      exact congrArg _ (ih { g with store } (journal ++ entries))
    exact (hreplies journal).trans (hreplies g.journal).symm

end Graph

end LinkGraph
