import LinkGraph.Proofs.Store.Calls
import LinkGraph.Proofs.Store.Committing

/-!
# Batches around calls that fail

The tables of a durable store may hold rows that cannot be decoded, and its
medium may refuse a write transaction, so that a call can fail at any depth of
its batches.  Here nothing is assumed of what the tables hold.  A call inside a
batch leaves the tables alone whether it fails or not, and a call in a batch of
its own leaves the whole store as it was when it fails.  The store may be part
of a larger state, as it is for the operations of a graph.
-/

namespace LinkGraph.DurableStore

variable {α β τ : Type} {s s' : DurableStore} {r : Except StoreError α}
  {op : StoreM DurableStore α} {store : τ → DurableStore}

/-! ## Inside a batch -/

/-- What a call inside a batch may do: tables and medium stay as they are, and
the batch stays open at its depth unless the call fails. -/
structure Inside
    (s : DurableStore) (r : Except StoreError α) (s' : DurableStore) :
    Prop where
  tables : s'.tables = s.tables
  refusal : s'.refusal = s.refusal
  level {a : α} : r = .ok a → s'.level = s.level

/-- Whatever the tables hold, what the operation does to the store in a state
stays inside the batch that is open. -/
def Contained (store : τ → DurableStore) (p : StoreM τ α) : Prop :=
  ∀ t, 0 < (store t).level → Inside (store t) (p t).1 (store (p t).2)

/-- What leaves the store alone stays inside every batch. -/
theorem Contained.of_store_eq
    {p : StoreM τ α} (h : ∀ t, store (p t).2 = store t) :
    Contained store p := by
  intro t _
  have hsame := h t
  exact ⟨by rw [hsame], by rw [hsame], fun _ => by rw [hsame]⟩

theorem Contained.bind
    {p : StoreM τ α} {f : α → StoreM τ β} (hp : Contained store p)
    (hf : ∀ a, Contained store (f a)) :
    Contained store (p >>= f) := by
  intro t hlevel
  have hfirst := hp t hlevel
  rcases hrun : p t with ⟨r, t₁⟩
  rw [hrun] at hfirst
  cases r with
  | ok a =>
    have hlevel₁ : (store t₁).level = (store t).level := hfirst.level rfl
    have hrest := hf a t₁ (hlevel₁ ▸ hlevel)
    rw [bind_run_ok hrun]
    exact ⟨hrest.tables.trans hfirst.tables, hrest.refusal.trans hfirst.refusal,
      fun hok => (hrest.level hok).trans hlevel₁⟩
  | error e =>
    rw [bind_run_error hrun]
    exact ⟨hfirst.tables, hfirst.refusal, nofun⟩

theorem stageEntity_contained (key : EntityId) (e? : Option Entity) :
    Contained id (stageEntity key e?) := by
  intro s _
  exact ⟨rfl, rfl, fun _ => rfl⟩

theorem stageBucket_contained (c : Category) (members : List EntityId) :
    Contained id (stageBucket c members) := by
  intro s _
  exact ⟨rfl, rfl, fun _ => rfl⟩

/-! ## Closing batches -/

theorem batch_eq_pending (hlevel : 0 < s.level) : s.batch = some s.pending := by
  cases hbatch : s.batch with
  | none => simp [level, pending, hbatch] at hlevel
  | some b => simp [pending, hbatch]

theorem level_of_idle (hidle : s.batch = none) : s.level = 0 := by
  simp [level, pending, hidle]

theorem commit_run_idle (hidle : s.batch = none) : commit s = (.ok (), s) := by
  simp only [commit, hidle]

theorem commit_run_inner (hlevel : 1 < s.level) :
    commit s = (.ok (),
      { s with batch := some { s.pending with depth := s.level - 1 } }) := by
  have hbatch := batch_eq_pending (show 0 < s.level by omega)
  simp only [commit, hbatch]
  exact if_pos hlevel

theorem commit_run_outermost
    (hlevel : s.level = 1) :
    commit s = write s.pending s.abort := by
  have hbatch := batch_eq_pending (show 0 < s.level by omega)
  have hdepth : ¬1 < s.pending.depth := by
    change ¬1 < s.level
    omega
  simp only [commit, hbatch, if_neg hdepth]
  rfl

/-- A write transaction is refused and changes nothing, or changes the
tables. -/
theorem write_run_cases (b : Batch) (s : DurableStore) :
    (∃ e, write b s = (.error e, s)) ∨
      ∃ tables, write b s = (.ok (), { s with tables }) := by
  unfold write
  split
  · exact Or.inr ⟨s.tables, rfl⟩
  · cases s.refusal with
    | none => exact Or.inr ⟨s.tables.apply b, rfl⟩
    | some reason => exact Or.inl ⟨.io reason, rfl⟩

/-! ## A batch that is opened and closed -/

/-- What a call may do to a store without an open batch: it fails and leaves the
store as it is, or succeeds and leaves no batch open. -/
def Settles
    (s : DurableStore) (r : Except StoreError α) (s' : DurableStore) : Prop :=
  (∃ e, r = .error e ∧ s' = s) ∨ ∃ a, r = .ok a ∧ s'.batch = none

/-- Dropping the batch of a failed call leaves the store that the call found. -/
theorem Inside.abort_eq
    (h : Inside s.opening r s') (hidle : s.batch = none) :
    s'.abort = s := by
  obtain ⟨tables, batch, refusal⟩ := s
  obtain rfl : batch = none := hidle
  have htables : s'.tables = tables := h.tables
  have hrefusal : s'.refusal = refusal := h.refusal
  simp [abort, htables, hrefusal]

/-- Committing an inner batch leaves its writes to the batch around it. -/
theorem Inside.commit_inner
    {a : α} (h : Inside s.opening r s') (hok : r = .ok a)
    (hlevel : 0 < s.level) :
    ∃ s'', commit s' = (.ok (), s'') ∧
      Inside s (.ok a : Except StoreError α) s'' := by
  have hlevel' : s'.level = s.level + 1 := h.level hok
  refine ⟨_, commit_run_inner (by omega), h.tables, h.refusal, fun _ => ?_⟩
  change s'.level - 1 = s.level
  omega

/-- Committing the outermost batch leaves no batch open, also when it fails. -/
theorem Inside.commit_settles
    {a : α} (h : Inside s.opening r s') (hok : r = .ok a)
    (hidle : s.batch = none) :
    Settles s (commit s').1 (commit s').2 := by
  have hlevel : s'.level = 1 := by
    rw [h.level hok, level_opening, level_of_idle hidle]
  have habort := h.abort_eq hidle
  rw [commit_run_outermost hlevel, habort]
  rcases write_run_cases s'.pending s with ⟨e, hwrite⟩ | ⟨tables, hwrite⟩
  · rw [hwrite]
    exact Or.inl ⟨e, rfl, rfl⟩
  · rw [hwrite]
    exact Or.inr ⟨(), rfl, hidle⟩

/-- How batches of the store in a state are opened, committed and dropped. -/
structure Bracketing (store : τ → DurableStore) where
  begin : StoreM τ Unit
  commit : StoreM τ Unit
  abort : τ → τ
  begin_run (t : τ) :
    ∃ t', begin t = (.ok (), t') ∧ store t' = (store t).opening
  commit_run (t : τ) : (commit t).1 = (DurableStore.commit (store t)).1 ∧
    store (commit t).2 = (DurableStore.commit (store t)).2
  store_abort (t : τ) : store (abort t) = (store t).abort

namespace Bracketing

variable {b : Bracketing store} {p : StoreM τ α} {t t' t'' : τ}

/-- The operation in a batch that is committed when it succeeds and dropped when
it fails. -/
def around (b : Bracketing store) (p : StoreM τ α) : StoreM τ α := do
  b.begin
  let value ← tryCatch p fun e => do
    modify b.abort
    throw e
  b.commit
  return value

theorem around_run_error
    {e : StoreError} (hbegin : b.begin t = (.ok (), t'))
    (hrun : p t' = (.error e, t'')) :
    b.around p t = (.error e, b.abort t'') := by
  have hcaught :
      (tryCatch p fun e => do modify b.abort; throw e : StoreM τ α) t' =
        (.error e, b.abort t'') := by
    rw [tryCatch_run_error hrun]
    rfl
  rw [around, bind_run_ok hbegin, bind_run_error hcaught]

theorem around_run_ok
    {a : α} (hbegin : b.begin t = (.ok (), t')) (hrun : p t' = (.ok a, t'')) :
    b.around p t = (do b.commit; return a : StoreM τ α) t'' := by
  rw [around, bind_run_ok hbegin, bind_run_ok (tryCatch_run_ok hrun)]

theorem contained
    (b : Bracketing store) (hp : Contained store p) :
    Contained store (b.around p) := by
  intro t hlevel
  obtain ⟨t₁, hbegin, hopening⟩ := b.begin_run t
  have hinside := hp t₁ (by rw [hopening]; exact Nat.succ_pos _)
  rw [hopening] at hinside
  rcases hrun : p t₁ with ⟨r, t₂⟩
  rw [hrun] at hinside
  cases r with
  | error e =>
    rw [around_run_error hbegin hrun]
    refine ⟨?_, ?_, nofun⟩
    · rw [b.store_abort]
      exact hinside.tables
    · rw [b.store_abort]
      exact hinside.refusal
  | ok a =>
    obtain ⟨s, hcommit, hinside⟩ := hinside.commit_inner rfl hlevel
    have hclosed := b.commit_run t₂
    rw [hcommit] at hclosed
    rcases hrun' : b.commit t₂ with ⟨r, t₃⟩
    rw [hrun'] at hclosed
    obtain ⟨rfl, rfl⟩ : r = .ok () ∧ store t₃ = s := hclosed
    rw [around_run_ok hbegin hrun, bind_run_ok hrun']
    exact hinside

theorem settles
    (b : Bracketing store) (hp : Contained store p)
    (hidle : (store t).batch = none) :
    Settles (store t) (b.around p t).1 (store (b.around p t).2) := by
  obtain ⟨t₁, hbegin, hopening⟩ := b.begin_run t
  have hinside := hp t₁ (by rw [hopening]; exact Nat.succ_pos _)
  rw [hopening] at hinside
  rcases hrun : p t₁ with ⟨r, t₂⟩
  rw [hrun] at hinside
  cases r with
  | error e =>
    have habort := hinside.abort_eq hidle
    rw [around_run_error hbegin hrun]
    exact Or.inl ⟨e, rfl, by rw [b.store_abort, habort]⟩
  | ok a =>
    have hsettles := hinside.commit_settles rfl hidle
    have hclosed := b.commit_run t₂
    rw [around_run_ok hbegin hrun]
    rcases hrun' : b.commit t₂ with ⟨r, t₃⟩
    rw [hrun'] at hclosed
    rw [← hclosed.1, ← hclosed.2] at hsettles
    rcases hsettles with ⟨e, hr, hs⟩ | ⟨u, hr, hs⟩
    · obtain rfl : r = .error e := hr
      rw [bind_run_error hrun']
      exact Or.inl ⟨e, rfl, hs⟩
    · obtain rfl : r = .ok u := hr
      rw [bind_run_ok hrun']
      exact Or.inr ⟨a, rfl, hs⟩

end Bracketing

/-! ## The writing calls -/

def bracketing : Bracketing (id : DurableStore → DurableStore) where
  begin := begin
  commit := commit
  abort := abort
  begin_run s := ⟨s.opening, rfl, rfl⟩
  commit_run _ := ⟨rfl, rfl⟩
  store_abort _ := rfl

/-- The call runs in a batch of its own and stays inside it. -/
def Bracketed (op : StoreM DurableStore α) : Prop :=
  ∃ body, Contained id body ∧ op = staged body

theorem Bracketed.contained (h : Bracketed op) : Contained id op := by
  obtain ⟨body, hbody, rfl⟩ := h
  exact bracketing.contained hbody

theorem Bracketed.settles (h : Bracketed op) (hidle : s.batch = none) :
    Settles s (op s).1 (op s).2 := by
  obtain ⟨body, hbody, rfl⟩ := h
  exact bracketing.settles hbody hidle

theorem put_bracketed (e : Entity) :
    Bracketed (EntityStore.put e : StoreM DurableStore (Option Entity)) := by
  refine ⟨_, ?_, rfl⟩
  refine Contained.bind (.of_store_eq fun _ => rfl) fun previous => ?_
  exact (stageEntity_contained e.id (some e)).bind fun _ =>
    .of_store_eq fun _ => rfl

theorem remove_bracketed (key : EntityId) :
    Bracketed (EntityStore.remove key :
      StoreM DurableStore (Option Entity)) := by
  refine ⟨_, ?_, rfl⟩
  refine Contained.bind (.of_store_eq fun _ => rfl) fun removed => ?_
  cases removed with
  | none => exact .of_store_eq fun _ => rfl
  | some e =>
    exact (stageEntity_contained key none).bind fun _ =>
      .of_store_eq fun _ => rfl

theorem changeBucket_bracketed
    (c : Category) (change : List EntityId → Option (List EntityId)) :
    Bracketed (changeBucket c change) := by
  refine ⟨_, ?_, rfl⟩
  refine Contained.bind (.of_store_eq fun _ => rfl) fun members => ?_
  cases change (members.getD []) with
  | none => exact .of_store_eq fun _ => rfl
  | some members => exact stageBucket_contained c members

theorem write_bracketed (w : StoreWrite) :
    Bracketed (w.perform : StoreM DurableStore w.Answer) := by
  cases w with
  | put e => exact put_bracketed e
  | remove key => exact remove_bracketed key
  | indexInsert c key => exact changeBucket_bracketed c (Bucket.insert? · key)
  | indexRemove c key => exact changeBucket_bracketed c (Bucket.erase? · key)

/-! ## What the calls inside a batch answer -/

/-- Only the tables and the staged entities matter for what is found under an
id. -/
theorem get_congr (htables : s'.tables = s.tables)
    (hentities : s'.pending.entities = s.pending.entities) (key : EntityId) :
    s'.get key = s.get key := by
  rw [get, get, staged?_eq, staged?_eq, hentities, htables]

theorem members?_opening
    (s : DurableStore) (c : Category) :
    s.opening.members? c = s.members? c := by
  rw [members?_eq, members?_eq]
  rfl

theorem get_opening
    (s : DurableStore) (key : EntityId) :
    s.opening.get key = s.get key := by
  rw [get, get, staged?_eq, staged?_eq]
  rfl

/-- Inside a batch a call succeeds as soon as its body does. -/
theorem staged_run_ok
    {a : α} (hlevel : 0 < s.level) (hop : op s.opening = (.ok a, s'))
    (hsame : s'.level = s.level + 1) :
    staged op s = (.ok a,
      { s' with batch := some { s'.pending with depth := s.level } }) := by
  have haround :
      staged op s = (do commit; return a : StoreM DurableStore α) s' :=
    bracketing.around_run_ok (begin_run s) hop
  rw [haround, bind_run_ok (commit_run_inner (by omega)), hsame]
  rfl

theorem staged_run_error
    {e : StoreError} (hop : op s.opening = (.error e, s')) :
    staged op s = (.error e, s'.abort) :=
  bracketing.around_run_error (begin_run s) hop

theorem batching_pending
    (hlevel : 0 < s.level) :
    { s with batch := some s.pending } = s := by
  rw [← batch_eq_pending hlevel]

/-- Inside a batch a new member list is staged if the old one can be read. -/
theorem changeBucket_run
    {c : Category} {members? : Option (List EntityId)} (hlevel : 0 < s.level)
    (hmembers : s.members? c = .ok members?)
    (change : List EntityId → Option (List EntityId)) :
    changeBucket c change s = (.ok (),
      ((change (members?.getD [])).map (s.stagingBucket c)).getD s) := by
  have hread :
      reading (·.members? c) s.opening = (.ok members?, s.opening) := by
    rw [reading, members?_opening, hmembers]
  rw [changeBucket]
  cases hchange : change (members?.getD []) with
  | none =>
    refine (staged_run_ok hlevel (show _ = (Except.ok (), s.opening) from ?_)
      rfl).trans (congrArg (Prod.mk _) (batching_pending hlevel))
    rw [bind_run_ok hread, hchange]
    rfl
  | some members =>
    refine staged_run_ok hlevel (show _ =
      (_, s.opening.stagingBucket c members) from ?_) rfl
    rw [bind_run_ok hread, hchange]
    rfl

/-- Inside a batch a bucket can be changed if its members can be read, and the
entities found are not affected. -/
theorem changeBucket_run_ok
    {c : Category} {members? : Option (List EntityId)} (hlevel : 0 < s.level)
    (hmembers : s.members? c = .ok members?)
    (change : List EntityId → Option (List EntityId)) :
    ∃ s', changeBucket c change s = (.ok (), s') ∧ s'.level = s.level ∧
      ∀ key, s'.get key = s.get key := by
  refine ⟨_, changeBucket_run hlevel hmembers change, ?_⟩
  cases change (members?.getD []) with
  | none => exact ⟨rfl, fun _ => rfl⟩
  | some members => exact ⟨rfl, get_congr rfl rfl⟩

/-- A call that reads first fails if the reading does. -/
theorem staged_reading_error
    {read : DurableStore → Except StoreError β} {e : StoreError}
    (hread : read s.opening = .error e) (f : β → StoreM DurableStore α) :
    ∃ s', staged (reading read >>= f) s = (.error e, s') := by
  have hrun : reading read s.opening = (.error e, s.opening) := by
    rw [reading, hread]
  exact ⟨_, staged_run_error (bind_run_error hrun)⟩

theorem changeBucket_run_error
    {c : Category} {e : StoreError} (hmembers : s.members? c = .error e)
    (change : List EntityId → Option (List EntityId)) :
    ∃ s', changeBucket c change s = (.error e, s') :=
  staged_reading_error ((members?_opening s c).trans hmembers) _

/-- A call that fails inside a batch closes every batch. -/
theorem Bracketed.batch_of_error
    (h : Bracketed op) (hlevel : 0 < s.level) {e : StoreError}
    (herror : (op s).1 = .error e) :
    (op s).2.batch = none := by
  obtain ⟨body, hbody, rfl⟩ := h
  have hinside := hbody s.opening (level_opening_pos s)
  rcases hrun : body s.opening with ⟨r, s'⟩
  cases r with
  | error e' =>
    rw [staged_run_error hrun]
    rfl
  | ok a =>
    rw [hrun] at hinside
    rw [staged_run_ok hlevel hrun (hinside.level rfl)] at herror
    cases herror

/-- Inside a batch an entity is staged if what it replaces can be read. -/
theorem put_run_ok
    {e : Entity} {previous : Option Entity} (hlevel : 0 < s.level)
    (hget : s.get e.id = .ok previous) :
    EntityStore.put e s = (.ok previous, s.stagingEntity e.id (some e)) := by
  have hread : reading (·.get e.id) s.opening = (.ok previous, s.opening) := by
    rw [reading, get_opening, hget]
  have hbody : (do
      let previous ← reading (·.get e.id)
      stageEntity e.id (some e)
      return previous : StoreM DurableStore (Option Entity)) s.opening =
        (.ok previous, s.opening.stagingEntity e.id (some e)) := by
    rw [bind_run_ok hread, bind_run_ok (stageEntity_run _ _ _), pure_run]
  exact staged_run_ok hlevel hbody rfl

/-- Inside a batch the removal of an entity that is found is staged. -/
theorem remove_run_ok
    {key : EntityId} {removed : Option Entity} (hlevel : 0 < s.level)
    (hget : s.get key = .ok removed) :
    EntityStore.remove key s =
      (.ok removed,
        if removed.isSome then s.stagingEntity key none else s) := by
  have hread : reading (·.get key) s.opening = (.ok removed, s.opening) := by
    rw [reading, get_opening, hget]
  cases removed with
  | none =>
    refine (staged_run_ok hlevel (show _ = (_, s.opening) from ?_) rfl).trans
      (congrArg (Prod.mk _) (batching_pending hlevel))
    rw [bind_run_ok hread]
    rfl
  | some e =>
    refine staged_run_ok hlevel (show _ =
      (_, s.opening.stagingEntity key none) from ?_) rfl
    rw [bind_run_ok hread]
    rfl

theorem put_run_error
    {e : Entity} {error : StoreError} (hget : s.get e.id = .error error) :
    ∃ s', EntityStore.put e s = (.error error, s') :=
  staged_reading_error ((get_opening s e.id).trans hget) _

theorem remove_run_error
    {key : EntityId} {error : StoreError} (hget : s.get key = .error error) :
    ∃ s', EntityStore.remove key s = (.error error, s') :=
  staged_reading_error ((get_opening s key).trans hget) _

end LinkGraph.DurableStore
