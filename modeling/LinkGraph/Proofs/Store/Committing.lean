import LinkGraph.Proofs.Store.Staging

/-!
# How a durable store changes

Every change is staged first.  A change outside of batches goes on to the tables
at once; within a batch it waits there until the outermost batch is committed.
Unless a call fails, the store keeps standing for the volatile store that has
made the same changes.
-/

namespace LinkGraph

namespace Tables

theorem apply_of_isEmpty
    (t : Tables) {b : Batch} (hentities : b.entities.isEmpty = true)
    (hbuckets : b.buckets.isEmpty = true) :
    t.apply b = t := by
  rw [Std.ExtTreeMap.isEmpty_iff] at hentities hbuckets
  apply ext_rows
  · intro id
    simp [entities_apply, hentities]
  · intro c
    simp [categories_apply, hbuckets]

end Tables

namespace DurableStore

variable {s s' : DurableStore} {base m m' : VolatileStore} {α : Type}

/-- Only the tables and the staged writes matter for what is held. -/
theorem Reflects.congr (h : s.Reflects base m) (htables : s'.tables = s.tables)
    (hentities : s'.pending.entities = s.pending.entities)
    (hbuckets : s'.pending.buckets = s.pending.buckets)
    (hopened : ∀ b, s'.batch = some b → 0 < b.depth) : s'.Reflects base m where
  base_keyed := h.base_keyed
  base_pruned := h.base_pruned
  keyed := h.keyed
  pruned := h.pruned
  tables := htables.trans h.tables
  entity id := by rw [hentities, h.entity id]
  bucket c := by rw [hbuckets, h.bucket c]
  opened := hopened

/-! ## Opening and closing batches -/

theorem batch_eq_none
    (h : s.Reflects base m) (hlevel : s.level = 0) :
    s.batch = none := by
  cases hbatch : s.batch with
  | none => rfl
  | some b =>
    have hpos := h.opened b hbatch
    simp only [level, pending, hbatch, Option.getD_some] at hlevel
    omega

/-- The store with one more batch open. -/
def opening (s : DurableStore) : DurableStore :=
  { s with batch := some { s.pending with depth := s.pending.depth + 1 } }

theorem begin_run (s : DurableStore) : begin s = (.ok (), s.opening) := rfl

theorem level_opening (s : DurableStore) : s.opening.level = s.level + 1 := rfl

theorem level_opening_pos (s : DurableStore) : 0 < s.opening.level :=
  Nat.succ_pos s.level

theorem Reflects.opening
    (h : s.Reflects base m) :
    s.opening.Reflects base m := by
  refine h.congr rfl rfl rfl fun b hb => ?_
  obtain rfl := Option.some.inj hb
  exact Nat.succ_pos _

theorem commit_of_idle (h : s.Reflects base m) (hlevel : s.level = 0) :
    commit s = (.ok (), s) := by
  have hbatch := batch_eq_none h hlevel
  simp only [commit, hbatch]

/-- Closing an inner batch leaves its writes staged. -/
theorem commit_inner (h : s.Reflects base m) (hlevel : 1 < s.level) :
    ∃ s', commit s = (.ok (), s') ∧ s'.Reflects base m ∧
      s'.level = s.level - 1 := by
  cases hbatch : s.batch with
  | none => simp [level, pending, hbatch] at hlevel
  | some b =>
    have hpending : s.pending = b := by simp [pending, hbatch]
    have hdepth : 1 < b.depth := by rwa [level, hpending] at hlevel
    refine ⟨{ s with batch := some { b with depth := b.depth - 1 } },
      ?_, ?_, ?_⟩
    · simp only [commit, hbatch, if_pos hdepth]
    · refine h.congr rfl (by rw [hpending]; rfl) (by rw [hpending]; rfl)
        fun b' hb' => ?_
      obtain rfl := Option.some.inj hb'
      exact Nat.sub_pos_of_lt hdepth
    · rw [level, level, hpending]
      rfl

theorem Reflects.tables_apply (h : s.Reflects base m) :
    s.tables.apply s.pending = .holding m := by
  apply Tables.ext_rows
  · intro id
    have hentity := h.entity id
    rw [Tables.entities_apply, h.tables]
    simp only [Tables.holding, Std.ExtTreeMap.getElem?_map, hentity]
    cases s.pending.entities[id]? with
    | none => rfl
    | some e? => rfl
  · intro c
    have hbucket := h.bucket c
    have hrow : (Tables.holding m).categories[c]? =
        (m.index[c]?.map fun b => b.toList).map Tables.membersFormat.write := by
      simp [Tables.holding, Function.comp_def]
    rw [hrow, hbucket, Tables.categories_apply, h.tables]
    cases s.pending.buckets[c]? with
    | none => simp [Tables.holding, Function.comp_def]
    | some members =>
      cases members with
      | nil => rfl
      | cons => rfl

/-- Closing the outermost batch fails, or moves its writes to the tables. -/
theorem commit_outermost (h : s.Reflects base m) (hlevel : s.level = 1) :
    (∃ s', commit s = (.ok (), s') ∧ s'.Reflects m m ∧ s'.level = 0) ∨
      ∃ e, (commit s).1 = .error e ∧ e.isRefusal = false := by
  cases hbatch : s.batch with
  | none => simp [level, pending, hbatch] at hlevel
  | some b =>
    have hpending : s.pending = b := by simp [pending, hbatch]
    have hdepth : ¬1 < b.depth := by
      rw [level, hpending] at hlevel
      omega
    have hcommit : commit s = write b { s with batch := none } := by
      simp only [commit, hbatch, if_neg hdepth]
    have happly := h.tables_apply
    rw [hpending] at happly
    rw [hcommit, write]
    by_cases hempty : (b.entities.isEmpty && b.buckets.isEmpty) = true
    · left
      rw [if_pos hempty]
      rw [Bool.and_eq_true] at hempty
      rw [Tables.apply_of_isEmpty _ hempty.1 hempty.2] at happly
      exact ⟨_, rfl, .of_idle h.keyed h.pruned happly rfl, rfl⟩
    · rw [if_neg hempty]
      cases hrefusal : s.refusal with
      | none => exact Or.inl ⟨_, rfl, .of_idle h.keyed h.pruned happly rfl, rfl⟩
      | some reason => exact Or.inr ⟨_, rfl, rfl⟩

/-- Whatever is staged, dropping the batch leaves what is in the tables. -/
theorem Reflects.abort (h : s.Reflects base m) : s.abort.Reflects base base :=
  .of_idle h.base_keyed h.base_pruned h.tables rfl

/-! ## Changing calls -/

/-- A changing call fails, or answers `a` and leaves a store that stands for
`m'`.  The change is in the tables if no batch was open. -/
def Leads
    (s : DurableStore) (base : VolatileStore)
    (actual : Except StoreError α × DurableStore) (a : α) (m' : VolatileStore) :
    Prop :=
  (actual.1 = .ok a ∧ actual.2.level = s.level ∧
      actual.2.Reflects (if s.level = 0 then m' else base) m') ∨
    ∃ e, actual.1 = .error e ∧ e.isRefusal = false

/-- A call in a batch of its own does what it does inside the batch. -/
theorem staged_leads
    {op : StoreM DurableStore α} {a : α} (h : s.Reflects base m)
    (hop : ∀ s₁, s₁.Reflects base m → 0 < s₁.level →
      Leads s₁ base (op s₁) a m') :
    Leads s base (staged op s) a m' := by
  have hlevel := level_opening s
  have hopen : s.opening.level ≠ 0 := by omega
  rw [staged, bind_run_ok (begin_run s)]
  rcases hrun : op s.opening with ⟨r, s₂⟩
  have hleads := hop s.opening h.opening (by omega)
  rw [hrun] at hleads
  rcases hleads with ⟨hr, hlevel₂, hreflects⟩ | ⟨e, hr, he⟩
  · obtain rfl : r = .ok a := hr
    have h₂ : s₂.Reflects base m' := by rwa [if_neg hopen] at hreflects
    have hlevel₂ : s₂.level = s.level + 1 := hlevel₂.trans hlevel
    rw [bind_run_ok (tryCatch_run_ok hrun)]
    by_cases hidle : s.level = 0
    · rcases commit_outermost h₂ (by omega) with
        ⟨s₃, hcommit, h₃, hlevel₃⟩ | ⟨e, hr, he⟩
      · rw [bind_run_ok hcommit]
        left
        rw [if_pos hidle]
        exact ⟨rfl, hlevel₃.trans hidle.symm, h₃⟩
      · rcases hcommit : commit s₂ with ⟨r, s₃⟩
        rw [hcommit] at hr
        obtain rfl : r = .error e := hr
        rw [bind_run_error hcommit]
        exact Or.inr ⟨e, rfl, he⟩
    · obtain ⟨s₃, hcommit, h₃, hlevel₃⟩ := commit_inner h₂ (by omega)
      rw [bind_run_ok hcommit]
      left
      rw [if_neg hidle]
      exact ⟨rfl, by change s₃.level = _; omega, h₃⟩
  · obtain rfl : r = .error e := hr
    have hcaught :
        (tryCatch op fun e => do modify abort; throw e : StoreM DurableStore α)
          s.opening = (.error e, s₂.abort) := by
      rw [tryCatch_run_error hrun]
      rfl
    rw [bind_run_error hcaught]
    exact Or.inr ⟨e, rfl, he⟩

theorem reading_leads
    {β : Type} {read : DurableStore → Except StoreError β} {b : β}
    {f : β → StoreM DurableStore α} {a : α}
    (hread : s.tables.Reads (read s) (.ok b)) (hf : Leads s base (f b s) a m') :
    Leads s base ((reading read >>= f) s) a m' := by
  rcases hread with hok | ⟨⟨e, hr, he⟩, -⟩
  · have hrun : reading read s = (.ok b, s) := by rw [reading, hok]
    rw [bind_run_ok hrun]
    exact hf
  · have hrun : reading read s = (.error e, s) := by rw [reading, hr]
    rw [bind_run_error hrun]
    exact Or.inr ⟨e, rfl, he⟩

/-- The store with a value staged for an id. -/
def stagingEntity
    (s : DurableStore) (id : EntityId) (e? : Option Entity) : DurableStore :=
  { s with
    batch :=
      some { s.pending with entities := s.pending.entities.insert id e? } }

/-- The store with a member list staged for a category. -/
def stagingBucket
    (s : DurableStore) (c : Category) (members : List EntityId) :
    DurableStore :=
  { s with
    batch :=
      some { s.pending with buckets := s.pending.buckets.insert c members } }

theorem stageEntity_run
    (s : DurableStore) (id : EntityId) (e? : Option Entity) :
    stageEntity id e? s = (.ok (), s.stagingEntity id e?) := rfl

theorem stageBucket_run
    (s : DurableStore) (c : Category) (members : List EntityId) :
    stageBucket c members s = (.ok (), s.stagingBucket c members) := rfl

theorem Reflects.stagingEntity
    (h : s.Reflects base m) (hlevel : 0 < s.level) {id : EntityId}
    {e? : Option Entity} (hkeyed : m'.Keyed) (hindex : m'.index = m.index)
    (hentities : ∀ x : EntityId, m'.entities[x]? =
      if x = id then e? else m.entities[x]?) :
    (s.stagingEntity id e?).Reflects base m' where
  base_keyed := h.base_keyed
  base_pruned := h.base_pruned
  keyed := hkeyed
  pruned c := hindex ▸ h.pruned c
  tables := h.tables
  entity x := by
    have hstaged : (s.stagingEntity id e?).pending.entities[x]? =
        if x = id then some e? else s.pending.entities[x]? := by
      change (s.pending.entities.insert id e?)[x]? = _
      simp [Std.ExtTreeMap.getElem?_insert, eq_comm (a := x)]
    rw [hentities, hstaged]
    by_cases hx : x = id
    · simp [hx]
    · simp only [hx, if_false]
      exact h.entity x
  bucket c := by
    rw [hindex]
    exact h.bucket c
  opened b hb := by
    obtain rfl := Option.some.inj hb
    exact hlevel

theorem Reflects.stagingBucket
    (h : s.Reflects base m) (hlevel : 0 < s.level) (c : Category)
    (b : NameSet) :
    (s.stagingBucket c b.toList).Reflects base (m.setBucket c b) where
  base_keyed := h.base_keyed
  base_pruned := h.base_pruned
  keyed := h.keyed
  pruned := h.pruned.setBucket b
  tables := h.tables
  entity := h.entity
  bucket c' := by
    have hstaged : (s.stagingBucket c b.toList).pending.buckets[c']? =
        if c' = c then some b.toList else s.pending.buckets[c']? := by
      change (s.pending.buckets.insert c b.toList)[c']? = _
      simp [Std.ExtTreeMap.getElem?_insert, eq_comm (a := c')]
    have hoccupied : ((if b.isEmpty then none else some b : Option NameSet).map
        fun b => b.toList) =
        occupied b.toList := by
      cases hempty : b.isEmpty with
      | true => simp [occupied, Std.ExtTreeSet.isEmpty_iff.mp hempty]
      | false =>
        have hne : b ≠ ∅ := fun hb => by simp [hb] at hempty
        simp [occupied, hne]
    rw [VolatileStore.index_setBucket, hstaged]
    by_cases hc : c' = c
    · simp only [hc, if_true, Option.map_some, Option.getD_some]
      exact hoccupied
    · simp only [hc, if_false]
      exact h.bucket c'
  opened b hb := by
    obtain rfl := Option.some.inj hb
    exact hlevel

theorem Leads.of_open
    {r : Except StoreError α × DurableStore} {a : α} (hlevel : 0 < s.level)
    (hok : r.1 = .ok a) (hsame : r.2.level = s.level)
    (h : r.2.Reflects base m') :
    Leads s base r a m' := by
  left
  rw [if_neg (Nat.ne_of_gt hlevel)]
  exact ⟨hok, hsame, h⟩

theorem put_leads (h : s.Reflects base m) (e : Entity) :
    Leads s base (EntityStore.put e s) m.entities[e.id]? (m.place e) := by
  refine staged_leads h fun s₁ h₁ hlevel => ?_
  refine reading_leads (h₁.get_reads e.id) ?_
  rw [bind_run_ok (stageEntity_run s₁ e.id (some e)), pure_run]
  refine Leads.of_open hlevel rfl rfl ?_
  exact h₁.stagingEntity hlevel (h.keyed.place e) rfl fun x =>
    VolatileStore.entities_place

theorem remove_leads (h : s.Reflects base m) (id : EntityId) :
    Leads s base (EntityStore.remove id s) m.entities[id]? (m.discard id) := by
  refine staged_leads h fun s₁ h₁ hlevel => ?_
  refine reading_leads (h₁.get_reads id) ?_
  cases he : m.entities[id]? with
  | none =>
    rw [VolatileStore.discard_eq_self he]
    exact Leads.of_open hlevel rfl rfl h₁
  | some e =>
    simp only [Option.isSome_some, if_true]
    rw [bind_run_ok (stageEntity_run s₁ id none), pure_run]
    refine Leads.of_open hlevel rfl rfl ?_
    exact h₁.stagingEntity hlevel (h.keyed.discard id) rfl fun x =>
      VolatileStore.entities_discard

/-- Changing the list of a bucket does to a durable store what changing the set
does to a volatile one. -/
theorem changeBucket_leads
    (h : s.Reflects base m) (c : Category)
    {change : List EntityId → Option (List EntityId)} {b : NameSet}
    (hchange : (change (m.bucket c).toList).getD (m.bucket c).toList =
      b.toList) :
    Leads s base (changeBucket c change s) () (m.setBucket c b) := by
  refine staged_leads h fun s₁ h₁ hlevel => ?_
  refine reading_leads (h₁.members?_reads c) ?_
  rw [VolatileStore.toList_bucket]
  cases hmembers : change (m.bucket c).toList with
  | none =>
    rw [hmembers, Option.getD_none] at hchange
    rw [← toList_injective hchange, h.pruned.setBucket_bucket]
    exact Leads.of_open hlevel rfl rfl h₁
  | some members =>
    rw [hmembers, Option.getD_some] at hchange
    simp only [hchange]
    rw [stageBucket_run]
    exact Leads.of_open hlevel rfl rfl (h₁.stagingBucket hlevel c b)

theorem indexInsert_leads
    (h : s.Reflects base m) (c : Category) (id : EntityId) :
    Leads s base (EntityStore.indexInsert c id s) ()
      (m.setBucket c ((m.bucket c).insert id)) :=
  changeBucket_leads h c (Bucket.insert?_toList (m.bucket c) id)

theorem indexRemove_leads
    (h : s.Reflects base m) (c : Category) (id : EntityId) :
    Leads s base (EntityStore.indexRemove c id s) ()
      (m.setBucket c ((m.bucket c).erase id)) :=
  changeBucket_leads h c (Bucket.erase?_toList (m.bucket c) id)

/-! ## Durable stores are faithful -/

theorem follows_of_leads {r : Except StoreError α × DurableStore} {a : α}
    (h : Leads s base r a m') :
    Follows (fun s m => ∃ base, Reflects s base m) r (.ok a, m') := by
  rcases h with ⟨hr, -, hreflects⟩ | herror
  · exact Or.inl ⟨hr, _, hreflects⟩
  · exact Or.inr herror

instance : FaithfulStore DurableStore where
  Holds s m := ∃ base, Reflects s base m
  keyed := fun ⟨_, h⟩ => h.keyed
  extent := fun ⟨_, h⟩ => h.size_le
  get := fun ⟨_, h⟩ id => (h.get_reads id).answers
  contains := fun ⟨_, h⟩ id => Or.inl (h.contains_eq id)
  members := fun ⟨_, h⟩ c => (h.members_reads c).answers
  hasCategory := fun ⟨_, h⟩ c => (h.hasCategory_reads c).answers
  categories := fun ⟨_, h⟩ => Or.inl h.categories_eq
  entityCount := fun ⟨_, h⟩ => h.entityCount_reads.answers
  entities := fun ⟨_, h⟩ => h.entities_reads.answers
  put := fun ⟨_, h⟩ e => follows_of_leads (put_leads h e)
  remove := fun ⟨_, h⟩ id => follows_of_leads (remove_leads h id)
  indexInsert := fun ⟨_, h⟩ c id => follows_of_leads (indexInsert_leads h c id)
  indexRemove := fun ⟨_, h⟩ c id => follows_of_leads (indexRemove_leads h c id)
  begin := fun ⟨base, h⟩ => Or.inl ⟨rfl, base, h.opening⟩
  commit := fun {s m} ⟨base, h⟩ => by
    rcases Nat.lt_trichotomy s.level 1 with hlevel | hlevel | hlevel
    · have hrun := commit_of_idle h (by omega)
      exact Or.inl ⟨congrArg Prod.fst hrun, base, congrArg Prod.snd hrun ▸ h⟩
    · rcases commit_outermost h hlevel with ⟨s', hrun, h', -⟩ | herror
      · exact Or.inl ⟨congrArg Prod.fst hrun, m, congrArg Prod.snd hrun ▸ h'⟩
      · exact Or.inr herror
    · obtain ⟨s', hrun, h', -⟩ := commit_inner h hlevel
      exact Or.inl ⟨congrArg Prod.fst hrun, base, congrArg Prod.snd hrun ▸ h'⟩

end DurableStore

end LinkGraph
