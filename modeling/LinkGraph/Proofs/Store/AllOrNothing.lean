import LinkGraph.Proofs.Results
import LinkGraph.Proofs.Store.Brackets

/-!
# Batches in which a call fails

The caller of a durable store opens a batch, makes calls of which some may fail,
and commits.  As long as no write fails, the batch takes effect as a whole or
not at all.  A write that fails drops what is staged and closes every batch, so
that the calls after it are made outside of the batch in which the caller
believes them to be: what they write is kept although the batch has not been
committed, and although the writes before the failure are lost.
-/

namespace LinkGraph

/-! ## What writes do to rows -/

namespace StoreWrite

/-- The row of an id after a write. -/
def entityRow
    (id : EntityId) (row : Option (List UInt8)) :
    StoreWrite → Option (List UInt8)
  | put e => if e.id = id then some (Binary.Format.entity.write e) else row
  | remove id' => if id' = id then none else row
  | indexInsert .. | indexRemove .. => row

/-- The row of an id after writes. -/
def entityRowAfter
    (id : EntityId) (row : Option (List UInt8)) (writes : List StoreWrite) :
    Option (List UInt8) :=
  writes.foldl (fun row w => w.entityRow id row) row

/-- The member list that a write makes of that of a category, none if it leaves
it as it is. -/
def relist
    (c : Category) (members : List EntityId) :
    StoreWrite → Option (List EntityId)
  | indexInsert c' id => if c' = c then Bucket.insert? members id else none
  | indexRemove c' id => if c' = c then Bucket.erase? members id else none
  | put _ | remove _ => none

/-- The member list of a category after writes, none if they leave it as it
is. -/
def relisted
    (c : Category) (members : List EntityId) (writes : List StoreWrite) :
    Option (List EntityId) :=
  writes.foldl (fun new w => (w.relist c (new.getD members)).or new) none

theorem entityRowAfter_concat
    (id : EntityId) (row : Option (List UInt8)) (writes : List StoreWrite)
    (w : StoreWrite) :
    entityRowAfter id row (writes ++ [w]) =
      w.entityRow id (entityRowAfter id row writes) := by
  rw [entityRowAfter, List.foldl_concat]
  rfl

theorem relisted_concat
    (c : Category) (members : List EntityId) (writes : List StoreWrite)
    (w : StoreWrite) :
    relisted c members (writes ++ [w]) =
      (w.relist c ((relisted c members writes).getD members)).or
        (relisted c members writes) := by
  rw [relisted, List.foldl_concat]
  rfl

end StoreWrite

namespace Tables

/-- The member list in the row of a category, empty if there is none that can be
read. -/
def memberList (t : Tables) (c : Category) : List EntityId :=
  match t.members c with
  | .ok members? => members?.getD []
  | .error _ => []

/-- The tables `t'` are the tables `t` with all of the writes. -/
structure Bears
    (t : Tables) (writes : List StoreWrite) (t' : Tables) : Prop where
  entity (id : EntityId) :
    t'.entities[id]? = StoreWrite.entityRowAfter id t.entities[id]? writes
  category (c : Category) : t'.categories[c]? =
    match StoreWrite.relisted c (t.memberList c) writes with
    | some members =>
      if members.isEmpty then none else some (membersFormat.write members)
    | none => t.categories[c]?

end Tables

/-! ## Brackets -/

namespace StoreCall

/-- How many batches are open inside the bracket of the caller after a call,
none if the call closes the bracket. -/
def nest (inner : Nat) : StoreCall → Option Nat
  | read _ | write _ => some inner
  | begin => some (inner + 1)
  | commit => if inner = 0 then none else some (inner - 1)
  | abort | reopen => none

/-- The calls stand between the opening of a batch and the commit that belongs
to it. -/
def Nested (calls : List StoreCall) : Prop :=
  calls.foldlM nest 0 = some 0

instance (calls : List StoreCall) : Decidable (Nested calls) :=
  inferInstanceAs (Decidable (_ = _))

variable {σ : Type} [EntityStore σ]

/-- The call is a write that fails. -/
def Fails (s : σ) (call : StoreCall) : Prop :=
  ∃ w e, call = .write w ∧ (w.perform s).1 = .error e

/-- No write fails. -/
def Smooth : σ → List StoreCall → Prop
  | _, [] => True
  | s, call :: calls => ¬call.Fails s ∧ Smooth (call.perform s).2 calls

instance decidableFails (s : σ) : (call : StoreCall) → Decidable (call.Fails s)
  | write w =>
    match hr : (w.perform s).1 with
    | .ok _ => isFalse fun ⟨_, _, hw, he⟩ => by cases hw; cases hr.symm.trans he
    | .error e => isTrue ⟨w, e, rfl, hr⟩
  | read _ | begin | commit | abort | reopen =>
    isFalse fun ⟨_, _, hw, _⟩ => by cases hw

instance decidableSmooth :
    (s : σ) → (calls : List StoreCall) → Decidable (Smooth s calls)
  | _, [] => isTrue trivial
  | s, call :: calls =>
    have := decidableSmooth (call.perform s).2 calls
    inferInstanceAs (Decidable (_ ∧ _))

/-- The write that a call makes, if it makes one and succeeds. -/
def written? (s : σ) : StoreCall → Option StoreWrite
  | write w =>
    match (w.perform s).1 with
    | .ok _ => some w
    | .error _ => none
  | read _ | begin | commit | abort | reopen => none

/-- The writes that succeed. -/
def written : σ → List StoreCall → List StoreWrite
  | _, [] => []
  | s, call :: calls =>
    (call.written? s).toList ++ written (call.perform s).2 calls

theorem after_append (s : σ) (calls calls' : List StoreCall) :
    after s (calls ++ calls') = after (after s calls) calls' :=
  List.foldl_append

/-- No write fails, or there is a first one that does. -/
theorem smooth_or_fails (s : σ) (calls : List StoreCall) :
    Smooth s calls ∨ ∃ before call rest, calls = before ++ call :: rest ∧
      Smooth s before ∧
      call.Fails (after s before) := by
  induction calls generalizing s with
  | nil => exact Or.inl trivial
  | cons call calls ih =>
    by_cases hfails : call.Fails s
    · exact Or.inr ⟨[], call, calls, rfl, trivial, hfails⟩
    · rcases ih (call.perform s).2 with
        hsmooth | ⟨before, call', rest, rfl, hbefore, hfails'⟩
      · exact Or.inl ⟨hfails, hsmooth⟩
      · exact Or.inr ⟨call :: before, call', rest, rfl,
          ⟨hfails, hbefore⟩, hfails'⟩

theorem Smooth.of_prefix
    {s : σ} {calls part : List StoreCall} (h : Smooth s calls)
    (hpart : part <+: calls) :
    Smooth s part := by
  induction calls generalizing s part with
  | nil =>
    rw [List.prefix_nil.mp hpart]
    trivial
  | cons call calls ih =>
    cases part with
    | nil => trivial
    | cons call' part =>
      obtain ⟨rfl, hrest⟩ := List.cons_prefix_cons.mp hpart
      exact ⟨h.1, ih h.2 hrest⟩

end StoreCall

namespace DurableStore

open StoreCall (Nested Smooth)

variable {s s' : DurableStore} {writes : List StoreWrite}
  {calls : List StoreCall} {inner inner' : Nat}

/-- Until the batch that is opened around the calls is committed, nothing is
written to the tables.  Then the tables bear every write that has succeeded, or
none of them. -/
structure AllOrNothing (s : DurableStore) (calls : List StoreCall) : Prop where
  before {part : List StoreCall} : part <+: calls →
    (StoreCall.after s (.begin :: part)).tables = s.tables
  committed :
    (StoreCall.after s (.begin :: calls ++ [.commit])).tables = s.tables ∨
    s.tables.Bears (StoreCall.written s.opening calls)
      (StoreCall.after s (.begin :: calls ++ [.commit])).tables

/-! ## As long as no write fails -/

/-- Inside a batch on top of `s` the writes are staged and nothing else is. -/
structure Staged
    (s : DurableStore) (writes : List StoreWrite) (s' : DurableStore) :
    Prop where
  tables : s'.tables = s.tables
  refusal : s'.refusal = s.refusal
  entity (id : EntityId) :
    (s'.pending.entities[id]?.map fun e? =>
      e?.map Binary.Format.entity.write).getD
      s.tables.entities[id]? =
        StoreWrite.entityRowAfter id s.tables.entities[id]? writes
  bucket (c : Category) :
    s'.pending.buckets[c]? =
      StoreWrite.relisted c (s.tables.memberList c) writes

theorem staged_opening (hidle : s.batch = none) : Staged s [] s.opening where
  tables := rfl
  refusal := rfl
  entity id := by simp [opening, pending, hidle, StoreWrite.entityRowAfter]
  bucket c := by simp [opening, pending, hidle, StoreWrite.relisted]

/-- Only the tables, the medium and the staged writes matter. -/
theorem Staged.congr
    {s'' : DurableStore} (h : Staged s writes s')
    (htables : s''.tables = s'.tables) (hrefusal : s''.refusal = s'.refusal)
    (hentities : s''.pending.entities = s'.pending.entities)
    (hbuckets : s''.pending.buckets = s'.pending.buckets) :
    Staged s writes s'' where
  tables := htables.trans h.tables
  refusal := hrefusal.trans h.refusal
  entity id := by rw [hentities, h.entity]
  bucket c := by rw [hbuckets, h.bucket]

theorem Staged.stagingEntity
    (h : Staged s writes s') {w : StoreWrite} {key : EntityId}
    {e? : Option Entity} (hlist : ∀ c members, w.relist c members = none)
    (hrow : ∀ id row, w.entityRow id row =
      if key = id then e?.map Binary.Format.entity.write else row) :
    Staged s (writes ++ [w]) (s'.stagingEntity key e?) where
  tables := h.tables
  refusal := h.refusal
  entity id := by
    have hstaged : (s'.stagingEntity key e?).pending.entities[id]? =
        if key = id then some e? else s'.pending.entities[id]? := by
      change (s'.pending.entities.insert key e?)[id]? = _
      simp [Std.ExtTreeMap.getElem?_insert]
    rw [hstaged, StoreWrite.entityRowAfter_concat, hrow, ← h.entity]
    split <;> rfl
  bucket c := by
    rw [StoreWrite.relisted_concat, hlist, Option.none_or]
    exact h.bucket c

/-- A write that leaves all rows as they are. -/
theorem Staged.unchanged
    (h : Staged s writes s') {w : StoreWrite}
    (hlist : ∀ c, w.relist c ((StoreWrite.relisted c (s.tables.memberList c)
      writes).getD (s.tables.memberList c)) = none)
    (hrow : ∀ id, w.entityRow id
      (StoreWrite.entityRowAfter id s.tables.entities[id]? writes) =
        StoreWrite.entityRowAfter id s.tables.entities[id]? writes) :
    Staged s (writes ++ [w]) s' where
  tables := h.tables
  refusal := h.refusal
  entity id := by rw [StoreWrite.entityRowAfter_concat, hrow, h.entity]
  bucket c := by
    rw [StoreWrite.relisted_concat, hlist, Option.none_or, h.bucket]

/-- What is not found has no row. -/
theorem Staged.row_of_vacant
    (h : Staged s writes s') {key : EntityId} (hget : s'.get key = .ok none) :
    StoreWrite.entityRowAfter key s.tables.entities[key]? writes = none := by
  rw [← h.entity]
  rw [get, staged?_eq] at hget
  cases hstaged : s'.pending.entities[key]? with
  | some e? =>
    rw [hstaged] at hget
    cases hget
    rfl
  | none =>
    rw [hstaged, h.tables] at hget
    rw [Option.map_none, Option.getD_none]
    unfold Tables.entity at hget
    cases hrow : s.tables.entities[key]? with
    | none => rfl
    | some row =>
      rw [hrow] at hget
      obtain ⟨e, -, he⟩ := map_eq_ok.mp
        (show some <$> Tables.decode .entity row = .ok none from hget)
      cases he

/-- The members that are found are those of the list as it has been
rewritten. -/
theorem Staged.members_eq
    (h : Staged s writes s') {c : Category} {members? : Option (List EntityId)}
    (hmembers : s'.members? c = .ok members?) :
    (StoreWrite.relisted c (s.tables.memberList c) writes).getD
      (s.tables.memberList c) =
      members?.getD [] := by
  rw [← h.bucket]
  rw [members?_eq] at hmembers
  cases hstaged : s'.pending.buckets[c]? with
  | some members =>
    rw [hstaged] at hmembers
    cases hmembers
    cases members <;> rfl
  | none =>
    rw [hstaged] at hmembers
    dsimp only at hmembers
    rw [h.tables] at hmembers
    rw [Option.getD_none, Tables.memberList, hmembers]

theorem Staged.changeBucket
    (h : Staged s writes s') (hlevel : 0 < s'.level) {w : StoreWrite}
    {c : Category} (change : List EntityId → Option (List EntityId)) {a : Unit}
    (hrow : ∀ id row, w.entityRow id row = row)
    (hlist : ∀ c' members, w.relist c' members =
      if c = c' then change members else none)
    (hok : (changeBucket c change s').1 = .ok a) :
    Staged s (writes ++ [w]) (changeBucket c change s').2 ∧
      (changeBucket c change s').2.level = s'.level := by
  cases hmembers : s'.members? c with
  | error e =>
    obtain ⟨s'', hrun⟩ := changeBucket_run_error hmembers change
    rw [hrun] at hok
    cases hok
  | ok members? =>
    have heq := h.members_eq hmembers
    rw [changeBucket_run hlevel hmembers change]
    cases hchange : change (members?.getD []) with
    | none =>
      refine ⟨h.unchanged (fun c' => ?_) fun id => hrow id _, rfl⟩
      rw [hlist]
      split
      · next hc => rw [← hc, heq, hchange]
      · rfl
    | some members =>
      refine ⟨⟨h.tables, h.refusal, fun id => ?_, fun c' => ?_⟩, rfl⟩
      · rw [StoreWrite.entityRowAfter_concat, hrow]
        exact h.entity id
      · have hstaged : (s'.stagingBucket c members).pending.buckets[c']? =
            if c = c' then some members else s'.pending.buckets[c']? := by
          change (s'.pending.buckets.insert c members)[c']? = _
          simp [Std.ExtTreeMap.getElem?_insert]
        change (s'.stagingBucket c members).pending.buckets[c']? = _
        rw [hstaged, StoreWrite.relisted_concat, hlist, ← h.bucket]
        split
        · next hc =>
          rw [← hc, h.bucket, heq, hchange]
          rfl
        · rfl

/-- A write that succeeds inside the batch is staged. -/
theorem Staged.write
    (h : Staged s writes s') (hlevel : 0 < s'.level) (w : StoreWrite)
    {a : w.Answer} (hok : (w.perform s').1 = .ok a) :
    Staged s (writes ++ [w]) (w.perform s').2 ∧
      (w.perform s').2.level = s'.level := by
  cases w with
  | put e =>
    cases hget : s'.get e.id with
    | error error =>
      obtain ⟨s'', hrun⟩ := put_run_error hget
      rw [StoreWrite.perform, hrun] at hok
      cases hok
    | ok previous =>
      rw [StoreWrite.perform, put_run_ok hlevel hget]
      exact ⟨h.stagingEntity (fun _ _ => rfl) fun _ _ => rfl, rfl⟩
  | remove id =>
    cases hget : s'.get id with
    | error error =>
      obtain ⟨s'', hrun⟩ := remove_run_error hget
      rw [StoreWrite.perform, hrun] at hok
      cases hok
    | ok removed =>
      rw [StoreWrite.perform, remove_run_ok hlevel hget]
      cases removed with
      | none =>
        refine ⟨h.unchanged (fun _ => rfl) fun id' => ?_, rfl⟩
        rw [StoreWrite.entityRow]
        split
        · next hid => rw [← hid, h.row_of_vacant hget]
        · rfl
      | some e => exact ⟨h.stagingEntity (fun _ _ => rfl) fun _ _ => rfl, rfl⟩
  | indexInsert c id =>
    exact h.changeBucket (w := .indexInsert c id) hlevel (Bucket.insert? · id)
      (fun _ _ => rfl) (fun _ _ => rfl) hok
  | indexRemove c id =>
    exact h.changeBucket (w := .indexRemove c id) hlevel (Bucket.erase? · id)
      (fun _ _ => rfl) (fun _ _ => rfl) hok

/-- A call that does not fail leaves the batch of the caller open. -/
theorem Staged.call
    (h : Staged s writes s') (hlevel : s'.level = inner + 1) {call : StoreCall}
    (hnest : call.nest inner = some inner') (hok : ¬call.Fails s') :
    Staged s (writes ++ (call.written? s').toList) (call.perform s').2 ∧
      (call.perform s').2.level = inner' + 1 := by
  cases call with
  | read r =>
    obtain rfl := Option.some.inj hnest
    rw [StoreCall.written?, Option.toList_none, List.append_nil]
    exact ⟨h, hlevel⟩
  | write w =>
    obtain rfl := Option.some.inj hnest
    cases hr : (w.perform s').1 with
    | error e => exact absurd ⟨w, e, rfl, hr⟩ hok
    | ok a =>
      obtain ⟨hstaged, hsame⟩ := h.write (by omega) w hr
      rw [StoreCall.written?, hr]
      exact ⟨hstaged, hsame.trans hlevel⟩
  | begin =>
    obtain rfl := Option.some.inj hnest
    rw [StoreCall.written?, Option.toList_none, List.append_nil]
    exact ⟨h.congr rfl rfl rfl rfl, congrArg (· + 1) hlevel⟩
  | commit =>
    rw [StoreCall.nest] at hnest
    split at hnest
    · cases hnest
    · obtain rfl := Option.some.inj hnest
      rw [StoreCall.written?, Option.toList_none, List.append_nil]
      change Staged s writes (commit s').2 ∧ (commit s').2.level = _
      rw [commit_run_inner (by omega)]
      refine ⟨h.congr rfl rfl rfl rfl, ?_⟩
      change s'.level - 1 = _
      omega
  | abort | reopen => cases hnest

theorem Staged.run
    (h : Staged s writes s') (hlevel : s'.level = inner + 1)
    (hnest : calls.foldlM StoreCall.nest inner = some inner')
    (hsmooth : Smooth s' calls) :
    Staged s (writes ++ StoreCall.written s' calls) (StoreCall.after s' calls) ∧
      (StoreCall.after s' calls).level = inner' + 1 := by
  induction calls generalizing s' writes inner with
  | nil =>
    obtain rfl := Option.some.inj hnest
    rw [StoreCall.written, List.append_nil]
    exact ⟨h, hlevel⟩
  | cons call calls ih =>
    obtain ⟨hok, hrest⟩ := hsmooth
    rw [List.foldlM_cons] at hnest
    obtain ⟨inner₁, hcall, hcalls⟩ := Option.bind_eq_some_iff.mp hnest
    obtain ⟨hstaged, hlevel₁⟩ := h.call hlevel hcall hok
    rw [StoreCall.written, ← List.append_assoc]
    exact ih hstaged hlevel₁ hcalls hrest

theorem write_run_tables (b : Batch) (s : DurableStore) :
    (DurableStore.write b s).2.tables = s.tables ∨
      (DurableStore.write b s).2.tables = s.tables.apply b := by
  unfold DurableStore.write
  split
  · exact Or.inl rfl
  · split
    · exact Or.inl rfl
    · exact Or.inr rfl

/-- The commit of the caller moves everything that is staged to the tables, or
nothing. -/
theorem Staged.committed (h : Staged s writes s') (hlevel : s'.level = 1) :
    (commit s').2.tables = s.tables ∨
      s.tables.Bears writes (commit s').2.tables := by
  rw [commit_run_outermost hlevel]
  rcases write_run_tables s'.pending s'.abort with hsame | happly
  · exact Or.inl (hsame.trans h.tables)
  · right
    rw [happly]
    change s.tables.Bears writes (s'.tables.apply s'.pending)
    rw [h.tables]
    constructor
    · intro id
      rw [Tables.entities_apply, h.entity]
    · intro c
      rw [Tables.categories_apply, h.bucket]
      cases StoreWrite.relisted c (s.tables.memberList c) writes <;> rfl

/-! ## After a write that fails -/

/-- A write that fails leaves nothing of the batch. -/
theorem Staged.fails
    (h : Staged s writes s') (hidle : s.batch = none) (hlevel : 0 < s'.level)
    {call : StoreCall} (hfails : call.Fails s') :
    (call.perform s').2 = s := by
  obtain ⟨w, e, rfl, herror⟩ := hfails
  have hinside := (write_bracketed w).contained s' hlevel
  have hbatch := (write_bracketed w).batch_of_error hlevel herror
  have htables : (w.perform s').2.tables = s.tables :=
    hinside.tables.trans h.tables
  have hrefusal : (w.perform s').2.refusal = s.refusal :=
    hinside.refusal.trans h.refusal
  change (w.perform s').2 = s
  generalize (w.perform s').2 = s'' at htables hrefusal hbatch
  cases s
  cases s''
  simp_all

/-- Fewer batches are open than the caller believes. -/
structure Behind (inner : Nat) (s : DurableStore) : Prop where
  level : s.level ≤ inner
  idle : s.level = 0 → s.batch = none

theorem Behind.of_idle
    (inner : Nat) (hidle : s.batch = none) :
    Behind inner s where
  level := (level_of_idle hidle).trans_le (Nat.zero_le inner)
  idle _ := hidle

theorem Behind.call
    (h : Behind inner s) {call : StoreCall}
    (hnest : call.nest inner = some inner') :
    Behind inner' (call.perform s).2 := by
  cases call with
  | read r =>
    obtain rfl := Option.some.inj hnest
    exact h
  | write w =>
    obtain rfl := Option.some.inj hnest
    have hlevel := h.level
    rcases Nat.eq_zero_or_pos s.level with hzero | hpos
    · have hidle := h.idle hzero
      rcases (write_bracketed w).settles hidle with ⟨e, -, hs⟩ | ⟨a, -, hs⟩
      · exact .of_idle inner ((congrArg batch hs).trans hidle)
      · exact .of_idle inner hs
    · cases hr : (w.perform s).1 with
      | ok a =>
        have hsame : (w.perform s).2.level = s.level :=
          ((write_bracketed w).contained s hpos).level hr
        exact ⟨hsame.trans_le hlevel,
          fun hzero => absurd (hsame.symm.trans hzero) hpos.ne'⟩
      | error e =>
        exact .of_idle inner ((write_bracketed w).batch_of_error hpos hr)
  | begin =>
    obtain rfl := Option.some.inj hnest
    exact ⟨Nat.succ_le_succ h.level,
      fun hzero => absurd hzero (Nat.succ_ne_zero _)⟩
  | commit =>
    rw [StoreCall.nest] at hnest
    split at hnest
    · cases hnest
    · obtain rfl := Option.some.inj hnest
      have hlevel := h.level
      change Behind (inner - 1) (commit s).2
      rcases Nat.lt_trichotomy s.level 1 with hzero | hone | hmore
      · have hidle := h.idle (by omega)
        rw [commit_run_idle hidle]
        exact .of_idle _ hidle
      · rw [commit_run_outermost hone]
        rcases write_run_cases s.pending s.abort with ⟨e, hrun⟩ | ⟨tables, hrun⟩
        · exact .of_idle _ (by rw [hrun]; rfl)
        · exact .of_idle _ (by rw [hrun]; rfl)
      · rw [commit_run_inner hmore]
        refine ⟨Nat.sub_le_sub_right hlevel 1, fun hzero => ?_⟩
        change s.level - 1 = 0 at hzero
        omega
  | abort | reopen => cases hnest

theorem Behind.run
    (h : Behind inner s)
    (hnest : calls.foldlM StoreCall.nest inner = some inner') :
    Behind inner' (StoreCall.after s calls) := by
  induction calls generalizing s inner with
  | nil =>
    obtain rfl := Option.some.inj hnest
    exact h
  | cons call calls ih =>
    rw [List.foldlM_cons] at hnest
    obtain ⟨inner₁, hcall, hcalls⟩ := Option.bind_eq_some_iff.mp hnest
    exact ih (h.call hcall) hcalls

/-- Calls that close the batch of the caller leave none open of a store that had
none. -/
theorem idle_after
    (hidle : s.batch = none)
    (hnest : calls.foldlM StoreCall.nest inner = some 0) :
    (StoreCall.after s calls).batch = none := by
  have hbehind := (Behind.of_idle inner hidle).run hnest
  exact hbehind.idle (Nat.le_zero.mp hbehind.level)

/-! ## Whole brackets -/

/-- Inside a bracket the calls up to some point leave a number of batches open,
and the others close them. -/
theorem nest_of_append
    {before rest : List StoreCall} (h : Nested (before ++ rest)) :
    ∃ inner, before.foldlM StoreCall.nest 0 = some inner ∧
      rest.foldlM StoreCall.nest inner = some 0 := by
  rw [Nested, List.foldlM_append] at h
  exact Option.bind_eq_some_iff.mp h

theorem staged_run
    (hidle : s.batch = none)
    (hnest : calls.foldlM StoreCall.nest 0 = some inner)
    (hsmooth : Smooth s.opening calls) :
    Staged s (StoreCall.written s.opening calls)
        (StoreCall.after s.opening calls) ∧
      (StoreCall.after s.opening calls).level = inner + 1 := by
  have hlevel : s.opening.level = 0 + 1 := by
    rw [level_opening, level_of_idle hidle]
  exact (staged_opening hidle).run hlevel hnest hsmooth

/-- As long as no write has failed, all that has succeeded is staged. -/
theorem staged_after (hidle : s.batch = none) {before rest : List StoreCall}
    (hcalls : Nested (before ++ rest)) (hsmooth : Smooth s.opening before) :
    Staged s (StoreCall.written s.opening before)
        (StoreCall.after s.opening before) ∧
      0 < (StoreCall.after s.opening before).level := by
  obtain ⟨inner, hbefore, -⟩ := nest_of_append hcalls
  obtain ⟨hstaged, hlevel⟩ := staged_run hidle hbefore hsmooth
  exact ⟨hstaged, hlevel ▸ Nat.succ_pos inner⟩

/-- From the first write that fails on, the store does what it does outside of
any batch. -/
theorem after_failed
    (hidle : s.batch = none) {before rest : List StoreCall} {call : StoreCall}
    (hcalls : Nested (before ++ call :: rest))
    (hsmooth : Smooth s.opening before)
    (hfails : call.Fails (StoreCall.after s.opening before))
    (part : List StoreCall) :
    StoreCall.after s (.begin :: (before ++ call :: part)) =
      StoreCall.after s part := by
  obtain ⟨hstaged, hlevel⟩ := staged_after hidle hcalls hsmooth
  change StoreCall.after s.opening (before ++ call :: part) = _
  rw [StoreCall.after_append]
  change StoreCall.after (call.perform (StoreCall.after s.opening before)).2 part = _
  rw [hstaged.fails hidle hlevel hfails]

/-- A batch in which no write fails takes effect as a whole or not at all. -/
theorem allOrNothing_of_smooth (hidle : s.batch = none) (hcalls : Nested calls)
    (hsmooth : Smooth s.opening calls) : AllOrNothing s calls where
  before := by
    rintro part ⟨rest, rfl⟩
    exact (staged_after hidle hcalls
      (hsmooth.of_prefix (List.prefix_append part rest))).1.tables
  committed := by
    obtain ⟨hstaged, hlevel⟩ := staged_run hidle hcalls hsmooth
    change (StoreCall.after s.opening (calls ++ [.commit])).tables = _ ∨
      s.tables.Bears _ (StoreCall.after s.opening (calls ++ [.commit])).tables
    rw [StoreCall.after_append]
    exact hstaged.committed hlevel

/-- A batch in which a write fails takes no effect if the calls after it leave
the tables as they are. -/
theorem allOrNothing_of_failed
    (hidle : s.batch = none) {before rest : List StoreCall} {call : StoreCall}
    (hcalls : Nested (before ++ call :: rest))
    (hsmooth : Smooth s.opening before)
    (hfails : call.Fails (StoreCall.after s.opening before))
    (hrest : ∀ part, part <+: rest →
      (StoreCall.after s part).tables = s.tables) :
    AllOrNothing s (before ++ call :: rest) where
  before {part} hpart := by
    rcases List.prefix_or_prefix_of_prefix hpart
      (List.prefix_append before (call :: rest)) with hshort | ⟨tail, rfl⟩
    · obtain ⟨middle, rfl⟩ := hshort
      rw [List.append_assoc] at hcalls
      exact (staged_after hidle hcalls
        (hsmooth.of_prefix (List.prefix_append part middle))).1.tables
    · cases tail with
      | nil =>
        rw [List.append_nil]
        exact (staged_after hidle hcalls hsmooth).1.tables
      | cons call' tail =>
        rw [List.prefix_append_right_inj, List.cons_prefix_cons] at hpart
        obtain ⟨rfl, htail⟩ := hpart
        rw [after_failed hidle hcalls hsmooth hfails]
        exact hrest tail htail
  committed := by
    left
    obtain ⟨inner, -, hnest⟩ :=
      nest_of_append (List.append_cons before call rest ▸ hcalls)
    have hcommit := commit_run_idle (idle_after hidle hnest)
    rw [List.cons_append, List.append_assoc, List.cons_append,
      after_failed hidle hcalls hsmooth hfails, StoreCall.after_append]
    change (commit (StoreCall.after s rest)).2.tables = s.tables
    rw [hcommit]
    exact hrest rest List.prefix_rfl

/-- A batch takes effect as a whole or not at all unless a write fails and a
call after it writes to the tables: what comes after the first write that fails
is done outside of any batch, and the commit of the caller finds none. -/
theorem allOrNothing_iff (hidle : s.batch = none) (hcalls : Nested calls) :
    AllOrNothing s calls ↔ ∀ before call rest, calls = before ++ call :: rest →
      Smooth s.opening before → call.Fails (StoreCall.after s.opening before) →
      ∀ part, part <+: rest → (StoreCall.after s part).tables = s.tables := by
  constructor
  · rintro h before call rest rfl hsmooth hfails part hpart
    rw [← after_failed hidle hcalls hsmooth hfails part]
    apply h.before
    rw [List.prefix_append_right_inj, List.cons_prefix_cons]
    exact ⟨rfl, hpart⟩
  · intro h
    rcases StoreCall.smooth_or_fails s.opening calls with
      hsmooth | ⟨before, call, rest, rfl, hsmooth, hfails⟩
    · exact allOrNothing_of_smooth hidle hcalls hsmooth
    · have hrest := h before call rest rfl hsmooth hfails
      exact allOrNothing_of_failed hidle hcalls hsmooth hfails hrest

/-- A store with a row that is no entity. -/
def garbled : DurableStore where
  tables := { entities := .ofList [("b", [(0xFF : UInt8)])] }

/-- The second of three writes meets the row that is no entity.  The first is
lost and the third is in the tables before the batch is committed. -/
theorem allOrNothing_iff_garbled :
    let calls : List StoreCall := [.write (.put { id := "a", kind := "k" }),
      .write (.put { id := "b", kind := "k" }),
      .write (.put { id := "c", kind := "k" })]
    garbled.batch = none ∧ Nested calls ∧ ¬AllOrNothing garbled calls := by
  intro calls
  have hcalls : Nested calls := by decide
  refine ⟨rfl, hcalls, fun h => ?_⟩
  have hkept := (allOrNothing_iff rfl hcalls).mp h [_] _ [_] rfl
    (by decide +kernel) (by decide +kernel) _ List.prefix_rfl
  exact absurd hkept (by decide +kernel)

end DurableStore

end LinkGraph
