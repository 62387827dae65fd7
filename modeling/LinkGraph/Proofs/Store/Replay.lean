import LinkGraph.Proofs.Store.Calls
import LinkGraph.Proofs.Store.Committing

/-!
# Replaying what survives

A ledger notes which writes of a history are committed, which wait in the open
batch, and which were dropped with their batch.  A durable store whose calls do
not fail answers every call as the volatile store does that has replayed the
surviving writes, and its tables alone hold the replay of the committed ones.
-/

namespace LinkGraph

/-- The writes that are committed, those made since the outermost open batch was
opened, and how many batches are open. -/
structure Ledger where
  committed : List StoreWrite := []
  staged : List StoreWrite := []
  depth : Nat := 0

namespace Ledger

/-- Notes a call.  A write outside of batches commits by itself; the writes of a
batch are committed with the outermost one, and dropped by an abort or a
reopening, which close every open batch. -/
def record (l : Ledger) : StoreCall → Ledger
  | .read _ => l
  | .write w =>
    if l.depth = 0 then { l with committed := l.committed ++ [w] }
    else { l with staged := l.staged ++ [w] }
  | .begin => { l with depth := l.depth + 1 }
  | .commit =>
    if 1 < l.depth then { l with depth := l.depth - 1 }
    else { committed := l.committed ++ l.staged }
  | .abort | .reopen => { committed := l.committed }

def of (calls : List StoreCall) : Ledger :=
  calls.foldl record {}

/-- The writes that have not been dropped. -/
def surviving (l : Ledger) : List StoreWrite :=
  l.committed ++ l.staged

theorem surviving_of_settled (writes : List StoreWrite) :
    ({ committed := writes } : Ledger).surviving = writes :=
  List.append_nil writes

end Ledger

/-- The volatile store after writes to an empty one. -/
def replay (writes : List StoreWrite) : VolatileStore :=
  writes.foldl (fun m w => (w.perform m).2) {}

theorem replay_concat (writes : List StoreWrite) (w : StoreWrite) :
    replay (writes ++ [w]) = (w.perform (replay writes)).2 := by
  rw [replay, List.foldl_append]
  rfl

namespace DurableStore

variable {s : DurableStore} {base m : VolatileStore} {l : Ledger}

theorem Reflects.read_reads (h : s.Reflects base m) (r : StoreRead) :
    s.tables.Reads (r.perform s) (r.perform m) := by
  cases r with
  | get id => exact h.get_reads id
  | contains id => exact Or.inl (h.contains_eq id)
  | members c => exact h.members_reads c
  | hasCategory c => exact h.hasCategory_reads c
  | categories => exact Or.inl h.categories_eq
  | entityCount => exact h.entityCount_reads
  | entities => exact h.entities_reads

theorem Reflects.write_leads (h : s.Reflects base m) (w : StoreWrite) :
    ∃ a, (w.perform m).1 = .ok a ∧
      Leads s base (w.perform s) a (w.perform m).2 := by
  cases w with
  | put e => exact ⟨_, rfl, put_leads h e⟩
  | remove id => exact ⟨_, rfl, remove_leads h id⟩
  | indexInsert c id => exact ⟨_, rfl, indexInsert_leads h c id⟩
  | indexRemove c id => exact ⟨_, rfl, indexRemove_leads h c id⟩

/-- The tables hold what is committed in a ledger, and the store stands for what
survives in it. -/
structure Tracks (s : DurableStore) (l : Ledger) : Prop where
  reflects : s.Reflects (replay l.committed) (replay l.surviving)
  level : s.level = l.depth
  settled : l.depth = 0 → l.staged = []

theorem tracks_empty (refusal : Option String) :
    Tracks { refusal } {} where
  reflects := .of_idle VolatileStore.keyed_empty (fun c => by simp [replay])
    (Tables.ext_rows (fun id => by simp [Tables.holding, replay])
      fun c => by simp [Tables.holding, replay]) rfl
  level := rfl
  settled _ := rfl

theorem Tracks.write
    (h : s.Tracks l) (w : StoreWrite) (hok : ∃ a, (w.perform s).1 = .ok a) :
    (w.perform s).1 = (w.perform (replay l.surviving)).1 ∧
      Tracks (w.perform s).2 (l.record (.write w)) := by
  obtain ⟨a, ha, hleads⟩ := h.reflects.write_leads w
  rcases hleads with ⟨hr, hlevel, hreflects⟩ | ⟨e, he, -⟩
  · refine ⟨hr.trans ha.symm, ?_⟩
    rw [h.level] at hlevel hreflects
    by_cases hdepth : l.depth = 0
    · have hsurviving : l.surviving = l.committed := by
        rw [Ledger.surviving, h.settled hdepth, List.append_nil]
      have hrecord :
          l.record (.write w) = { l with committed := l.committed ++ [w] } :=
        if_pos hdepth
      have hafter :
          ({ l with committed := l.committed ++ [w] } : Ledger).surviving =
            l.committed ++ [w] := by
        rw [Ledger.surviving, h.settled hdepth, List.append_nil]
      rw [if_pos hdepth, hsurviving, ← replay_concat] at hreflects
      rw [hrecord]
      exact ⟨by rw [hafter]; exact hreflects, hlevel, h.settled⟩
    · have hrecord :
          l.record (.write w) = { l with staged := l.staged ++ [w] } :=
        if_neg hdepth
      rw [if_neg hdepth, ← replay_concat, Ledger.surviving, List.append_assoc]
        at hreflects
      rw [hrecord]
      exact ⟨hreflects, hlevel, fun hzero => absurd hzero hdepth⟩
  · obtain ⟨a', ha'⟩ := hok
    simp [he] at ha'

theorem Tracks.commit
    (h : s.Tracks l) (hok : ∃ a, (DurableStore.commit s).1 = .ok a) :
    (DurableStore.commit s).1 = .ok () ∧
      Tracks (DurableStore.commit s).2 (l.record .commit) := by
  rcases Nat.lt_trichotomy s.level 1 with hlevel | hlevel | hlevel
  · have hidle : s.level = 0 := by omega
    have hdepth : l.depth = 0 := h.level ▸ hidle
    have hrecord : l.record .commit = l := by
      have hstaged := h.settled hdepth
      cases l
      simp_all [Ledger.record]
    rw [commit_of_idle h.reflects hidle, hrecord]
    exact ⟨rfl, h⟩
  · have hrecord : l.record .commit = { committed := l.surviving } :=
      if_neg (by rw [← h.level]; omega)
    rw [hrecord]
    rcases commit_outermost h.reflects hlevel with
      ⟨s', hrun, h', hlevel'⟩ | ⟨e, he, -⟩
    · rw [hrun]
      refine ⟨rfl, ?_, hlevel', fun _ => rfl⟩
      rw [Ledger.surviving_of_settled]
      exact h'
    · obtain ⟨a, ha⟩ := hok
      simp [he] at ha
  · have hrecord : l.record .commit = { l with depth := l.depth - 1 } :=
      if_pos (by rw [← h.level]; exact hlevel)
    obtain ⟨s', hrun, h', hlevel'⟩ := commit_inner h.reflects hlevel
    rw [hrecord, hrun]
    refine ⟨rfl, h', by rw [hlevel', h.level], fun hzero => ?_⟩
    rw [h.level] at hlevel
    change l.depth - 1 = 0 at hzero
    omega

theorem Tracks.abort
    (h : s.Tracks l) :
    Tracks s.abort { committed := l.committed } where
  reflects := by
    rw [Ledger.surviving_of_settled]
    exact h.reflects.abort
  level := rfl
  settled _ := rfl

/-- A call that does not fail answers as it does on the replay, and the ledger
keeps up with it. -/
theorem Tracks.call
    (h : s.Tracks l) (call : StoreCall)
    (hok : ∃ a, (call.perform s).1 = .ok a) :
    (call.perform s).1 = (call.perform (replay l.surviving)).1 ∧
      Tracks (call.perform s).2 (l.record call) := by
  cases call with
  | read r =>
    refine ⟨?_, h⟩
    rcases h.reflects.read_reads r with heq | ⟨⟨e, he, -⟩, -⟩
    · exact heq
    · obtain ⟨a, ha⟩ := hok
      exact absurd (he.symm.trans ha) (by simp)
  | write w => exact h.write w hok
  | begin =>
    refine ⟨rfl, h.reflects.opening, ?_,
      fun hzero => absurd hzero (Nat.succ_ne_zero l.depth)⟩
    exact congrArg (· + 1) h.level
  | commit => exact h.commit hok
  | abort => exact ⟨rfl, h.abort⟩
  | reopen => exact ⟨rfl, h.abort⟩

theorem Tracks.after
    (h : s.Tracks l) {calls : List StoreCall}
    (hok : StoreCall.Succeed s calls) :
    Tracks (StoreCall.after s calls) (calls.foldl Ledger.record l) := by
  induction calls generalizing s l with
  | nil => exact h
  | cons call calls ih => exact ih (h.call call hok.1).2 hok.2

end DurableStore

/-- A durable store is created empty and taken through calls that do not fail.
Each of them is answered as by the volatile store that has replayed the writes
surviving at that point.  In the end the tables hold the replay of the committed
writes, and unless a row is too long every reading call answers as on the replay
of the surviving ones. -/
theorem durable_replays {refusal : Option String} {calls : List StoreCall}
    (hcalls : StoreCall.Succeed ({ refusal } : DurableStore) calls) :
    (∀ before call rest, calls = before ++ call :: rest →
      (call.perform (StoreCall.after ({ refusal } : DurableStore) before)).1 =
        (call.perform (replay (Ledger.of before).surviving)).1) ∧
    (StoreCall.after ({ refusal } : DurableStore) calls).tables =
      .holding (replay (Ledger.of calls).committed) ∧
    ((StoreCall.after ({ refusal } : DurableStore) calls).tables.Fits →
      ∀ r : StoreRead,
      r.perform (StoreCall.after ({ refusal } : DurableStore) calls) =
        r.perform (replay (Ledger.of calls).surviving)) := by
  have htracks := (DurableStore.tracks_empty refusal).after hcalls
  refine ⟨?_, htracks.reflects.tables, fun hfits r => ?_⟩
  · rintro before call rest rfl
    obtain ⟨hbefore, hcall⟩ := StoreCall.succeed_append.mp hcalls
    exact (((DurableStore.tracks_empty refusal).after hbefore).call call
      hcall.1).1
  · exact (htracks.reflects.read_reads r).eq_of_fits hfits

/-- A write by itself, a batch with a batch in it that is dropped, one that is
committed, and a reopening. -/
def droppedAndCommitted : List StoreCall :=
  [.write (.put { id := "a", kind := "k" }), .begin,
    .write (.put { id := "b", kind := "k" }),
    .begin, .write (.indexInsert "k" "b"), .commit, .read (.members "k"),
    .abort, .begin,
    .write (.indexInsert "k" "a"), .commit, .begin, .write (.remove "a"),
    .reopen, .read (.get "a")]

theorem durable_replays_droppedAndCommitted :
    StoreCall.Succeed ({} : DurableStore) droppedAndCommitted ∧
      (StoreCall.after ({} : DurableStore) droppedAndCommitted).tables =
        .holding (replay [.put { id := "a", kind := "k" },
          .indexInsert "k" "a"]) ∧
      ∀ r : StoreRead,
        r.perform (StoreCall.after ({} : DurableStore) droppedAndCommitted) =
          r.perform (replay [.put { id := "a", kind := "k" },
            .indexInsert "k" "a"]) := by
  have hcalls : StoreCall.Succeed ({} : DurableStore) droppedAndCommitted := by
    decide +kernel
  have hfits : (StoreCall.after ({} : DurableStore)
      droppedAndCommitted).tables.Fits := by
    decide +kernel
  obtain ⟨-, htables, hreads⟩ := durable_replays hcalls
  exact ⟨hcalls, htables, hreads hfits⟩

end LinkGraph
