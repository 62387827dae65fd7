import LinkGraph.Proofs.Graph.Operation
import LinkGraph.Proofs.Store.Sequencing
import LinkGraph.Session
import Mathlib.Algebra.Group.Nat.Defs
import Mathlib.Data.List.Induction
import Mathlib.Data.List.Nodup

/-!
# Cursors are read once

What a session gives out and has been asked for is kept as a history of cursors
opened and names read.  The table of open cursors is at every moment what the
history says was opened and not read since.  The argument rests on names being
fresh: the numbers behind them count up by two with each cursor, so that they
repeat only after `2 ^ 63` cursors.
-/

namespace LinkGraph

/-- What happened to the cursors of a session. -/
inductive CursorEvent where
  /-- A cursor was given out, over the items as they were then. -/
  | opened (handle : CursorHandle) (items : List Item)
  /-- A read of a name was answered. -/
  | read (name : String)
  deriving DecidableEq

namespace CursorEvent

/-- The cursors given out, the oldest first. -/
def handles (history : List CursorEvent) : List CursorHandle :=
  history.filterMap fun
    | opened handle _ => some handle
    | read _ => none

/-- The cursors given out and not read afterwards, with their items.  A name
that was tried before the cursor was given out does not count: there was no
cursor to be read. -/
def unread : List CursorEvent → List (CursorHandle × List Item)
  | [] => []
  | opened handle items :: later =>
    if read handle.id ∈ later then unread later
    else (handle, items) :: unread later
  | read _ :: later => unread later

variable (history : List CursorEvent)

@[simp] theorem handles_concat_opened
    (handle : CursorHandle) (items : List Item) :
    handles (history ++ [opened handle items]) =
      handles history ++ [handle] := by
  simp [handles]

@[simp] theorem handles_concat_read (name : String) :
    handles (history ++ [read name]) = handles history := by
  simp [handles]

@[simp] theorem unread_concat_opened
    (handle : CursorHandle) (items : List Item) :
    unread (history ++ [opened handle items]) =
      unread history ++ [(handle, items)] := by
  induction history with
  | nil => simp [unread]
  | cons event later ih =>
    cases event with
    | opened handle' items' =>
      by_cases hread : read handle'.id ∈ later <;> simp [unread, hread, ih]
    | read name => simp [unread, ih]

@[simp] theorem unread_concat_read (name : String) :
    unread (history ++ [read name]) =
      (unread history).filter (·.1.id ≠ name) := by
  induction history with
  | nil => simp [unread]
  | cons event later ih =>
    cases event with
    | opened handle items =>
      by_cases hread : read handle.id ∈ later
      · simp [unread, hread, ih]
      · by_cases hname : handle.id = name
        · subst hname
          simp [unread, hread, ih]
        · simp [unread, hread, hname, ih]
    | read name' => simp [unread, ih]

theorem unread_sublist :
    ((unread history).map (·.1)).Sublist (handles history) := by
  induction history with
  | nil => exact List.Sublist.refl _
  | cons event later ih =>
    cases event with
    | opened handle items =>
      by_cases hread : read handle.id ∈ later
      · simpa [unread, hread, handles] using ih.cons handle
      · simpa [unread, hread, handles] using ih
    | read name => simpa [unread, handles] using ih

theorem length_handles_le
    {history all : List CursorEvent} (h : history <+: all) :
    (handles history).length ≤ (handles all).length :=
  (h.filterMap _).length_le

end CursorEvent

namespace CursorRegistry

open CursorEvent (handles unread)

/-! ## Reading -/

/-- The items from `start` on, at most `count` of them unless that is zero. -/
theorem slice_eq_ok
    {items : List Item} {start : Nat} (hstart : start ≤ items.length)
    (count : Nat) :
    ∃ window, slice items start count = .ok window ∧
      ∀ i, window[i]? =
        if count = 0 ∨ i < count then items[start + i]? else none := by
  refine ⟨_, if_neg (by omega), fun i => ?_⟩
  by_cases hcount : count = 0
  · simp [hcount]
  · simp [hcount, List.getElem?_take]

theorem getElem?_read
    (r : CursorRegistry) (name name' : String) (start count : Nat) :
    (r.read name start count).2.cursors[name']? =
      if name = name' then none else r.cursors[name']? := by
  cases hname : r.cursors[name]? with
  | none =>
    simp only [read, hname]
    split
    · next heq => rw [← heq, hname]
    · rfl
  | some items =>
    simp only [read, hname, Std.ExtTreeMap.getElem?_erase,
      Std.LawfulEqCmp.compare_eq_iff_eq]

theorem read_numbers (r : CursorRegistry) (name : String) (start count : Nat) :
    (r.read name start count).2.numbers = r.numbers := by
  cases hname : r.cursors[name]? <;> simp only [read, hname]

/-! ## Names and numbers -/

theorem toString_injective
    {a b : UInt64} (h : toString a = toString b) :
    a = b := by
  have hrepr : a.toNat.repr = b.toNat.repr := h
  have hdigits : Nat.toDigits 10 a.toNat = Nat.toDigits 10 b.toNat := by
    simpa only [Nat.toList_repr] using congrArg String.toList hrepr
  have hvalue := congrArg (Nat.ofDigitChars 10 · 0) hdigits
  simp only [Nat.ofDigitChars_ten_toDigits] at hvalue
  exact UInt64.toNat_inj.mp hvalue

theorem ofNat_injective {a b : Nat} (ha : a < 2 ^ 64) (hb : b < 2 ^ 64)
    (h : UInt64.ofNat a = UInt64.ofNat b) : a = b := by
  have htoNat := congrArg UInt64.toNat h
  rwa [UInt64.toNat_ofNat_of_lt' ha, UInt64.toNat_ofNat_of_lt' hb] at htoNat

/-- The cursor opened after `n` others. -/
def handleAt (n : Nat) : CursorHandle :=
  ⟨namePrefix ++ toString (UInt64.ofNat (2 * n + 1)), UInt64.ofNat (2 * n + 2)⟩

theorem handleAt_injective {j k : Nat} (hj : j < 2 ^ 63) (hk : k < 2 ^ 63)
    (h : (handleAt j).id = (handleAt k).id) : j = k := by
  have hnumber := toString_injective ((String.append_right_inj namePrefix).mp h)
  have := ofNat_injective (by omega) (by omega) hnumber
  omega

/-! ## The registry behind a history -/

/-- A registry is what a history has made of an empty one: its numbers have been
counted up, and it keeps what is unread. -/
structure Records (r : CursorRegistry) (history : List CursorEvent) : Prop where
  next : r.numbers.next = UInt64.ofNat (2 * (handles history).length + 1)
  handles : handles history = (List.range (handles history).length).map handleAt
  cursors (name : String) (items : List Item) : r.cursors[name]? = some items ↔
    ∃ handle, (handle, items) ∈ unread history ∧ handle.id = name

variable {r : CursorRegistry} {history : List CursorEvent}

theorem records_empty : Records {} [] where
  next := rfl
  handles := rfl
  cursors name items := by simp [unread]

namespace Records

theorem openCursor_handle (h : r.Records history) (items : List Item) :
    (r.openCursor items).1 = handleAt (CursorEvent.handles history).length := by
  simp only [openCursor, NumberSource.takeName, NumberSource.take, h.next,
    handleAt, ← UInt64.ofNat_one, ← UInt64.ofNat_add]

/-- No cursor given out has the name that the next one gets. -/
theorem fresh
    (h : r.Records history)
    (hfew : (CursorEvent.handles history).length < 2 ^ 63)
    {handle : CursorHandle} (hmem : handle ∈ CursorEvent.handles history) :
    handle.id ≠ (handleAt (CursorEvent.handles history).length).id := by
  rw [h.handles] at hmem
  obtain ⟨j, hj, rfl⟩ := List.mem_map.mp hmem
  have hlt := List.mem_range.mp hj
  intro hid
  have := handleAt_injective (by omega) hfew hid
  omega

theorem openCursor (h : r.Records history)
    (hfew : (CursorEvent.handles history).length < 2 ^ 63) (items : List Item) :
    (r.openCursor items).2.Records
      (history ++ [.opened (r.openCursor items).1 items]) where
  next := by
    simp only [CursorRegistry.openCursor,
      NumberSource.takeName, NumberSource.take, h.next,
      CursorEvent.handles_concat_opened, List.length_append,
      List.length_singleton, ← UInt64.ofNat_one, ← UInt64.ofNat_add]
    congr 1
  handles := by
    rw [h.openCursor_handle items, CursorEvent.handles_concat_opened,
      List.length_append, List.length_singleton, List.range_succ,
      List.map_append, ← h.handles, List.map_singleton]
  cursors name items' := by
    have hinsert : (r.openCursor items).2.cursors =
        r.cursors.insert (r.openCursor items).1.id items := rfl
    rw [hinsert, Std.ExtTreeMap.getElem?_insert,
      CursorEvent.unread_concat_opened, h.openCursor_handle items]
    simp only [Std.LawfulEqCmp.compare_eq_iff_eq, List.mem_append,
      List.mem_singleton, Prod.mk.injEq]
    by_cases hname : (handleAt (CursorEvent.handles history).length).id = name
    · rw [if_pos hname, Option.some.injEq]
      constructor
      · rintro rfl
        exact ⟨_, Or.inr ⟨rfl, rfl⟩, hname⟩
      · rintro ⟨handle, hmem | ⟨rfl, rfl⟩, hid⟩
        · have hgiven := (CursorEvent.unread_sublist history).subset
            (List.mem_map_of_mem hmem)
          exact absurd (hid.trans hname.symm) (h.fresh hfew hgiven)
        · rfl
    · rw [if_neg hname, h.cursors name items']
      constructor
      · rintro ⟨handle, hmem, hid⟩
        exact ⟨handle, Or.inl hmem, hid⟩
      · rintro ⟨handle, hmem | ⟨rfl, rfl⟩, hid⟩
        · exact ⟨handle, hmem, hid⟩
        · exact absurd hid hname

theorem read (h : r.Records history) (name : String) (start count : Nat) :
    (r.read name start count).2.Records (history ++ [.read name]) where
  next := by simpa [read_numbers] using h.next
  handles := by simpa using h.handles
  cursors name' items := by
    rw [getElem?_read, CursorEvent.unread_concat_read]
    simp only [List.mem_filter, decide_eq_true_eq]
    by_cases hname : name = name'
    · subst hname
      simp
    · rw [if_neg hname, h.cursors name' items]
      constructor
      · rintro ⟨handle, hmem, rfl⟩
        exact ⟨handle, ⟨hmem, Ne.symm hname⟩, rfl⟩
      · rintro ⟨handle, ⟨hmem, -⟩, hid⟩
        exact ⟨handle, hmem, hid⟩

theorem names_nodup (h : r.Records history)
    (hfew : (CursorEvent.handles history).length < 2 ^ 63) :
    ((CursorEvent.handles history).map (·.id)).Nodup := by
  rw [h.handles, List.map_map]
  refine List.nodup_range.map_on fun j hj k hk heq => ?_
  exact handleAt_injective (Nat.lt_trans (List.mem_range.mp hj) hfew)
    (Nat.lt_trans (List.mem_range.mp hk) hfew) heq

theorem numbers_nodup (h : r.Records history)
    (hfew : (CursorEvent.handles history).length < 2 ^ 63) :
    ∃ numbers : List UInt64,
      (CursorEvent.handles history).map (·.id) =
        numbers.map (namePrefix ++ toString ·) ∧
      (numbers ++ (CursorEvent.handles history).map (·.serial)).Nodup := by
  have hlt {j : Nat}
      (hj : j ∈ List.range (CursorEvent.handles history).length) :
      2 * j + 2 < 2 ^ 64 := by
    have := List.mem_range.mp hj
    omega
  refine ⟨(List.range (CursorEvent.handles history).length).map fun j =>
    UInt64.ofNat (2 * j + 1), ?_, ?_⟩
  · rw [h.handles, List.map_map, List.map_map, List.length_map,
      List.length_range]
    rfl
  · rw [h.handles, List.map_map, List.length_map, List.length_range,
      List.nodup_append]
    -- The names have the odd numbers, the serials the even ones.
    refine ⟨?_, ?_, ?_⟩
    · refine List.nodup_range.map_on fun j hj k hk heq => ?_
      have := ofNat_injective (Nat.lt_of_succ_lt (hlt hj))
        (Nat.lt_of_succ_lt (hlt hk)) heq
      omega
    · refine List.nodup_range.map_on fun j hj k hk heq => ?_
      have := ofNat_injective (hlt hj) (hlt hk) heq
      omega
    · intro odd hodd even heven heq
      obtain ⟨j, hj, rfl⟩ := List.mem_map.mp hodd
      obtain ⟨k, hk, rfl⟩ := List.mem_map.mp heven
      have := ofNat_injective (Nat.lt_of_succ_lt (hlt hj)) (hlt hk) heq
      omega

/-- The open names are those of the unread cursors, each of which has its
own. -/
theorem openCount_eq (h : r.Records history)
    (hfew : (CursorEvent.handles history).length < 2 ^ 63) :
    r.openCount = (unread history).length := by
  have hnames : ((unread history).map (·.1.id)).Nodup := by
    have hsublist := (CursorEvent.unread_sublist history).map (·.id)
    rw [List.map_map] at hsublist
    exact hsublist.nodup (h.names_nodup hfew)
  have hperm : r.cursors.keys.Perm ((unread history).map (·.1.id)) := by
    refine (List.perm_ext_iff_of_nodup Std.ExtTreeMap.nodup_keys hnames).mpr
      fun name => ?_
    rw [Std.ExtTreeMap.mem_keys, Std.ExtTreeMap.mem_iff_isSome_getElem?,
      Option.isSome_iff_exists]
    simp only [h.cursors, List.mem_map, Prod.exists]
    exact exists_comm
  rw [openCount, ← Std.ExtTreeMap.length_keys, hperm.length_eq, List.length_map]

end Records

end CursorRegistry

/-- What can be done with a session whose cursors are watched. -/
inductive SessionStep where
  | list (name : String)
  | openCursor (items : List Item)
  | next (name : String) (start count : Nat)
  | operate (op : Operation)

namespace Session

open CursorEvent (handles unread)

/-! ## Steps -/

section Next

variable {σ : Type} {s : Session σ} {name : String}

theorem next_run_some
    {items : List Item} (h : s.cursors.cursors[name]? = some items)
    (start count : Nat) :
    next name start count s = (CursorRegistry.slice items start count,
      { s with
        cursors :=
          { s.cursors with cursors := s.cursors.cursors.erase name } }) := by
  simp only [next, CursorRegistry.read, h]

theorem next_run_none
    (h : s.cursors.cursors[name]? = none) (start count : Nat) :
    next name start count s = (.ok [], s) := by
  simp only [next, CursorRegistry.read, h]

end Next

variable {σ : Type} [EntityStore σ]

def following (s : Session σ) : SessionStep → Session σ
  | .list name => (list name s).2
  | .openCursor items => { s with cursors := (s.cursors.openCursor items).2 }
  | .next name start count => (next name start count s).2
  | .operate op => (run op.perform s).2

/-- What a step does to the cursors, if it gets to them: a listing that fails
opens none. -/
def event (s : Session σ) : SessionStep → Option CursorEvent
  | .list name => do
    let items ← (s.graph.listItems name).toOption
    let handle ← (list name s).1.toOption
    return .opened handle items
  | .openCursor items => some (.opened (s.cursors.openCursor items).1 items)
  | .next name _ _ => some (.read name)
  | .operate _ => none

def afterSteps (s : Session σ) (steps : List SessionStep) : Session σ :=
  steps.foldl following s

/-- What steps taken one after the other do to the cursors. -/
def history (s : Session σ) : List SessionStep → List CursorEvent
  | [] => []
  | step :: steps => (s.event step).toList ++ (s.following step).history steps

theorem afterSteps_concat
    (s : Session σ) (steps : List SessionStep) (step : SessionStep) :
    s.afterSteps (steps ++ [step]) = (s.afterSteps steps).following step := by
  simp [afterSteps]

theorem history_concat
    (s : Session σ) (steps : List SessionStep) (step : SessionStep) :
    s.history (steps ++ [step]) =
      s.history steps ++ ((s.afterSteps steps).event step).toList := by
  induction steps generalizing s with
  | nil => simp [history, afterSteps]
  | cons first rest ih => simp [history, afterSteps, ih]

/-- A listing opens a cursor over its items, or fails and leaves the session
alone. -/
theorem list_run_cases (s : Session σ) (name : String) :
    (∃ items, s.graph.listItems name = .ok items ∧
      list name s = (.ok (s.cursors.openCursor items).1,
        { s with cursors := (s.cursors.openCursor items).2 })) ∨
    ∃ e, s.graph.listItems name = .error e ∧ list name s = (.error e, s) := by
  cases hitems : s.graph.listItems name with
  | ok items =>
    have hlookup : lookup (·.listItems name) s = (.ok items, s) := by
      rw [lookup, hitems]
    exact Or.inl ⟨items, rfl, bind_run_ok hlookup⟩
  | error e =>
    have hlookup : lookup (·.listItems name) s = (.error e, s) := by
      rw [lookup, hitems]
    exact Or.inr ⟨e, rfl, bind_run_error hlookup⟩

/-- Three things can happen to the cursors in a step: nothing, an opening, or a
read. -/
theorem step_cases (s : Session σ) (step : SessionStep) :
    (s.event step = none ∧ (s.following step).cursors = s.cursors) ∨
    (∃ items,
      s.event step = some (.opened (s.cursors.openCursor items).1 items) ∧
      (s.following step).cursors = (s.cursors.openCursor items).2) ∨
    ∃ name start count, s.event step = some (.read name) ∧
      (s.following step).cursors = (s.cursors.read name start count).2 := by
  cases step with
  | list name =>
    obtain ⟨items, hitems, hrun⟩ | ⟨e, hitems, hrun⟩ := s.list_run_cases name
    · refine Or.inr (Or.inl ⟨items, ?_, ?_⟩)
      · rw [event, hitems, hrun]
        rfl
      · rw [following, hrun]
    · refine Or.inl ⟨?_, ?_⟩
      · rw [event, hitems]
        rfl
      · rw [following, hrun]
  | openCursor items => exact Or.inr (Or.inl ⟨items, rfl, rfl⟩)
  | next name start count =>
    exact Or.inr (Or.inr ⟨name, start, count, rfl, rfl⟩)
  | operate op => exact Or.inl ⟨rfl, rfl⟩

/-! ## Runs -/

theorem records_afterSteps
    {s : Session σ} (hs : s.cursors = {}) (steps : List SessionStep)
    (hfew : (handles (s.history steps)).length < 2 ^ 63) :
    (s.afterSteps steps).cursors.Records (s.history steps) := by
  induction steps using List.reverseRecOn with
  | nil => exact hs ▸ CursorRegistry.records_empty
  | append_singleton steps step ih =>
    rw [history_concat] at hfew ⊢
    have hbefore := CursorEvent.length_handles_le (List.prefix_append
      (s.history steps) ((s.afterSteps steps).event step).toList)
    have hrecords := ih (Nat.lt_of_le_of_lt hbefore hfew)
    rw [afterSteps_concat]
    obtain ⟨hevent, hcursors⟩ | ⟨items, hevent, hcursors⟩ |
        ⟨name, start, count, hevent, hcursors⟩ :=
      (s.afterSteps steps).step_cases step
    · rw [hevent, hcursors]
      simpa using hrecords
    · rw [hevent, hcursors]
      exact hrecords.openCursor (Nat.lt_of_le_of_lt hbefore hfew) items
    · rw [hevent, hcursors]
      exact hrecords.read name start count

/-- A session has given out cursors that are read once. -/
structure ReadsOnce (s : Session σ) (history : List CursorEvent) : Prop where
  /-- No two cursors have a name in common. -/
  names : ((handles history).map (·.id)).Nodup
  /-- The numbers in the names and the serials are all different. -/
  numbers : ∃ numbers : List UInt64,
    (handles history).map (·.id) =
      numbers.map (CursorRegistry.namePrefix ++ toString ·) ∧
    (numbers ++ (handles history).map (·.serial)).Nodup
  /-- The first read of a cursor answers from its items, or refuses a start
  behind their end. -/
  answer {handle : CursorHandle} {items : List Item} (start count : Nat) :
    (handle, items) ∈ unread history →
    (start ≤ items.length →
      ∃ window, (next handle.id start count s).1 = .ok window ∧
      ∀ i, window[i]? = if count = 0 ∨
        i < count then items[start + i]? else none) ∧
    (items.length < start →
      (next handle.id start count s).1 =
        .error (.indexOutOfRange start items.length))
  /-- Either way the read takes this cursor away, and changes nothing else. -/
  consumed {handle : CursorHandle} {items : List Item} (start count : Nat) :
    (handle, items) ∈ unread history →
    (next handle.id start count s).2 =
      { s with
        cursors :=
          { s.cursors with cursors := s.cursors.cursors.erase handle.id } }
  /-- What is not the name of an unread cursor reads as empty, and the read does
  nothing. -/
  other (name : String) (start count : Nat) :
    name ∉ (unread history).map (·.1.id) → next name start count s = (.ok [], s)
  /-- The open cursors are the unread ones. -/
  openCount : s.cursors.openCount = (unread history).length

/-- Whatever is done with a session that starts without cursors, listings and
reads in any order with operations on its graph in between: each of the cursors
given out, as long as their numbers last, answers one read from the items that
were listed, and then there is no such cursor. -/
theorem readsOnce_afterSteps
    {s : Session σ} (hs : s.cursors = {}) (steps : List SessionStep)
    (hfew : (handles (s.history steps)).length < 2 ^ 63) :
    (s.afterSteps steps).ReadsOnce (s.history steps) := by
  have hrecords := records_afterSteps hs steps hfew
  have hopen {handle : CursorHandle} {items : List Item}
      (hmem : (handle, items) ∈ unread (s.history steps)) :
      (s.afterSteps steps).cursors.cursors[handle.id]? = some items :=
    (hrecords.cursors handle.id items).mpr ⟨handle, hmem, rfl⟩
  refine ⟨hrecords.names_nodup hfew, hrecords.numbers_nodup hfew, ?_, ?_, ?_,
    hrecords.openCount_eq hfew⟩
  · intro handle items start count hmem
    rw [next_run_some (hopen hmem)]
    exact ⟨fun hstart => CursorRegistry.slice_eq_ok hstart count,
      fun hstart => if_pos hstart⟩
  · intro handle items start count hmem
    rw [next_run_some (hopen hmem)]
  · intro name start count hname
    apply next_run_none
    rw [Option.eq_none_iff_forall_ne_some]
    intro items hitems
    obtain ⟨handle, hmem, rfl⟩ := (hrecords.cursors name items).mp hitems
    exact hname (List.mem_map_of_mem hmem)

/-- A resource is listed twice and then deleted; the first of the cursors is
asked for too much. -/
theorem readsOnce_afterSteps_listedTwice :
    let s : Session VolatileStore := inMemory {} false
    let steps : List SessionStep :=
      [.next "collection1" 0 0,
        .operate (.saveResource { id := "vm1", kind := "compute" }),
        .list "compute", .list "vm1", .operate (.delete "vm1"),
        .next "collection1" 2 1]
    s.history steps = [.read "collection1",
      .opened ⟨"collection1", 2⟩ [⟨"vm1", ""⟩],
      .opened ⟨"collection3", 4⟩ [⟨"vm1", ""⟩], .read "collection1"] ∧
    (s.afterSteps steps).ReadsOnce (s.history steps) := by
  have hhistory : (inMemory {} false : Session VolatileStore).history
      [.next "collection1" 0 0,
        .operate (.saveResource { id := "vm1", kind := "compute" }),
        .list "compute", .list "vm1", .operate (.delete "vm1"),
        .next "collection1" 2 1] =
      [.read "collection1", .opened ⟨"collection1", 2⟩ [⟨"vm1", ""⟩],
        .opened ⟨"collection3", 4⟩ [⟨"vm1", ""⟩], .read "collection1"] := by
    decide +kernel
  refine ⟨hhistory, readsOnce_afterSteps rfl _ ?_⟩
  rw [hhistory]
  decide

end Session

end LinkGraph
