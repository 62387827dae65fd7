import LinkGraph.Proofs.Graph.Index
import LinkGraph.Proofs.Graph.Reporting
import LinkGraph.Proofs.Graph.Settling

/-!
# Runs in which operations fail

What an operation does to a graph over a faithful store can be read off a
volatile store of the same content, whatever the journal tells from before.  A
settling store is left as it is by an operation that fails.  So what successful
operations keep of a volatile store holds of the content of such a store after
any attempts, whichever of them have failed.
-/

namespace LinkGraph.Graph

open FaithfulStore (Holds)
open SettlingStore (Steady)

/-- The graph with the same handlers upon a volatile store, of which nothing has
been told. -/
def upon
    {σ : Type} (g : Graph σ) (m : VolatileStore) : Graph VolatileStore where
  store := m
  registry := g.registry
  validates := g.validates

section Faithful

variable {σ α : Type} [EntityStore σ] [FaithfulStore σ] {g : Graph σ}
  {m : VolatileStore} {op : Operation}

/-- What has happened from `g` to `g'` is what has happened on the way to `v`
from a graph of which nothing had been told, and has led to the same content. -/
structure Mimics (g g' : Graph σ) (v : Graph VolatileStore) : Prop where
  store : Holds g'.store v.store
  registry : g'.registry = v.registry
  validates : g'.validates = v.validates
  journal : ∃ entries,
    g'.journal = g.journal ++ entries ∧ List.Forall₂ SameEntry entries v.journal

theorem Simulates.upon
    {points : HookPoint → Prop} {p : GraphM σ α} {q : GraphM VolatileStore α}
    (h : Simulates p q) (happends : Appends points p) (hm : Holds g.store m) :
    Follows (Mimics g) (p g) (q (g.upon m)) := by
  have hrelated : Related (journaling g []) (g.upon m) := ⟨hm, rfl, rfl, .nil⟩
  obtain ⟨r, store, entries, hrun, -⟩ := happends g
  have hself : p g = (r, { g with store, journal := g.journal ++ entries }) :=
    hrun g.journal
  have hfollows := h _ _ hrelated
  rw [hrun] at hfollows
  rw [hself]
  rcases hfollows with ⟨hr, hrelated'⟩ | hfails
  · exact Or.inl ⟨hr, hrelated'.store, hrelated'.registry, hrelated'.validates,
      entries, rfl, hrelated'.journal⟩
  · exact Or.inr hfails

omit [FaithfulStore σ] in
theorem perform_appends (op : Operation) :
    Appends op.callsAt (op.perform : GraphM σ Unit) := by
  intro g
  obtain ⟨r, store, entries, hrun, hentries⟩ := (Composed.reply op).appends g
  refine ⟨r.map fun _ => (), store, entries, fun journal => ?_, hentries⟩
  rw [perform_eq_reply, hrun]

/-- An operation in which no call on the store fails does what it does on a
volatile store. -/
theorem perform_upon (hm : Holds g.store m)
    (hop : ∀ e, (op.perform g).1 = .error e → e.isRefusal) :
    (op.perform g).1 = (op.perform (g.upon m)).1 ∧
      Mimics g (op.perform g).2 (op.perform (g.upon m)).2 := by
  rcases (perform_simulates op).upon (perform_appends op) hm with
    h | ⟨e, he, hrefusal⟩
  · exact h
  · have := hop e he
    simp [hrefusal] at this

end Faithful

/-! ## Contents that are kept -/

section Settling

variable {σ α : Type} [EntityStore σ] [FaithfulStore σ] [SettlingStore σ]
  {g : Graph σ} {P : VolatileStore → Prop}

/-- The store is between two operations, and its content has a property. -/
def Settled (P : VolatileStore → Prop) (s : σ) : Prop :=
  Steady s ∧ ∃ m, Holds s m ∧ P m

omit [FaithfulStore σ] in
theorem perform_atomic
    (op : Operation) :
    Atomic (op.perform : GraphM σ Unit) := by
  intro g hsteady
  have hsettles := reply_atomic op g hsteady
  rw [perform_eq_reply]
  rcases hsettles with ⟨e, hr, hstore⟩ | ⟨r, hr, hsteady'⟩
  · rw [hr]
    exact Or.inl ⟨e, rfl, hstore⟩
  · rw [hr]
    exact Or.inr ⟨(), rfl, hsteady'⟩

/-- What an operation keeps when it succeeds on a volatile store, it keeps
wherever it fails. -/
theorem Settled.perform
    (h : Settled P g.store) (op : Operation)
    (hkeeps : ∀ m, P m → (op.perform (g.upon m)).1 = .ok () →
      P (op.perform (g.upon m)).2.store) :
    Settled P (op.perform g).2.store := by
  obtain ⟨hsteady, m, hm, hP⟩ := h
  rcases perform_atomic op g hsteady with ⟨e, -, hstore⟩ | ⟨u, hr, hsteady'⟩
  · rw [hstore]
    exact ⟨hsteady, m, hm, hP⟩
  · have hop : ∀ e, (op.perform g).1 = .error e → e.isRefusal := by simp [hr]
    obtain ⟨hanswer, hmimics⟩ := perform_upon hm hop
    exact ⟨hsteady', _, hmimics.store, hkeeps m hP (hanswer.symm.trans hr)⟩

/-- An operation that is attempted, and what becomes of the store before: the
medium may begin to refuse writes, for instance, or accept them again. -/
structure Attempt
    (σ : Type) [EntityStore σ] [FaithfulStore σ] [SettlingStore σ] where
  op : Operation
  meanwhile : σ → σ := id
  steady {s : σ} : Steady s → Steady (meanwhile s) := by exact fun h => h
  holds {s : σ} {m : VolatileStore} : Holds s m → Holds (meanwhile s) m := by
    exact fun h => h

/-- The graph after operations that were attempted one after the other, whether
they failed or not. -/
def attempted (g : Graph σ) (attempts : List (Attempt σ)) : Graph σ :=
  attempts.foldl (fun g x =>
    (x.op.perform { g with store := x.meanwhile g.store }).2) g

theorem Settled.attempted
    (h : Settled P g.store)
    (hkeeps : ∀ (op : Operation) (v : Graph VolatileStore), P v.store →
      P (op.perform v).2.store)
    (attempts : List (Attempt σ)) :
    Settled P (g.attempted attempts).store := by
  induction attempts generalizing g with
  | nil => exact h
  | cons x attempts ih =>
    obtain ⟨hsteady, m, hm, hP⟩ := h
    have hfound : Settled P (x.meanwhile g.store) :=
      ⟨x.steady hsteady, m, x.holds hm, hP⟩
    exact ih (Settled.perform (g := { g with store := x.meanwhile g.store })
      hfound x.op fun m hP _ => hkeeps x.op _ hP)

end Settling

end LinkGraph.Graph
