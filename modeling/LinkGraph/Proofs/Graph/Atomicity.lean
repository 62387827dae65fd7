import LinkGraph.Proofs.Graph.Settling

/-!
# Operations on a durable store are atomic

Whatever the tables of a durable store hold, and wherever a call fails in the
course of an operation, the operation either takes effect as a whole or leaves
nothing behind but what the journal tells.
-/

namespace LinkGraph.Graph

/-- Nothing shows that an operation has been attempted: tables and reading calls
are as before, no batch is open, and whatever is called later goes the same
way. -/
structure Undone (g g' : Graph DurableStore) : Prop where
  tables : g'.store.tables = g.store.tables
  idle : g'.store.batch = none
  reads {γ : Type} (read : DurableStore → Except StoreError γ) :
    read g'.store = read g.store
  course (calls : List (GraphCall DurableStore)) :
    g'.course calls = g.course calls

/-- What an operation has written is durable: no batch is open, and reading
calls answer the same after a reopening. -/
structure Durable (g : Graph DurableStore) : Prop where
  idle : g.store.batch = none
  reopened {γ : Type} (read : DurableStore → Except StoreError γ) :
    read (EntityStore.reopen g.store) = read g.store

/-- Whatever the tables of a store without an open batch hold, and whatever its
medium answers, an operation that fails is undone, and one that succeeds is
durable. -/
theorem undone_or_durable
    {g : Graph DurableStore} (hidle : g.store.batch = none) (op : Operation) :
    (∃ e, (op.reply g).1 = .error e ∧ Undone g (op.reply g).2) ∨
      ∃ r, (op.reply g).1 = .ok r ∧ Durable (op.reply g).2 := by
  rcases reply_atomic op g hidle with ⟨e, hr, hstore⟩ | ⟨r, hr, hidle'⟩
  · refine Or.inl ⟨e, hr, ?_⟩
    constructor
    · rw [hstore]
    · rw [hstore]
      exact hidle
    · intro γ read
      rw [hstore]
    · intro calls
      rw [reply_eq_journaling hstore]
      exact course_journaling g _ calls
  · refine Or.inr ⟨r, hr, hidle', fun read => ?_⟩
    have hreopen :
        EntityStore.reopen (op.reply g).2.store = (op.reply g).2.store := by
      rcases hstore : (op.reply g).2.store with ⟨tables, batch, refusal⟩
      rw [hstore] at hidle'
      obtain rfl : batch = none := hidle'
      rfl
    rw [hreopen]

/-- A resource with two links from it, the row of the second of which is no
entity. -/
def secondLinkGarbled : Graph DurableStore where
  store := { tables := {
    entities := .ofList [
      ("a", Binary.Format.entity.write
        { id := "a", kind := "k", linkedFrom := .ofList ["l", "m"] }),
      ("l", Binary.Format.entity.write
        { id := "l", kind := "k", endpoints := some ⟨"a", "a"⟩ }),
      ("m", [0xFF])]
    categories := .ofList [("k", Tables.membersFormat.write ["a", "l", "m"])] } }

/-- The deletion fails after the first link has been removed in its batch. -/
theorem undone_or_durable_secondLinkGarbled :
    ∃ e, (Operation.reply (.delete "a") secondLinkGarbled).1 = .error e ∧
      Undone secondLinkGarbled
        (Operation.reply (.delete "a") secondLinkGarbled).2 := by
  rcases undone_or_durable (g := secondLinkGarbled) rfl (.delete "a") with
    h | ⟨r, hr, -⟩
  · exact h
  · have hfails :
        (Operation.reply (.delete "a") secondLinkGarbled).1.isOk = false := by
      decide +kernel
    rw [hr] at hfails
    cases hfails

end LinkGraph.Graph
