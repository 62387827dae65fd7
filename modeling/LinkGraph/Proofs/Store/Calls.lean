import LinkGraph.Store.Volatile

/-!
# Calls on stores

The calls on a store as data: what is read, what is written, and the marks
around writes.  A list of calls is a history that any store can be taken
through.
-/

namespace LinkGraph

/-- A call that reads a store. -/
inductive StoreRead where
  | get (id : EntityId)
  | contains (id : EntityId)
  | members (c : Category)
  | hasCategory (c : Category)
  | categories
  | entityCount
  | entities

/-- A call that writes to a store. -/
inductive StoreWrite where
  | put (e : Entity)
  | remove (id : EntityId)
  | indexInsert (c : Category) (id : EntityId)
  | indexRemove (c : Category) (id : EntityId)

/-- A call on a store. -/
inductive StoreCall where
  | read (r : StoreRead)
  | write (w : StoreWrite)
  | begin
  | commit
  | abort
  | reopen

/-- What reading calls answer; writing calls and calls of any kind follow. -/
abbrev StoreRead.Answer : StoreRead → Type
  | get _ => Option Entity
  | contains _ => Bool
  | members _ => List EntityId
  | hasCategory _ => Bool
  | categories => List Category
  | entityCount => Nat
  | entities => List Entity

abbrev StoreWrite.Answer : StoreWrite → Type
  | put _ => Option Entity
  | remove _ => Option Entity
  | indexInsert .. => Unit
  | indexRemove .. => Unit

abbrev StoreCall.Answer : StoreCall → Type
  | read r => r.Answer
  | write w => w.Answer
  | begin | commit | abort | reopen => Unit

variable {σ : Type} [EntityStore σ]

def StoreRead.perform (s : σ) : (r : StoreRead) → Except StoreError r.Answer
  | get id => EntityStore.get s id
  | contains id => EntityStore.contains s id
  | members c => EntityStore.members s c
  | hasCategory c => EntityStore.hasCategory s c
  | categories => EntityStore.categories s
  | entityCount => EntityStore.entityCount s
  | entities => EntityStore.entities s

def StoreWrite.perform : (w : StoreWrite) → StoreM σ w.Answer
  | put e => EntityStore.put e
  | remove id => EntityStore.remove id
  | indexInsert c id => EntityStore.indexInsert c id
  | indexRemove c id => EntityStore.indexRemove c id

def StoreCall.perform : (call : StoreCall) → StoreM σ call.Answer
  | read r => fun s => (r.perform s, s)
  | write w => w.perform
  | begin => EntityStore.begin
  | commit => EntityStore.commit
  | abort => modify EntityStore.abort
  | reopen => modify EntityStore.reopen

def StoreCall.after (s : σ) (calls : List StoreCall) : σ :=
  calls.foldl (fun s call => (call.perform s).2) s

/-- None of the calls fails. -/
def StoreCall.Succeed : σ → List StoreCall → Prop
  | _, [] => True
  | s, call :: calls =>
    (∃ a, (call.perform s).1 = .ok a) ∧ Succeed (call.perform s).2 calls

instance decidableOk
    {α : Type} : (r : Except StoreError α) → Decidable (∃ a, r = .ok a)
  | .ok a => isTrue ⟨a, rfl⟩
  | .error _ => isFalse nofun

instance StoreCall.decidableSucceed :
    (s : σ) → (calls : List StoreCall) → Decidable (StoreCall.Succeed s calls)
  | _, [] => isTrue trivial
  | s, call :: calls =>
    have := decidableSucceed (call.perform s).2 calls
    inferInstanceAs (Decidable (_ ∧ _))

theorem StoreCall.succeed_append {s : σ} {calls calls' : List StoreCall} :
    StoreCall.Succeed s (calls ++ calls') ↔
      StoreCall.Succeed s calls ∧
      StoreCall.Succeed (StoreCall.after s calls) calls' := by
  induction calls generalizing s with
  | nil => exact ⟨fun h => ⟨trivial, h⟩, And.right⟩
  | cons call calls ih =>
    change _ ∧ StoreCall.Succeed _ (calls ++ calls') ↔ (_ ∧ _) ∧ _
    rw [ih, and_assoc]
    rfl

end LinkGraph
