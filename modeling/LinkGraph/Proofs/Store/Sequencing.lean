import LinkGraph.Store.Basic

/-!
# Sequencing of changing calls

Changing calls of stores, and operations of graphs, may fail and keep their
state when they do.  These are the equations by which a sequence of them is run
step by step.
-/

namespace LinkGraph

variable {σ α β : Type} {s s' : σ}

theorem bind_run_ok
    {p : StoreM σ α} {f : α → StoreM σ β} {a : α} (h : p s = (.ok a, s')) :
    (p >>= f) s = f a s' := by
  change (ExceptT.bindCont f (p s).1) (p s).2 = f a s'
  rw [h]
  rfl

theorem bind_run_error {p : StoreM σ α} {f : α → StoreM σ β} {e : StoreError}
    (h : p s = (.error e, s')) : (p >>= f) s = (.error e, s') := by
  change (ExceptT.bindCont f (p s).1) (p s).2 = (.error e, s')
  rw [h]
  rfl

theorem map_run (p : StoreM σ α) (f : α → β) (s : σ) :
    (do return f (← p) : StoreM σ β) s = ((p s).1.map f, (p s).2) := by
  rcases hp : p s with ⟨r, s'⟩
  cases r with
  | ok a => exact bind_run_ok hp
  | error e => exact bind_run_error hp

theorem tryCatch_run_ok
    {p : StoreM σ α} {handler : StoreError → StoreM σ α} {a : α}
    (h : p s = (.ok a, s')) :
    (tryCatch p handler : StoreM σ α) s = (.ok a, s') := by
  simp only [tryCatch, tryCatchThe, MonadExceptOf.tryCatch, ExceptT.tryCatch,
    ExceptT.mk, bind, StateT.bind]
  rw [h]
  rfl

theorem tryCatch_run_error
    {p : StoreM σ α} {handler : StoreError → StoreM σ α} {e : StoreError}
    (h : p s = (.error e, s')) :
    (tryCatch p handler : StoreM σ α) s = handler e s' := by
  simp only [tryCatch, tryCatchThe, MonadExceptOf.tryCatch, ExceptT.tryCatch,
    ExceptT.mk, bind, StateT.bind]
  rw [h]

@[simp] theorem pure_run (a : α) : (pure a : StoreM σ α) s = (.ok a, s) := rfl

end LinkGraph
