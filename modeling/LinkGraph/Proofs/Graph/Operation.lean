import LinkGraph.Graph.Delete
import LinkGraph.Graph.Restore
import LinkGraph.Graph.Save
import LinkGraph.Proofs.Store.Faithful

/-!
# Runs of operations

The operations that change a graph as data, the graph after a list of them, and
what it means that no call on its store fails meanwhile.  An operation that the
graph refuses is part of a run like any other.
-/

namespace LinkGraph

/-- An operation that changes a graph. -/
inductive Operation where
  | saveResource (draft : Draft)
  | saveLink (draft : Draft) (ends : Endpoints)
  | update (id : EntityId) (attributes : WireAttributes)
  | saveMixin (mixin : Category) (ids : List EntityId)
  | updateMixin (mixin : Category) (ids : List EntityId)
  | delete (name : String)
  | restore (entities : List Entity)

namespace Operation

variable {σ : Type} [EntityStore σ]

def perform : Operation → GraphM σ Unit
  | saveResource d => do let _ ← Graph.saveResource d
  | saveLink d ends => do let _ ← Graph.saveLink d ends
  | update id attributes => do let _ ← Graph.update id attributes
  | saveMixin mixin ids => Graph.saveMixin mixin ids
  | updateMixin mixin ids => Graph.updateMixin mixin ids
  | delete name => Graph.delete name
  | restore entities => do let _ ← Graph.restore entities

/-- The operation does not bring in entities from elsewhere. -/
def isLocal : Operation → Bool
  | restore _ => false
  | _ => true

end Operation

/-- No reading call on a store fails. -/
structure Readable {σ : Type} [EntityStore σ] (s : σ) : Prop where
  get : ∀ id, ∃ r, EntityStore.get s id = .ok r
  contains : ∀ id, ∃ r, EntityStore.contains s id = .ok r
  members : ∀ c, ∃ r, EntityStore.members s c = .ok r
  hasCategory : ∀ c, ∃ r, EntityStore.hasCategory s c = .ok r
  categories : ∃ r, EntityStore.categories s = .ok r
  entityCount : ∃ r, EntityStore.entityCount s = .ok r
  entities : ∃ r, EntityStore.entities s = .ok r

theorem Readable.agrees
    {σ : Type} [EntityStore σ] [FaithfulStore σ] {s : σ} {m : VolatileStore}
    (h : Readable s) (hholds : FaithfulStore.Holds s m) :
    Agrees s m where
  get id := (FaithfulStore.get hholds id).eq_of_readable (h.get id)
  contains id :=
    (FaithfulStore.contains hholds id).eq_of_readable (h.contains id)
  members c := (FaithfulStore.members hholds c).eq_of_readable (h.members c)
  hasCategory c :=
    (FaithfulStore.hasCategory hholds c).eq_of_readable (h.hasCategory c)
  categories := (FaithfulStore.categories hholds).eq_of_readable h.categories
  entityCount := (FaithfulStore.entityCount hholds).eq_of_readable h.entityCount
  entities := (FaithfulStore.entities hholds).eq_of_readable h.entities

theorem Agrees.readable
    {σ : Type} [EntityStore σ] {s : σ} {m : VolatileStore} (h : Agrees s m) :
    Readable s where
  get id := ⟨_, h.get id⟩
  contains id := ⟨_, h.contains id⟩
  members c := ⟨_, h.members c⟩
  hasCategory c := ⟨_, h.hasCategory c⟩
  categories := ⟨_, h.categories⟩
  entityCount := ⟨_, h.entityCount⟩
  entities := ⟨_, h.entities⟩

namespace Graph

variable {σ : Type} [EntityStore σ]

/-- An entity is found under an id. -/
def Stores (g : Graph σ) (id : EntityId) (e : Entity) : Prop :=
  EntityStore.get g.store id = .ok (some e)

/-- A link is found under `l` that starts at `x`. -/
def StartsAt (g : Graph σ) (l x : EntityId) : Prop :=
  ∃ e, g.Stores l e ∧ e.source? = some x

theorem stores_iff
    {g : Graph σ} {m : VolatileStore} (h : Agrees g.store m) {id : EntityId}
    {e : Entity} :
    g.Stores id e ↔ m.entities[id]? = some e := by
  rw [Stores, h.get, Except.ok.injEq]

theorem mem_entities_iff
    {g : Graph σ} {m : VolatileStore} (h : Agrees g.store m) {id : EntityId} :
    id ∈ m.entities ↔ ∃ e, g.Stores id e := by
  simp only [Std.ExtTreeMap.mem_iff_isSome_getElem?, Option.isSome_iff_exists,
    stores_iff h]

theorem startsAt_iff
    {g : Graph σ} {m : VolatileStore} (h : Agrees g.store m) {l x : EntityId} :
    g.StartsAt l x ↔ m.sourceOf l = some x := by
  simp only [StartsAt, VolatileStore.sourceOf, Option.bind_eq_some_iff,
    stores_iff h]

/-- The graph after operations performed one after the other. -/
def after (g : Graph σ) (ops : List Operation) : Graph σ :=
  ops.foldl (fun g op => (op.perform g).2) g

/-- No call on the store fails: in every graph that the operations lead through
it can be read, and an operation that ends with an error was refused. -/
def Unfailing : Graph σ → List Operation → Prop
  | g, [] => Readable g.store
  | g, op :: ops => Readable g.store ∧
      (∀ e, (op.perform g).1 = .error e → e.isRefusal) ∧
        Unfailing (op.perform g).2 ops

@[simp] theorem after_nil (g : Graph σ) : g.after [] = g := rfl

@[simp] theorem after_cons
    (g : Graph σ) (op : Operation) (ops : List Operation) :
    g.after (op :: ops) = Graph.after (op.perform g).2 ops := rfl

theorem after_append (g : Graph σ) (ops ops' : List Operation) :
    g.after (ops ++ ops') = (g.after ops).after ops' :=
  List.foldl_append

theorem Unfailing.readable
    {g : Graph σ} {ops : List Operation} (h : g.Unfailing ops) :
    Readable (g.after ops).store := by
  induction ops generalizing g with
  | nil => exact h
  | cons op ops ih => exact ih h.2.2

theorem unfailing_append {g : Graph σ} {ops ops' : List Operation} :
    g.Unfailing (ops ++ ops') ↔ g.Unfailing ops ∧
      (g.after ops).Unfailing ops' := by
  induction ops generalizing g with
  | nil =>
    constructor
    · intro h
      refine ⟨?_, h⟩
      cases ops' with
      | nil => exact h
      | cons => exact h.1
    · exact And.right
  | cons op ops ih =>
    change _ ∧ _ ∧ Unfailing (op.perform g).2 (ops ++ ops') ↔ (_ ∧ _ ∧ _) ∧ _
    rw [ih, after_cons]
    simp only [and_assoc]

theorem after_concat (g : Graph σ) (ops : List Operation) (op : Operation) :
    g.after (ops ++ [op]) = (op.perform (g.after ops)).2 := by
  rw [after_append, after_cons, after_nil]

section Prefixes

variable {g : Graph σ} {ops part : List Operation} {op : Operation}

theorem Unfailing.initial
    (hops : g.Unfailing ops) (hpart : part <+: ops) :
    g.Unfailing part := by
  obtain ⟨rest, rfl⟩ := hpart
  exact (unfailing_append.mp hops).1

theorem Unfailing.start (hops : g.Unfailing ops) : Readable g.store :=
  hops.initial List.nil_prefix

theorem Unfailing.concat
    (hops : g.Unfailing ops) (hpart : part ++ [op] <+: ops) :
    g.Unfailing part ∧ (g.after part).Unfailing [op] :=
  unfailing_append.mp (hops.initial hpart)

end Prefixes

end Graph

end LinkGraph
