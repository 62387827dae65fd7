import LinkGraph.Proofs.Store.Content

/-!
# Faithful stores

A store is faithful when each of its calls either fails, for a reason of its
own, or answers and changes the content of the store as the same call does on a
volatile store of that content.  What holds of every content that a graph can
give a volatile store then holds of every faithful store.
-/

namespace LinkGraph

/-- The error is the graph's own refusal of an operation, not a failure of its
store. -/
def StoreError.isRefusal : StoreError → Bool
  | unknownCategory _ | danglingReference .. => true
  | _ => false

/-- A reading call of a store fails, or answers as expected. -/
def Answers {α : Type} (actual expected : Except StoreError α) : Prop :=
  actual = expected ∨ ∃ e, actual = .error e ∧ e.isRefusal = false

/-- A changing call fails, or has the outcome of another one up to a relation of
the states. -/
def Follows
    {σ τ α : Type} (relation : σ → τ → Prop) (actual : Except StoreError α × σ)
    (expected : Except StoreError α × τ) : Prop :=
  (actual.1 = expected.1 ∧ relation actual.2 expected.2) ∨
    ∃ e, actual.1 = .error e ∧ e.isRefusal = false

/-- Stores whose calls fail or do to the content held what they do to a volatile
store. -/
class FaithfulStore (σ : Type) [EntityStore σ] where
  /-- The store holds the content of a volatile store. -/
  Holds : σ → VolatileStore → Prop
  keyed {s : σ} {m : VolatileStore} : Holds s m → m.Keyed
  extent {s : σ} {m : VolatileStore} :
    Holds s m → EntityStore.extent m ≤ EntityStore.extent s
  get {s : σ} {m : VolatileStore} (h : Holds s m) (id : EntityId) :
    Answers (EntityStore.get s id) (EntityStore.get m id)
  contains {s : σ} {m : VolatileStore} (h : Holds s m) (id : EntityId) :
    Answers (EntityStore.contains s id) (EntityStore.contains m id)
  members {s : σ} {m : VolatileStore} (h : Holds s m) (c : Category) :
    Answers (EntityStore.members s c) (EntityStore.members m c)
  hasCategory {s : σ} {m : VolatileStore} (h : Holds s m) (c : Category) :
    Answers (EntityStore.hasCategory s c) (EntityStore.hasCategory m c)
  categories {s : σ} {m : VolatileStore} (h : Holds s m) :
    Answers (EntityStore.categories s) (EntityStore.categories m)
  entityCount {s : σ} {m : VolatileStore} (h : Holds s m) :
    Answers (EntityStore.entityCount s) (EntityStore.entityCount m)
  entities {s : σ} {m : VolatileStore} (h : Holds s m) :
    Answers (EntityStore.entities s) (EntityStore.entities m)
  put {s : σ} {m : VolatileStore} (h : Holds s m) (e : Entity) :
    Follows Holds (EntityStore.put e s) (EntityStore.put e m)
  remove {s : σ} {m : VolatileStore} (h : Holds s m) (id : EntityId) :
    Follows Holds (EntityStore.remove id s) (EntityStore.remove id m)
  indexInsert {s : σ} {m : VolatileStore} (h : Holds s m) (c : Category)
    (id : EntityId) :
    Follows Holds (EntityStore.indexInsert c id s)
      (EntityStore.indexInsert c id m)
  indexRemove {s : σ} {m : VolatileStore} (h : Holds s m) (c : Category)
    (id : EntityId) :
    Follows Holds (EntityStore.indexRemove c id s)
      (EntityStore.indexRemove c id m)
  begin {s : σ} {m : VolatileStore} (h : Holds s m) :
    Follows Holds (EntityStore.begin s) (EntityStore.begin m)
  commit {s : σ} {m : VolatileStore} (h : Holds s m) :
    Follows Holds (EntityStore.commit s) (EntityStore.commit m)

theorem Answers.refl {α : Type} (r : Except StoreError α) : Answers r r :=
  Or.inl rfl

theorem Answers.eq_of_ok
    {α : Type} {actual expected : Except StoreError α} {a : α}
    (h : Answers actual expected) (hactual : actual = .ok a) :
    expected = .ok a := by
  rcases h with rfl | ⟨e, he, -⟩
  · exact hactual
  · simp [hactual] at he

theorem Answers.eq_of_readable
    {α : Type} {actual expected : Except StoreError α}
    (h : Answers actual expected) (hactual : ∃ a, actual = .ok a) :
    actual = expected := by
  obtain ⟨a, ha⟩ := hactual
  rw [ha, h.eq_of_ok ha]

/-- Every reading call of a store answers as that of a volatile store. -/
structure Agrees
    {σ : Type} [EntityStore σ] (s : σ) (m : VolatileStore) : Prop where
  get (id : EntityId) : EntityStore.get s id = .ok m.entities[id]?
  contains (id : EntityId) :
    EntityStore.contains s id = .ok (m.entities.contains id)
  members (c : Category) : EntityStore.members s c = .ok (m.bucket c).toList
  hasCategory (c : Category) :
    EntityStore.hasCategory s c = .ok (m.index.contains c)
  categories : EntityStore.categories s = .ok m.index.keys
  entityCount : EntityStore.entityCount s = .ok m.entities.size
  entities : EntityStore.entities s = .ok m.entities.values

/-- A volatile store is faithful to the content it is. -/
instance : FaithfulStore VolatileStore where
  Holds s m := s = m ∧ m.Keyed
  keyed h := h.2
  extent h := h.1 ▸ Nat.le_refl _
  get h id := h.1 ▸ .refl _
  contains h id := h.1 ▸ .refl _
  members h c := h.1 ▸ .refl _
  hasCategory h c := h.1 ▸ .refl _
  categories h := h.1 ▸ .refl _
  entityCount h := h.1 ▸ .refl _
  entities h := h.1 ▸ .refl _
  put h e := by
    obtain ⟨rfl, hkeyed⟩ := h
    exact Or.inl ⟨rfl, rfl, hkeyed.place e⟩
  remove h id := by
    obtain ⟨rfl, hkeyed⟩ := h
    exact Or.inl ⟨rfl, rfl, hkeyed.discard id⟩
  indexInsert h c id := by
    obtain ⟨rfl, hkeyed⟩ := h
    exact Or.inl ⟨rfl, rfl, hkeyed⟩
  indexRemove h c id := by
    obtain ⟨rfl, hkeyed⟩ := h
    exact Or.inl ⟨rfl, rfl, hkeyed⟩
  begin h := Or.inl ⟨rfl, h⟩
  commit h := Or.inl ⟨rfl, h⟩

end LinkGraph
