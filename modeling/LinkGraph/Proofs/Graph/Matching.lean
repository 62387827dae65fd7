import LinkGraph.Graph.Restore
import LinkGraph.Proofs.Store.Calls
import LinkGraph.Proofs.Store.Faithful

/-!
# Graphs that show the same

Whatever is looked up, listed, counted or exported is computed from reading
calls.  Graphs whose stores hold the same content therefore show the same, on
whichever stores they are.
-/

namespace LinkGraph

theorem Agrees.read
    {σ : Type} [EntityStore σ] {s : σ} {m : VolatileStore} (h : Agrees s m)
    (r : StoreRead) :
    r.perform s = r.perform m := by
  cases r with
  | get id => exact h.get id
  | contains id => exact h.contains id
  | members c => exact h.members c
  | hasCategory c => exact h.hasCategory c
  | categories => exact h.categories
  | entityCount => exact h.entityCount
  | entities => exact h.entities

namespace Graph

variable {σ τ : Type} [EntityStore σ] [EntityStore τ]

/-- The graphs give the same answers: to every reading call on their stores, to
whoever looks an entity up, with its ETag, loads it, lists or counts, and the
same bytes as their snapshot. -/
structure Matches (g : Graph σ) (g' : Graph τ) : Prop where
  read (r : StoreRead) : r.perform g.store = r.perform g'.store
  find? (id : EntityId) : g.find? id = g'.find? id
  load (id : EntityId) : g.load id = g'.load id
  attributes (id : EntityId) : g.attributes id = g'.attributes id
  listItems (name : String) : g.listItems name = g'.listItems name
  stats : g.stats = g'.stats
  exportBytes : g.exportBytes = g'.exportBytes

theorem matches_of_reads
    {g : Graph σ} {g' : Graph τ}
    (h : ∀ r : StoreRead, r.perform g.store = r.perform g'.store) :
    Matches g g' := by
  have hget (id : EntityId) : g.get? id = g'.get? id := h (.get id)
  have hget? : g.get? = g'.get? := funext hget
  have hentities : g.entities = g'.entities := h .entities
  have hmembers (c : Category) :
      EntityStore.members g.store c = EntityStore.members g'.store c :=
    h (.members c)
  have hcategory (c : Category) :
      EntityStore.hasCategory g.store c = EntityStore.hasCategory g'.store c :=
    h (.hasCategory c)
  have hcategories :
      EntityStore.categories g.store = EntityStore.categories g'.store :=
    h .categories
  constructor
  · exact h
  · intro id
    rw [Graph.find?, Graph.find?, hget]
  · intro id
    rw [Graph.load, Graph.load, hget]
  · intro id
    rw [Graph.attributes, Graph.attributes, hget]
  · intro name
    rw [Graph.listItems, Graph.listItems, hcategory, hmembers, hget?]
  · rw [Graph.stats, Graph.stats, hentities, hcategories]
  · rw [Graph.exportBytes, Graph.exportBytes, hentities]

theorem matches_of_agrees
    {g : Graph σ} {g' : Graph τ} {m : VolatileStore} (h : Agrees g.store m)
    (h' : Agrees g'.store m) :
    Matches g g' :=
  matches_of_reads fun r => (h.read r).trans (h'.read r).symm

end Graph

end LinkGraph
