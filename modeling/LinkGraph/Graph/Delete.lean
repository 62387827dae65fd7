import LinkGraph.Graph.Basic

/-!
# Deleting

Deleting an entity takes along every link that starts at it, and so on;
dependents go before the entity itself.  A set of visited ids ends the walk on
cycles.  Deleting a name under which no entity is stored takes it from the
mixins of all entities that carry it.
-/

namespace LinkGraph.Graph

variable {σ : Type} [EntityStore σ]

/-- Removes one entity, after telling its handler, from the index, from its
source and from the store. -/
def erase (id : EntityId) (e : Entity) : GraphM σ Unit := do
  notify .deleting e
  leaveIndex id e
  match e.source? with
  | some source => detach source id
  | none => pure ()
  let _ ← change (EntityStore.remove id)

/-- Removes an entity after its dependents, and returns the ids visited so far.
`depth` bounds the length of a chain of dependents.  The dependents change the
back-references of the entity, so it is fetched again before it is removed. -/
def cascade : Nat → EntityId → NameSet → GraphM σ NameSet
  | 0, _, visited => return visited
  | depth + 1, id, visited => do
    if id ∈ visited then return visited
    let visited := visited.insert id
    match ← fetch id with
    | none => return visited
    | some e =>
      let visited ← e.linkedFrom.toList.foldlM
        (fun visited dependent => cascade depth dependent visited) visited
      match ← fetch id with
      | none => return visited
      | some e =>
        erase id e
        return visited

/-- A bound on the chains of dependents: only stored entities have dependents,
and a chain visits each of them once before it ends.  An entity that is stored
under a foreign id may come to be stored under its own id too, so that there are
at most twice as many. -/
def chainBound (g : Graph σ) : Nat :=
  2 * EntityStore.extent g.store + 1

/-- Takes a mixin from one entity that carries it.  An entity of that kind stays
in the bucket. -/
def dissociate (mixin : Category) (id : EntityId) : GraphM σ Unit := do
  match ← fetch id with
  | none => return ()
  | some e =>
    if mixin ∈ e.mixins then
      let e := { e with mixins := e.mixins.erase mixin }.bump
      if e.kind ≠ mixin then change (EntityStore.indexRemove mixin id)
      let _ ← change (EntityStore.put e)
      notify (.mixinRemoved mixin) e
    else return ()

/-- Takes a mixin from all members of its bucket. -/
def dissociateAll (mixin : Category) : GraphM σ Unit := do
  let ids ← query (EntityStore.members · mixin)
  ids.forM (dissociate mixin)

/-- Deletes an entity with its dependents, or else a mixin; any other name is
left alone. -/
def delete (name : String) : GraphM σ Unit := do
  if ← query (EntityStore.contains · name) then
    let depth := chainBound (← get)
    let _ ← batched (cascade depth name ∅)
  else if ← query (EntityStore.hasCategory · name) then
    batched (dissociateAll name)

end LinkGraph.Graph
