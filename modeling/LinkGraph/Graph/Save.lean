import LinkGraph.Graph.Basic
import LinkGraph.Wire.Attributes

/-!
# Saving entities and changing them

A saved entity starts at serial one and replaces whatever is stored under its
id.  An update merges attributes into a stored entity, and a mixin is associated
with listed entities that lack it; both count the serial on.
-/

namespace LinkGraph

/-- What a client gives to save an entity. -/
structure Draft where
  id : EntityId
  kind : Category
  mixins : List Category := []
  attributes : WireAttributes := ∅
  owner : String := ""

/-- The entity of a draft.  Its kind is never also among its mixins. -/
def Draft.entity (d : Draft) (endpoints : Option Endpoints) : Entity where
  id := d.id
  endpoints := endpoints
  kind := d.kind
  mixins := .ofList (d.mixins.filter (· ≠ d.kind))
  attributes := d.attributes.decoded
  owner := d.owner

namespace Graph

variable {σ : Type} [EntityStore σ]

def saveResource (d : Draft) : GraphM σ EntityId := do
  checkCategory d.kind
  let e ← batched (replace (d.entity none))
  notify .created e
  return d.id

def checkEndpoint (link endpoint : EntityId) : GraphM σ Unit := do
  let stored ← query (EntityStore.contains · endpoint)
  if !stored then throw (.danglingReference link endpoint)

def saveLink (d : Draft) (ends : Endpoints) : GraphM σ EntityId := do
  checkCategory d.kind
  checkEndpoint d.id ends.source
  checkEndpoint d.id ends.target
  let e ← batched do
    let e ← replace (d.entity (some ends))
    attach ends.source e.id
    return e
  notify .created e
  return d.id

/-- Merges attributes into a stored entity and returns what was accepted.  If
nothing is stored under the id, the attributes are returned as they came. -/
def update
    (id : EntityId) (attributes : WireAttributes) :
    GraphM σ WireAttributes := do
  match ← fetch id with
  | none => return attributes
  | some e =>
    let accepted := attributes.decoded
    let e := { e with attributes := e.attributes ∪ accepted }.bump
    let _ ← change (EntityStore.put e)
    notify .updated e
    return accepted.encode

/-- Associates a mixin with one entity, unless the entity is not stored, has the
mixin as its kind, or carries it already. -/
def associate (mixin : Category) (id : EntityId) : GraphM σ Unit := do
  match ← fetch id with
  | none => return ()
  | some e =>
    if e.kind = mixin ∨ mixin ∈ e.mixins then return ()
    else
      let e := { e with mixins := e.mixins.insert mixin }.bump
      change (EntityStore.indexInsert mixin id)
      let _ ← change (EntityStore.put e)
      notify (.mixinAdded mixin) e

/-- Associates a mixin with the listed entities, one after the other. -/
def saveMixin (mixin : Category) (ids : List EntityId) : GraphM σ Unit :=
  batched (ids.forM (associate mixin))

/-- Associates a mixin again: the same as associating it. -/
def updateMixin (mixin : Category) (ids : List EntityId) : GraphM σ Unit :=
  saveMixin mixin ids

/-- Runs an action through the handler of an entity, and tells whether the
entity is stored.  A failure of the handler is the failure of the operation. -/
def execute
    (id : EntityId) (action : String) (attributes : WireAttributes) :
    GraphM σ Bool := do
  match ← fetch id with
  | none => return false
  | some e =>
    let answer ← callHandler (.action action attributes.decoded) e
    match answer with
    | .ok () => return true
    | .error error => throw error

end Graph

end LinkGraph
