import LinkGraph.Entity.Basic
import LinkGraph.Error

/-!
# Hooks

A handler is called when something happens to an entity, and may answer with an
error.  A journal keeps every call that was made, with the state of the store at
that moment, and every failed call that the graph noted and went on from.
-/

namespace LinkGraph

/-- What happens to an entity when a handler is called. -/
inductive HookPoint where
  | created
  | updated
  | deleting
  | mixinAdded (mixin : Category)
  | mixinRemoved (mixin : Category)
  | action (name : String) (attributes : Attributes)
  deriving Repr, DecidableEq

/-- The name of a point in a handler's interface. -/
def HookPoint.callback : HookPoint → String
  | created => "post_create"
  | updated => "post_update"
  | deleting => "pre_delete"
  | mixinAdded _ => "mixin_added"
  | mixinRemoved _ => "mixin_removed"
  | action .. => "execute"

/-- The name of the event at a point. -/
def HookPoint.event : HookPoint → String
  | created => "create"
  | updated => "update"
  | deleting => "delete"
  | mixinAdded _ => "mixin_added"
  | mixinRemoved _ => "mixin_removed"
  | action .. => "execute"

/-- How the calls of a handler are shown: not at all, as log records, or as
recorded events. -/
inductive HookStyle where
  | silent
  | logging (label : String)
  | recording (label : String)
  deriving Repr, DecidableEq

/-- A handler: how its calls are shown, and what it answers. -/
structure Hook where
  style : HookStyle := .silent
  answer : HookPoint → Entity → Except StoreError Unit := fun _ _ => .ok ()

namespace Hook

/-- The handler that does nothing. -/
def silent : Hook := {}

/-- The handler that logs its calls. -/
def logging (label : String) : Hook :=
  { style := .logging label }

/-- The handler that records its calls, and fails at the events of the given
names. -/
def recording (label : String) (failing : List String) : Hook where
  style := .recording label
  answer point _ :=
    if failing.contains point.event then
      .error (.io s!"hook {point.event} {label}") else .ok ()

end Hook

/-- What a journal keeps, over stores of a type. -/
inductive JournalEntry (σ : Type) where
  | called (store : σ) (style : HookStyle) (point : HookPoint) (entity : Entity)
  | failed (point : HookPoint) (entity : EntityId) (error : StoreError)
  deriving Repr, DecidableEq

/-- What has happened, in order. -/
abbrev Journal (σ : Type) := List (JournalEntry σ)

end LinkGraph
