import LinkGraph.Hook.Basic

/-!
# Hook registries

A handler for each of some kinds, and one for all other entities.
-/

namespace LinkGraph

/-- Handlers by kind, and the handler of all other kinds. -/
structure HookRegistry where
  handlers : Std.ExtTreeMap Category Hook := ∅
  fallback : Hook := .silent

namespace HookRegistry

/-- Registers a handler for a kind, replacing an earlier one. -/
def register
    (r : HookRegistry) (kind : Category) (hook : Hook) : HookRegistry :=
  { r with handlers := r.handlers.insert kind hook }

def registerAll
    (r : HookRegistry) (hooks : List (Category × Hook)) : HookRegistry :=
  hooks.foldl (fun r (kind, hook) => r.register kind hook) r

/-- The kind has a handler of its own. -/
def isRegistered (r : HookRegistry) (kind : Category) : Bool :=
  r.handlers.contains kind

/-- The kinds that have a handler, in order. -/
def categories (r : HookRegistry) : List Category :=
  r.handlers.keys

def handlerFor (r : HookRegistry) (e : Entity) : Hook :=
  r.handlers.getD e.kind r.fallback

end HookRegistry

end LinkGraph
