import Std.Data.ExtTreeMap
import Std.Data.ExtTreeSet

/-!
# Entities

An entity is a resource or a link between two entities.  It belongs to the
category of its kind and to those of its mixins, carries text attributes, and
knows the links that start at it.  Names are ordered by their characters, and
sets and maps of names are equal when they have the same members.
-/

namespace LinkGraph

/-- The name of an entity. -/
abbrev EntityId := String

/-- The name of a category: a kind or a mixin. -/
abbrev Category := String

abbrev NameSet := Std.ExtTreeSet String

/-- Attribute texts by name. -/
abbrev Attributes := Std.ExtTreeMap String String

structure Endpoints where
  source : EntityId
  target : EntityId
  deriving Repr, DecidableEq

/-- A resource, or a link when it has endpoints. -/
structure Entity where
  id : EntityId
  endpoints : Option Endpoints := none
  kind : Category
  mixins : NameSet := ∅
  attributes : Attributes := ∅
  owner : String := ""
  serial : UInt64 := 1
  linkedFrom : NameSet := ∅
  deriving Repr, DecidableEq

namespace Entity

def isLink (e : Entity) : Bool :=
  e.endpoints.isSome

def source? (e : Entity) : Option EntityId :=
  e.endpoints.map Endpoints.source

def target? (e : Entity) : Option EntityId :=
  e.endpoints.map Endpoints.target

/-- The categories of an entity: its kind, then its mixins in order. -/
def categories (e : Entity) : List Category :=
  e.kind :: e.mixins.toList

/-- The next serial; the greatest one stays. -/
def bump (e : Entity) : Entity :=
  { e with
    serial := if e.serial = 0xFFFFFFFFFFFFFFFF then e.serial else e.serial + 1 }

end Entity

end LinkGraph
