import LinkGraph.CommandLine.Arguments
import LinkGraph.Http.Call
import LinkGraph.Json.Printer
import LinkGraph.Settings.Basic

/-!
# Reports

What a command finds or changes in a session, and the lines that say so.
Queries are reported as lines of text or as one JSON document.
-/

namespace LinkGraph.CommandLine

variable {σ : Type} [EntityStore σ]

def statusLines
    (settings : Settings) (json : Bool) (stats : Stats) : List String :=
  if json then
    [Json.pretty (.object
      [("database", .string settings.database),
        ("backend", .string settings.backend.word),
        ("entities", .ofNat stats.entities),
        ("resources", .ofNat stats.resources),
        ("links", .ofNat stats.links),
        ("categories", .ofNat stats.categories)])]
  else
    ["occistore Status", "================",
      s!"Database:   {Text.quoted settings.database}",
      s!"Backend:    {settings.backend.word}",
      "",
      s!"Entities:   {stats.entities}", s!"Resources:  {stats.resources}",
      s!"Links:      {stats.links}", s!"Categories: {stats.categories}"]

def foundLines
    (json : Bool) (id : String) (found : Option Descriptor) : List String :=
  if json then [Json.pretty (.object (Http.Call.foundMembers found))]
  else
    match found with
    | some d =>
      [s!"Id:     {d.id}", s!"Owner:  {d.owner}", s!"Serial: {d.serial}",
        s!"ETag:   {d.etag}"]
    | none => [s!"Not found: {id}"]

def loadedLines
    (json : Bool) (id : String) (e : LoadedEntity) (attributes : Attributes) :
    List String :=
  if json then
    [Json.pretty (Http.Call.body true (Http.Call.loadedMembers e) none)]
  else if e.kind.isEmpty then [s!"Not found: {id}"]
  else
    let mixins := ", ".intercalate e.mixins
    [s!"Id:     {e.id}", s!"Kind:   {e.kind}", s!"Mixins: {mixins}"] ++
      attributes.toList.map fun (key, value) => s!"  {key} = {value}"

def listedLines
    (json : Bool) (name : String) (items : List Item) : List String :=
  if json then
    [Json.pretty
      (.object (("category", .string name) :: Http.Call.itemMembers items))]
  else
    s!"{name} ({items.length} entries)" ::
      items.map fun item => s!"  {item.id}  owner={item.owner}"

def reportStatus
    (settings : Settings) (json : Bool) : SessionM σ (List String) := do
  return statusLines settings json (← Session.lookup Graph.stats)

def reportFound (json : Bool) (id : String) : SessionM σ (List String) := do
  return foundLines json id (← Session.lookup (·.find? id))

def reportLoaded (json : Bool) (id : String) : SessionM σ (List String) := do
  let e ← Session.lookup (·.load id)
  let attributes ← Session.lookup (·.attributes id)
  return loadedLines json id e attributes

/-- Reports what a name lists, read through a cursor. -/
def reportListed (json : Bool) (name : String) : SessionM σ (List String) := do
  let handle ← Session.list name
  let items ← Session.next handle.id 0 0
  return listedLines json name items

/-- Deletes an entity or dissociates a mixin, and reports how many entities have
gone. -/
def reportDeleted (name : String) : SessionM σ (List String) := do
  let before ← Session.lookup Graph.entityCount
  Session.run (Graph.delete name)
  let after ← Session.lookup Graph.entityCount
  return [s!"Deleted {name} ({before - after} entities removed)"]

def reportImported (entities : List Entity) : SessionM σ (List String) := do
  let count ← Session.run (Graph.restore entities)
  return [s!"Imported {count} entities"]

end LinkGraph.CommandLine
