import LinkGraph.Http.Limits
import LinkGraph.Session
import LinkGraph.Wire.Tagged

/-!
# Calls

What a client can ask for, how it is read from a request body, which calls are
refused before they touch the session, and the JSON bodies that answer them.
-/

namespace LinkGraph.Http

/-- A call on a session. -/
inductive Call where
  | health
  | status
  | saveResource (draft : Draft)
  | saveLink (draft : Draft) (ends : Endpoints)
  | update (id : EntityId) (attributes : WireAttributes)
  | saveMixin (mixin : Category) (ids : List EntityId)
  | action (id : EntityId) (name : String) (attributes : WireAttributes)
  | find (id : EntityId)
  | load (id : EntityId)
  | list (name : String)
  | next (cursor : String) (start count : Nat)
  | delete (name : String)
  | property (name : String)
  | setProperty (name : String)

namespace Call

open Json (Fields RecordField Reader)

def textField (name : String) : RecordField String :=
  ⟨name, Reader.text, none⟩

/-- A list of texts, empty when missing. -/
def textsField (name : String) : RecordField (List String) :=
  ⟨name, .list Reader.text, some []⟩

/-- Attributes that may be missing or null, which is the same as no
attributes. -/
def optionalAttributes : RecordField (Option WireAttributes) :=
  ⟨"attributes", .optional WireAttributes.reader, some none⟩

def attributesField (name : String) : RecordField WireAttributes :=
  ⟨name, WireAttributes.reader, some ∅⟩

/-- The owner, empty when missing. -/
def ownerField : RecordField String :=
  ⟨"owner", Reader.text, some ""⟩

def readSaveResource : Reader Call :=
  Fields.record
    (.cons (textField "id") <| .cons (textField "kind") <|
      .cons (textsField "mixins") <|
      .cons optionalAttributes <| .cons ownerField .nil)
    fun (id, kind, mixins, attributes, owner, _) =>
      saveResource { id, kind, mixins, attributes := attributes.getD ∅, owner }

def readSaveLink : Reader Call :=
  Fields.record
    (.cons (textField "id") <| .cons (textField "kind") <|
      .cons (textsField "mixins") <|
      .cons (textField "source") <| .cons (textField "target") <|
        .cons optionalAttributes <| .cons ownerField .nil)
    fun (id, kind, mixins, source, target, attributes, owner, _) =>
      saveLink { id, kind, mixins, attributes := attributes.getD ∅,
                 owner } ⟨source, target⟩

def readUpdate : Reader Call :=
  Fields.record (.cons (textField "id") <|
    .cons (attributesField "attributes") .nil)
    fun (id, attributes, _) => update id attributes

def readSaveMixin : Reader Call :=
  Fields.record (.cons (textField "mixin") <|
    .cons (textsField "entity_ids") .nil)
    fun (mixin, ids, _) => saveMixin mixin ids

def readAction : Reader Call :=
  Fields.record
    (.cons (textField "id") <| .cons (textField "action") <|
      .cons optionalAttributes .nil)
    fun (id, name, attributes, _) => action id name (attributes.getD ∅)

def readNamed (make : String → Call) : Reader Call :=
  Fields.record (.cons (textField "id") .nil) fun (id, _) => make id

/-- Reads a listing.  Filters are read and not applied. -/
def readList : Reader Call :=
  Fields.record (.cons (textField "category") <|
    .cons (attributesField "filters") .nil)
    fun (name, _, _) => list name

/-- Reads the reading of a cursor.  A negative count reads to the end, as zero
does. -/
def readNext : Reader Call :=
  Fields.record
    (.cons (textField "cursor_id") <|
      .cons ⟨"start", Reader.natural64, some 0⟩ <|
      .cons ⟨"count", Reader.integer64, some 0⟩ .nil)
    fun (cursor, start, count, _) => next cursor start count.toNat

/-- Reads the setting of a property, whose value is not kept. -/
def readSetProperty (name : String) : Reader Call :=
  Fields.record (.cons ⟨"value", Reader.any, some .null⟩ .nil) fun _ =>
    setProperty name

/-- Refuses calls with unfit identifiers or too many parts.  Lookups admit every
text. -/
def check : Call → Except String Unit
  | saveResource d => do
    checkIdentifier "id" d.id
    checkIdentifier "kind" d.kind
    checkIdentifiers "mixin" d.mixins
    checkAttributeCount d.attributes.size
  | saveLink d ends => do
    checkIdentifier "id" d.id
    checkIdentifier "kind" d.kind
    checkIdentifier "source" ends.source
    checkIdentifier "target" ends.target
    checkIdentifiers "mixin" d.mixins
    checkAttributeCount d.attributes.size
  | update id attributes => do
    checkIdentifier "id" id
    checkAttributeCount attributes.size
  | saveMixin mixin ids => do
    checkIdentifier "mixin" mixin
    checkTargetCount ids.length
    checkIdentifiers "entity id" ids
  | action id name attributes => do
    checkIdentifier "id" id
    checkIdentifier "action" name
    checkAttributeCount attributes.size
  | delete name => checkIdentifier "id" name
  | _ => .ok ()

/-- The body of an answer with its outcome, its own members and its error. -/
def body
    (success : Bool) (members : List (String × Json)) (error : Option String) :
    Json :=
  .object <| [("success", .bool success)] ++ members ++
    [("error", .ofText? error)]

def savedMembers (id : Option EntityId) : List (String × Json) :=
  [("id", .ofText? id)]

def updatedMembers (attributes : WireAttributes) : List (String × Json) :=
  [("attributes", attributes.toJson)]

def executedMembers (executed : Bool) : List (String × Json) :=
  [("executed", .bool executed)]

/-- The members of the answer to a find: no descriptor or one. -/
def foundMembers (found : Option Descriptor) : List (String × Json) :=
  let descriptor (d : Descriptor) : Json :=
    .object [("node_type", .ofNat Descriptor.nodeType), ("id", .string d.id),
      ("owner", .string d.owner), ("serial", .ofNat d.serial.toNat),
      ("etag", .string d.etag)]
  [("results", .array (found.toList.map descriptor))]

def loadedMembers (e : LoadedEntity) : List (String × Json) :=
  [("id", .string e.id), ("kind", .string e.kind),
    ("mixins", .ofTexts e.mixins),
    ("attributes", e.attributes.toJson)]

def listedMembers (handle : Option CursorHandle) : List (String × Json) :=
  match handle with
  | some h => [("cursor_id", .string h.id), ("serial", .ofNat h.serial.toNat)]
  | none => [("cursor_id", .null), ("serial", .null)]

def itemMembers (items : List Item) : List (String × Json) :=
  let item (i : Item) : Json :=
    .object [("id", .string i.id), ("owner", .string i.owner)]
  [("items", .array (items.map item))]

def failureBody (call : Call) (message : String) : Json :=
  let members :=
    match call with
    | saveResource _ | saveLink .. => savedMembers none
    | update .. => updatedMembers ∅
    | action .. => executedMembers false
    | find _ => foundMembers none
    | load id => loadedMembers (.empty id)
    | list _ => listedMembers none
    | next .. => itemMembers []
    | _ => []
  body false members (some message)

end Call

end LinkGraph.Http
