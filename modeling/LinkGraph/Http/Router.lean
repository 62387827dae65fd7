import LinkGraph.Http.Call
import LinkGraph.Text.Hex
import LinkGraph.Text.Utf8

/-!
# Requests and responses

A request is resolved to a call by its path, its method and its body, or
rejected with a bare status; a call is checked and performed.  Nothing but a
performed call touches the session.
-/

namespace LinkGraph.Http

/-- A request.  Its body is any bytes, of which a text stands for its UTF-8
bytes. -/
structure Request where
  method : String
  target : String
  contentType : Option String := some "application/json"
  body : List UInt8 := []

instance textBody : Coe String (List UInt8) :=
  ⟨Text.bytes⟩

/-- A status, and a JSON body if there is one. -/
structure Response where
  status : Nat
  body : Option Json := none

def serviceVersion : String := "0.4.2"

def statusOf : StoreError → Nat
  | .unknownCategory _ | .danglingReference .. => 422
  | .indexOutOfRange .. | .unsupportedAttributeType .. => 400
  | .digestUnavailable _ | .serialization _ | .deserialization _ | .io _ => 500

/-- A store error as the client sees it. -/
def describe (e : StoreError) : String :=
  s!"{e.kind}: {e.message}"

/-! ## Content types -/

def isTokenChar (c : Char) : Bool :=
  c.isAlphanum || "!#$%&'*+-.^_\x60|~".contains c

/-- A character that may stand in a quoted value. -/
def isQuotable (c : Char) : Bool :=
  0x20 ≤ c.toNat && c.toNat ≤ 0x7E

/-- Where the reading of parameters stands. -/
inductive ParameterState where
  | blank
  | name
  | value
  | unquoted
  | quoted
  | after

/-- The characters after the first semicolon of a content type are a list of
parameters, each after a semicolon.  A quoted value has at least one character,
and its first one is never the closing quote. -/
def parametersOk : ParameterState → List Char → Bool
  | .blank, [] => true
  | .blank, ' ' :: rest => parametersOk .blank rest
  | .blank, c :: rest => isTokenChar c && parametersOk .name rest
  | .name, [] => false
  | .name, '=' :: rest => parametersOk .value rest
  | .name, c :: rest => isTokenChar c && parametersOk .name rest
  | .value, [] => true
  | .value, ['"'] => false
  | .value, '"' :: c :: rest => isQuotable c && parametersOk .quoted rest
  | .value, c :: rest => isTokenChar c && parametersOk .unquoted rest
  | .unquoted, [] => true
  | .unquoted, ';' :: rest => parametersOk .blank rest
  | .unquoted, c :: rest => isTokenChar c && parametersOk .unquoted rest
  | .quoted, [] => false
  | .quoted, '"' :: rest => parametersOk .after rest
  | .quoted, c :: rest => isQuotable c && parametersOk .quoted rest
  | .after, [] => true
  | .after, ' ' :: rest => parametersOk .after rest
  | .after, ';' :: rest => parametersOk .blank rest
  | .after, _ :: _ => false

/-- A subtype and its suffix, the part after the last plus sign.  A plus sign at
the front starts no suffix. -/
def splitSuffix (subtype : List Char) : List Char × Option (List Char) :=
  match subtype.reverse.span (· ≠ '+') with
  | (_, []) | (_, [_]) => (subtype, none)
  | (suffix, _ :: rest) => (rest.reverse, some suffix.reverse)

/-- The content type is JSON: `application/json` or `application/` anything
`+json`, in letters of either case, perhaps with parameters. -/
def isJsonType (contentType : String) : Bool :=
  let (type, rest) := (contentType.toList.map Char.toLower).span (· ≠ '/')
  let (subtype, parameters) := (rest.drop 1).span (· ≠ ';')
  let (main, suffix) := splitSuffix subtype
  type = "application".toList && !rest.isEmpty && subtype.all isTokenChar &&
    (main = "json".toList || suffix = some "json".toList) &&
    parametersOk .blank (parameters.drop 1)

/-! ## Paths -/

/-- The bytes of a path segment: a percent sign with two hexadecimal digits
stands for one byte. -/
def percentBytes : List UInt8 → List UInt8
  | [] => []
  | 0x25 :: high :: low :: rest =>
    match Text.hexNumber? [Char.ofNat high.toNat, Char.ofNat low.toNat] with
    | some n => UInt8.ofNat n :: percentBytes rest
    | none => 0x25 :: percentBytes (high :: low :: rest)
  | b :: rest => b :: percentBytes rest

def percentDecode? (segment : String) : Option String :=
  Text.ofBytes? (percentBytes (Text.bytes segment))

/-- What stands behind a path: a call that is looked at, a body that is posted,
or a property. -/
inductive Resource where
  | view (call : Call)
  | operation (reader : Json.Reader Call)
  | property (segment : String)

/-- The rest of a target after its scheme, if it begins with one: the characters
before the first colon and two slashes. -/
def afterScheme? : List Char → Option (List Char)
  | [] => none
  | ':' :: '/' :: '/' :: rest => some rest
  | _ :: rest => afterScheme? rest

/-- The path of a target, without query and fragment.  A target that does not
begin with a slash names a scheme and an authority before its path, or has no
path. -/
def pathOf (target : String) : List Char :=
  let origin :=
    match target.toList with
    | '/' :: rest => '/' :: rest
    | cs =>
      ((afterScheme? cs).getD []).dropWhile fun c => c ≠ '/' ∧ c ≠ '?' ∧ c ≠ '#'
  origin.takeWhile fun c => c ≠ '?' ∧ c ≠ '#'

def resource? (path : List Char) : Option Resource :=
  match String.ofList path with
  | "/health" => some (.view .health)
  | "/status" => some (.view .status)
  | "/save_resource" => some (.operation Call.readSaveResource)
  | "/save_link" => some (.operation Call.readSaveLink)
  | "/update" => some (.operation Call.readUpdate)
  | "/save_mixin" | "/update_mixin" => some (.operation Call.readSaveMixin)
  | "/action" => some (.operation Call.readAction)
  | "/find" => some (.operation (Call.readNamed .find))
  | "/load" => some (.operation (Call.readNamed .load))
  | "/list" => some (.operation Call.readList)
  | "/next" => some (.operation Call.readNext)
  | "/delete" => some (.operation (Call.readNamed .delete))
  | _ =>
    let base := "/properties/".toList
    let segment := path.drop base.length
    if path.take base.length = base ∧ segment ≠ [] ∧ '/' ∉ segment then
      some (.property (String.ofList segment))
    else none

/-! ## Resolving -/

/-- Reads the body of a request: the type of its content comes first, then its
size. -/
def readBody (reader : Json.Reader Call) (r : Request) : Except Nat Call :=
  if !(r.contentType.any isJsonType) then .error 415
  else if maxBodySize < r.body.length then .error 413
  else
    match Json.readBytes reader r.body with
    | .ok call => .ok call
    | .error .malformed => .error 400
    | .error .misfit => .error 422

/-- The call that a request makes, or the status that rejects it. -/
def resolve (r : Request) : Except Nat Call :=
  let looks := r.method = "GET" ∨ r.method = "HEAD"
  match resource? (pathOf r.target) with
  | none => .error 404
  | some (.view call) => if looks then .ok call else .error 405
  | some (.operation reader) =>
    if r.method = "POST" then readBody reader r else .error 405
  | some (.property segment) =>
    if looks ∨ r.method = "PUT" then
      match percentDecode? segment with
      | none => .error 400
      | some name =>
        if looks then .ok (.property name)
        else readBody (Call.readSetProperty name) r
    else .error 405

/-! ## Performing -/

def statusBody (backend : Backend) (stats : Stats) (openCursors : Nat) : Json :=
  .object [("backend", .string backend.word),
    ("entities", .ofNat stats.entities),
    ("resources", .ofNat stats.resources), ("links", .ofNat stats.links),
    ("categories", .ofNat stats.categories),
    ("open_cursors", .ofNat openCursors)]

/-- The value of a property: only the schema has one. -/
def propertyValue (schema : Option String) (name : String) : Option String :=
  if name.toList.map Char.toLower = "schema".toList then schema else none

variable {σ : Type} [EntityStore σ]

def perform (schema : Option String) (call : Call) : SessionM σ Json :=
  let success (members : List (String × Json)) := Call.body true members none
  match call with
  | .health =>
    return .object [("status", .string "ok"),
      ("version", .string serviceVersion)]
  | .status => do
    let stats ← Session.lookup Graph.stats
    let s ← get
    return statusBody s.backend stats s.cursors.openCount
  | .saveResource d => do
    let id ← Session.run (Graph.saveResource d)
    return success (Call.savedMembers id)
  | .saveLink d ends => do
    let id ← Session.run (Graph.saveLink d ends)
    return success (Call.savedMembers id)
  | .update id attributes => do
    let applied ← Session.run (Graph.update id attributes)
    return success (Call.updatedMembers applied)
  | .saveMixin mixin ids => do
    Session.run (Graph.saveMixin mixin ids)
    return success []
  | .action id name attributes => do
    let executed ← Session.run (Graph.execute id name attributes)
    return success (Call.executedMembers executed)
  | .find id => do
    let found ← Session.lookup (·.find? id)
    return success (Call.foundMembers found)
  | .load id => do
    let e ← Session.lookup (·.load id)
    return success (Call.loadedMembers e)
  | .list name => do
    let handle ← Session.list name
    return success (Call.listedMembers handle)
  | .next cursor start count => do
    let items ← Session.next cursor start count
    return success (Call.itemMembers items)
  | .delete name => do
    Session.run (Graph.delete name)
    return success []
  | .property name =>
    return .object [("success", .bool true), ("name", .string name),
      ("value", .ofText? (propertyValue schema name))]
  | .setProperty _ => return success []

def respond
    (schema : Option String) (call : Call) : StateM (Session σ) Response := do
  match call.check with
  | .error message => return ⟨400, some (call.failureBody message)⟩
  | .ok () =>
    match ← (perform schema call).run with
    | .ok body => return ⟨200, some body⟩
    | .error e => return ⟨statusOf e, some (call.failureBody (describe e))⟩

/-- Answers a request.  The answer to a HEAD request has no body. -/
def serve
    (schema : Option String) (r : Request) : StateM (Session σ) Response := do
  match resolve r with
  | .error status => return ⟨status, none⟩
  | .ok call =>
    let response ← respond schema call
    return if r.method = "HEAD" then { response with body := none }
      else response

end LinkGraph.Http
