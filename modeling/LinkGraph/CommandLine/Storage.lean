import LinkGraph.Files.Basic
import LinkGraph.Files.Path
import LinkGraph.Settings.Basic
import LinkGraph.Store.TableFile

/-!
# Storage of sessions

The file from which a command opens a session and to which it saves it.  In
memory a session starts from a snapshot, if there is a file, and is written back
as one when the command has succeeded.  A durable store is a file of tables,
which is made when it is opened for the first time and written whenever a batch
is committed.
-/

namespace LinkGraph

/-- An open session on either backend. -/
inductive OpenSession where
  | volatile (session : Session VolatileStore)
  | durable (session : Session DurableStore)

namespace OpenSession

/-- Performs an operation that is the same on both backends. -/
def perform {α : Type} (op : {σ : Type} → [EntityStore σ] → SessionM σ α) :
    ExceptT StoreError (StateM OpenSession) α
  | volatile session =>
    let (result, session) := op.run session
    (result, volatile session)
  | durable session =>
    let (result, session) := op.run session
    (result, durable session)

/-- The tables that outlive the session, if it is on any. -/
def tables? : OpenSession → Option Tables
  | volatile _ => none
  | durable session => some session.graph.store.tables

end OpenSession

namespace CommandLine

variable {m : Type → Type} [Monad m] [FileAccess m]

/-- Turns the failure of a file operation into a store error. -/
def attempt
    {α : Type} (describe : String → String) (op : m (Except FileError α)) :
    ExceptT StoreError m α := do
  match ← op with
  | .ok a => return a
  | .error e => throw (.io (describe e.message))

def kindOf (path : String) : ExceptT StoreError m (Option FileKind) :=
  ExceptT.lift (FileAccess.kind? path)

/-- The absolute path of a regular file. -/
def regularFile (path : String) : ExceptT StoreError m String := do
  let place ←
    attempt (fun reason => "Invalid file path '" ++ path ++ "': " ++ reason)
      (FileAccess.canonical path)
  match ← kindOf place with
  | some .regular => return place
  | _ => throw (.io ("Path '" ++ path ++ "' is not a regular file"))

/-- The absolute path of a file that is to be written, which is in an existing
directory. -/
def outputFile (path : String) : ExceptT StoreError m String := do
  let directory := Path.directory path
  let place ←
    attempt (fun reason => "Invalid output directory '" ++ directory ++
      "': " ++ reason)
      (FileAccess.canonical directory)
  match ← kindOf place with
  | some .directory =>
    match Path.fileName? path with
    | some name => return Path.append place name
    | none => throw (.io "Output path has no filename")
  | _ =>
    throw (.io ("Output directory '" ++ directory ++
      "' is not a valid directory"))

/-- The content of a snapshot file, unless it is too large. -/
def readSnapshot (path : String) : ExceptT StoreError m FileContent := do
  let place ← regularFile path
  let content ← attempt ("Read file: " ++ ·) (FileAccess.read place)
  liftM ((Snapshot.checkSize "File" content.size).mapError
    StoreError.deserialization)
  return content

/-- The entities of a snapshot file.  The header is looked at before the rest of
the content. -/
def snapshotEntities
    (content : FileContent) : Except StoreError (List Entity) := do
  let header ← Snapshot.Header.ofBytes (content.take 5).toBytes
  header.validate
  Snapshot.read content.toBytes

/-- The reason for refusing a file that is opened for its tables but holds
something else. -/
def notTables : String :=
  "Not a redb database: magic number mismatch"

/-- The tables in a file that has been opened; an empty file is given empty
tables first. -/
def openTables (path : String) : ExceptT StoreError m Tables := do
  let failure (reason : String) := s!"I/O error: {reason}"
  let content ← attempt failure (FileAccess.openFile path)
  if content.size = 0 then
    attempt failure (FileAccess.write path (Tables.toBytes {}))
    return {}
  else if content.hole = 0 then
    match Tables.ofBytes? content.stored with
    | some tables => return tables
    | none => throw (.io (failure notTables))
  else throw (.io (failure notTables))

def openSession (settings : Settings) : ExceptT StoreError m OpenSession := do
  match settings.backend with
  | .durable =>
    let tables ← openTables settings.database
    return .durable (.onTables tables settings.registry settings.validates)
  | .volatile =>
    let session :=
      OpenSession.volatile (.inMemory settings.registry settings.validates)
    if (← kindOf settings.database).isNone then return session
    let content ← readSnapshot settings.database
    let entities ← snapshotEntities content
    let (result, session) :=
      session.perform (Session.run (Graph.restore entities))
    let _ ← result
    return session

/-- Writes the tables of a session to the file of the settings, if commits have
changed them. -/
def persist
    (settings : Settings) (before after : OpenSession) :
    ExceptT StoreError m Unit :=
  match after.tables? with
  | none => return ()
  | some tables =>
    if before.tables? = some tables then return ()
    else
      attempt (fun reason => s!"I/O error: {reason}")
        (FileAccess.write settings.database tables.toBytes)

/-- Saves a session to the file of the settings.  Commits have already written
what is durable. -/
def saveSession (settings : Settings) : OpenSession → ExceptT StoreError m Unit
  | .volatile session => do
    let bytes ← session.graph.exportBytes
    attempt ("Write db: " ++ ·) (FileAccess.write settings.database bytes)
  | .durable _ => return ()

/-- Performs an operation on the session of the settings, and saves the session
if it is told to.  What the operation has committed is written even if it
fails. -/
def inSession
    {α : Type} (settings : Settings) (saves : Bool)
    (op : {σ : Type} → [EntityStore σ] → SessionM σ α) :
    ExceptT StoreError m α := do
  let session ← openSession settings
  let (result, after) := OpenSession.perform op session
  persist settings session after
  let value ← result
  if saves then saveSession settings after
  return value

end CommandLine

end LinkGraph
