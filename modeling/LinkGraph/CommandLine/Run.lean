import LinkGraph.CommandLine.Report
import LinkGraph.CommandLine.Storage
import LinkGraph.Files.Tree
import LinkGraph.Settings.Load

/-!
# Running commands

A command line is carried out with the settings from all sources, the command
line itself coming last.  The outcome is the lines that were written and, if the
command failed, why.
-/

namespace LinkGraph

/-- What a server needs of the machine: to listen at an address until it is
stopped. -/
class Network (m : Type → Type) where
  listen : String → m (Except String Unit)

/-- Why a command fails. -/
inductive CommandError where
  | settings (e : SettingsError)
  | store (e : StoreError)
  deriving Repr, DecidableEq

namespace CommandError

def kind : CommandError → String
  | settings e => e.kind
  | store e => e.kind

def message? : CommandError → Option String
  | settings e => e.message?
  | store e => some e.message

end CommandError

/-- The lines that a command has written, and its failure if it failed. -/
structure Outcome where
  lines : List String
  failure : Option CommandError := none
  deriving Repr, DecidableEq

def Outcome.text (o : Outcome) : String :=
  String.join (o.lines.map (· ++ "\n"))

namespace CommandLine

def serverLines (settings : Settings) (schema : Option String) : List String :=
  ["occistore protocol adapter starting...", "", "Configuration:",
    s!"  Address:    {settings.address}",
    s!"  Backend:    {settings.backend.word}",
    s!"  Database:   {Text.quoted settings.database}",
    "  Schema:     " ++ (if schema.isSome then "loaded" else "none"),
    s!"  Validation: {settings.validates}", "", "Press Ctrl+C to stop", ""]

/-- An address that holds a NUL character names no host. -/
instance : Network (StateM FileTree) where
  listen address := fun t =>
    (if '\x00' ∈ address.toList then .error FileError.nulInPath.message
      else .ok (), t)

variable {m : Type → Type} [Monad m] [FileAccess m] [Network m]

/-- The settings of a command line: from its file, the environment, and its own
options. -/
def settingsOf
    (i : Invocation) (env : Environment) :
    m (Except SettingsError Settings) := do
  let loaded ← Settings.load i.config env
  return loaded.map fun s =>
    { s with
      backend := i.backend.getD s.backend
      database := i.database.getD s.database }

/-- The outcome of a command that writes its lines at the end. -/
def outcome (op : ExceptT StoreError m (List String)) : m Outcome := do
  match ← op.run with
  | .ok lines => return { lines }
  | .error e => return { lines := [], failure := some (.store e) }

def runExport
    (settings : Settings) (output : String) :
    ExceptT StoreError m (List String) := do
  let place ← outputFile output
  let bytes ← inSession settings false (Session.lookup Graph.exportBytes)
  attempt ("Write file: " ++ ·) (FileAccess.write place bytes)
  return [s!"Exported {bytes.length} bytes to {Text.quoted place}"]

/-- Restores the entities of a snapshot file.  The file is read before the
session is opened, and its content is looked at afterwards. -/
def runImport
    (settings : Settings) (input : String) :
    ExceptT StoreError m (List String) := do
  let content ← readSnapshot input
  inSession settings true do
    let entities ← snapshotEntities content
    reportImported entities

def runServer (settings : Settings) : m Outcome := do
  match ← (openSession settings).run with
  | .error e => return { lines := [], failure := some (.store e) }
  | .ok _ =>
    let lines := serverLines settings (← settings.readSchema)
    match ← Network.listen settings.address with
    | .ok () => return { lines }
    | .error reason =>
      return { lines, failure := some (.store (.io s!"Bind failed: {reason}")) }

/-- Carries out a command with given settings.  Without a command the status is
reported. -/
def runCommand
    (settings : Settings) (json : Bool) (command : Option Command) :
    m Outcome :=
  match command.getD .status with
  | .server host port =>
    runServer
      { settings with
        host := host.getD settings.host, port := port.getD settings.port }
  | .status => outcome (inSession settings false (reportStatus settings json))
  | .find id => outcome (inSession settings false (reportFound json id))
  | .load id => outcome (inSession settings false (reportLoaded json id))
  | .list name => outcome (inSession settings false (reportListed json name))
  | .delete name => outcome (inSession settings true (reportDeleted name))
  | .exportTo output => outcome (runExport settings output)
  | .importFrom input => outcome (runImport settings input)

end CommandLine

def Invocation.run
    {m : Type → Type} [Monad m] [FileAccess m] [Network m] (i : Invocation)
    (env : Environment) : m Outcome := do
  match ← CommandLine.settingsOf i env with
  | .error e => return { lines := [], failure := some (.settings e) }
  | .ok settings => CommandLine.runCommand settings i.json i.command

end LinkGraph
