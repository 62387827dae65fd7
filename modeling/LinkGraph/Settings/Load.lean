import LinkGraph.Files.Basic
import LinkGraph.Settings.Environment
import LinkGraph.Settings.File

/-!
# Loading settings

The settings from all their sources, and the schema document that they name.
-/

namespace LinkGraph.Settings

variable {m : Type → Type} [Monad m] [FileAccess m]

/-- The settings in a file, or the defaults if there is none. -/
def ofFile : Option String → m (Except SettingsError Settings)
  | none => return .ok {}
  | some path => do
    match ← FileAccess.readText path with
    | .ok text => return ofText text
    | .error e => return .error (.unreadable path e.message)

/-- The settings in a file with the variables of the environment applied. -/
def load
    (path? : Option String) (env : Environment) :
    m (Except SettingsError Settings) := do
  return (← ofFile path?).bind (·.withEnvironment env)

/-- The schema document.  One that cannot be read is none. -/
def readSchema (s : Settings) : m (Option String) := do
  match s.schema with
  | none => return none
  | some path => return (← FileAccess.readText path).toOption

end LinkGraph.Settings
