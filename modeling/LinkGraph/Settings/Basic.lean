import LinkGraph.Hook.Registry
import LinkGraph.Session
import LinkGraph.Text.Quoted

/-!
# Settings

What a command needs to know before it starts: where entities are kept, where to
listen, and which kinds have handlers.  Settings come from defaults, from a file
and from the environment, each of which overrides those before it.
-/

namespace LinkGraph

/-- The settings, with their defaults. -/
structure Settings where
  host : String := "127.0.0.1"
  port : UInt16 := 8080
  backend : Backend := .volatile
  /-- The path of the file where entities are kept. -/
  database : String := "occistore.db"
  /-- The path of the document that is served as the schema. -/
  schema : Option String := none
  /-- Kinds without a handler are refused. -/
  validates : Bool := false
  /-- The kinds that get a logging handler. -/
  handlers : List String := []
  deriving Repr, DecidableEq

/-- Why settings cannot be had. -/
inductive SettingsError where
  | unreadable (path reason : String)
  | malformed
  | invalidVariable (name value : String)
  deriving Repr, DecidableEq

namespace SettingsError

def kind : SettingsError → String
  | unreadable .. => "Read"
  | malformed => "Parse"
  | invalidVariable .. => "InvalidEnv"

/-- The message of an error; a malformed file has none of its own. -/
def message? : SettingsError → Option String
  | unreadable path reason => some s!"Cannot read config file {path}: {reason}"
  | malformed => none
  | invalidVariable name value =>
    some s!"Invalid value for {name}: {Text.quoted value}"

end SettingsError

namespace Settings

def address (s : Settings) : String :=
  s!"{s.host}:{s.port}"

/-- A logging handler for each kind that is to have one. -/
def registry (s : Settings) : HookRegistry :=
  HookRegistry.registerAll {} (s.handlers.map fun kind => (kind, .logging kind))

end Settings

end LinkGraph
