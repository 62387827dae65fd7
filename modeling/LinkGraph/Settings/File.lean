import LinkGraph.Settings.Basic
import LinkGraph.Toml.Document

/-!
# Settings files

A settings file is a TOML document whose keys are settings.  A key that is no
setting, or a value of the wrong type, makes the whole file malformed.
-/

namespace LinkGraph

namespace Toml.Value

def toText? : Value → Option String
  | text s => some s
  | _ => none

def toBool? : Value → Option Bool
  | boolean b => some b
  | _ => none

def toPort? : Value → Option UInt16
  | integer n => if 0 ≤ n ∧ n < 65536 then some (UInt16.ofNat n.toNat) else none
  | _ => none

def toTexts? : Value → Option (List String)
  | array items => items.mapM toText?
  | _ => none

/-- The backend that a value names: its word, or a table with the word as its
only key, which holds nothing. -/
def toBackend? : Value → Option Backend
  | text word | table _ [(word, array [])] | table _ [(word, table _ [])] =>
    Backend.ofWord? word
  | _ => none

end Toml.Value

namespace Settings

/-- The settings with one of them given by a file. -/
def applyMember
    (s : Settings) (member : String × Toml.Value) : Option Settings :=
  let (key, value) := member
  match key with
  | "host" => value.toText?.map fun host => { s with host }
  | "port" => value.toPort?.map fun port => { s with port }
  | "backend" => value.toBackend?.map fun backend => { s with backend }
  | "database" => value.toText?.map fun database => { s with database }
  | "schema" => value.toText?.map fun path => { s with schema := some path }
  | "validate_categories" =>
    value.toBool?.map fun validates => { s with validates }
  | "handlers" => value.toTexts?.map fun handlers => { s with handlers }
  | _ => none

/-- The settings that the text of a file gives; what it leaves out has its
default. -/
def ofText (text : String) : Except SettingsError Settings :=
  match (Toml.document? text).bind (·.foldlM applyMember {}) with
  | some settings => .ok settings
  | none => .error .malformed

end Settings

end LinkGraph
