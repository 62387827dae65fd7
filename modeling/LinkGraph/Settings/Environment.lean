import LinkGraph.Decimal.Numeral
import LinkGraph.Settings.Basic
import LinkGraph.Text.Blank

/-!
# Settings from the environment

Some settings can be given by variables of the environment.  They are applied in
a fixed order up to the first whose value is invalid.
-/

namespace LinkGraph

/-- The values of the variables that are set. -/
abbrev Environment := String → Option String

namespace Settings

/-- The port that a value of a variable denotes: decimal digits, perhaps after a
plus sign, and perhaps between blanks. -/
def portOfText? (value : String) : Option UInt16 :=
  let digits :=
    match Text.trim value with
    | '+' :: rest => rest
    | cs => cs
  if digits ≠ [] ∧ digits.all Char.isDigit ∧
    Decimal.ofDigits digits < 65536 then
    some (UInt16.ofNat (Decimal.ofDigits digits))
  else none

/-- The truth value that a value of a variable denotes, in letters of either
case and perhaps between blanks. -/
def flagOfText? (value : String) : Option Bool :=
  match String.ofList ((Text.trim value).map Char.toLower) with
  | "1" | "true" | "yes" | "on" => some true
  | "0" | "false" | "no" | "off" => some false
  | _ => none

/-- Changes the settings as a variable says, if it is set. -/
def applyVariable
    {α : Type} (env : Environment) (name : String) (read : String → Option α)
    (change : α → Settings → Settings) :
    ExceptT SettingsError (StateM Settings) Unit :=
  match env name with
  | none => return ()
  | some value =>
    match read value with
    | some setting => modify (change setting)
    | none => throw (.invalidVariable name value)

def variableNames : List String :=
  ["OCCISTORE_HOST", "OCCISTORE_PORT", "OCCISTORE_SCHEMA",
    "OCCISTORE_VALIDATE_CATEGORIES"]

/-- Applies the variables of the environment; those before an invalid one are
kept. -/
def applyEnvironment
    (env : Environment) : ExceptT SettingsError (StateM Settings) Unit := do
  applyVariable env "OCCISTORE_HOST" some fun host s => { s with host }
  applyVariable env "OCCISTORE_PORT" portOfText? fun port s => { s with port }
  applyVariable env "OCCISTORE_SCHEMA" some fun path s =>
    { s with schema := some path }
  applyVariable env "OCCISTORE_VALIDATE_CATEGORIES" flagOfText?
    fun validates s =>
    { s with validates }

/-- The settings with the variables of the environment applied, unless one of
them is invalid. -/
def withEnvironment
    (s : Settings) (env : Environment) : Except SettingsError Settings :=
  match (applyEnvironment env).run s with
  | (.ok (), settings) => .ok settings
  | (.error e, _) => .error e

end Settings

end LinkGraph
