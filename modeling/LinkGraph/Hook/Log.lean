import LinkGraph.Hook.Basic
import LinkGraph.Text.Quoted

/-!
# Log records

The log that a journal gives rise to: one record for each call of a logging
handler, and a warning for each failed call.
-/

namespace LinkGraph

/-- A log record with its named fields. -/
structure LogRecord where
  level : String
  message : String
  fields : List (String × String)
  deriving Repr, DecidableEq

namespace LogRecord

/-- The end of a link as a log field. -/
def endpointText : Option EntityId → String
  | some id => "Some(EntityId(" ++ Text.quoted id ++ "))"
  | none => "None"

def ofCall (label : String) (point : HookPoint) (e : Entity) : LogRecord :=
  let (message, fields) : String × List (String × String) :=
    match point with
    | .created =>
      ("post create", [("kind", e.kind), ("source", endpointText e.source?),
        ("target", endpointText e.target?)])
    | .updated => ("post update", [("serial", toString e.serial)])
    | .deleting => ("pre delete", [])
    | .mixinAdded mixin => ("mixin added", [("mixin", mixin)])
    | .mixinRemoved mixin => ("mixin removed", [("mixin", mixin)])
    | .action name attributes =>
      ("execute action",
        [("action", name), ("attributes", toString attributes.size)])
  ⟨"INFO", message, ("handler", label) :: ("entity", e.id) :: fields⟩

def ofEntry? {σ : Type} : JournalEntry σ → Option LogRecord
  | .called _ (.logging label) point e => some (ofCall label point e)
  | .called .. => none
  | .failed point id error =>
    some ⟨"WARN", s!"action hook failed: {error.message}",
      [("entity", id), ("point", point.callback)]⟩

end LogRecord

def Journal.logs {σ : Type} (journal : Journal σ) : List LogRecord :=
  journal.filterMap LogRecord.ofEntry?

/-- The recorded calls of a journal: the label of the handler, the point, and
the entity shown. -/
def Journal.events
    {σ : Type} (journal : Journal σ) : List (String × HookPoint × Entity) :=
  journal.filterMap fun
    | .called _ (.recording label) point e => some (label, point, e)
    | _ => none

end LinkGraph
