import LinkGraph.Json.Reader

/-!
# Records in JSON

A record is a list of named fields, each with a reader and perhaps a default.
It is written as an object, or as an array with the values in the order of the
fields.  An object may hold other members, which are skipped, but a field only
once.  An array may stop before the end if the remaining fields have defaults,
and may not go on after it.
-/

namespace LinkGraph.Json

/-- A field of a record. -/
structure RecordField (α : Type) where
  name : String
  read : Reader α
  default : Option α := none

/-- The fields of a record in their order, with the types of their values. -/
inductive Fields : List Type → Type 1 where
  | nil : Fields []
  | cons {α : Type} {types : List Type} (field : RecordField α)
    (rest : Fields types) :
    Fields (α :: types)

/-- A value of each of the given types. -/
def Row : List Type → Type
  | [] => Unit
  | α :: types => α × Row types

/-- A value, or none yet, of each of the given types. -/
def Slots : List Type → Type
  | [] => Unit
  | α :: types => Option α × Slots types

namespace Fields

/-- No field has been read. -/
def empty : {types : List Type} → Fields types → Slots types
  | _, nil => ()
  | _, cons _ rest => (none, rest.empty)

/-- Reads one member into its slot; the result is none if no field has its name.
A second member of one name is refused before its value is looked at. -/
def fill
    (depth : Nat) (key : String) (tree : Tree) :
    {types : List Type} → Fields types →
    Slots types → Except Refusal (Option (Slots types))
  | _, nil, () => .ok none
  | _, cons field rest, (slot, slots) =>
    if field.name = key then
      if slot.isSome then .error .misfit
      else (fun value => some (some value, slots)) <$> field.read depth tree
    else Option.map (slot, ·) <$> rest.fill depth key tree slots

/-- Reads members in order; members that are no field are skipped. -/
def fillAll
    (depth : Nat) {types : List Type} (fields : Fields types)
    (slots : Slots types) :
    List (Option String × Tree) → Except Refusal (Slots types)
  | [] => .ok slots
  | (key?, tree) :: rest => do
    let key ← Reader.key key?
    match ← fields.fill depth key tree slots with
    | some slots => fields.fillAll depth slots rest
    | none =>
      if tree.intact then fields.fillAll depth slots rest else .error .malformed

/-- The values of all fields, with the defaults of those that were not read. -/
def finish :
    {types : List Type} → Fields types → Slots types →
      Except Refusal (Row types)
  | _, nil, () => .ok ()
  | _, cons field rest, (slot, slots) =>
    match slot.or field.default with
    | some value => Prod.mk value <$> rest.finish slots
    | none => .error .misfit

def positional (depth : Nat) : {types : List Type} → Fields types → List Tree →
    Except Refusal (Row types)
  | _, nil, [] => .ok ()
  | _, nil, _ :: _ => .error .malformed
  | _, cons field rest, [] =>
    match field.default with
    | some value => Prod.mk value <$> rest.positional depth []
    | none => .error .misfit
  | _, cons field rest, item :: items => do
    let value ← field.read depth item
    Prod.mk value <$> rest.positional depth items

def row {types : List Type} (fields : Fields types) : Reader (Row types)
  | depth, .object members =>
    Reader.nested (fun depth => do
      fields.finish (← fields.fillAll depth fields.empty members)) depth
  | depth, .array items =>
    Reader.nested (fun depth => fields.positional depth items) depth
  | _, tree => .error (refusalOf tree)

def record
    {types : List Type} {α : Type} (fields : Fields types)
    (make : Row types → α) : Reader α := fun depth tree =>
  make <$> fields.row depth tree

end Fields

end LinkGraph.Json
