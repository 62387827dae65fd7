import LinkGraph.Double.Basic

/-!
# JSON values

Integers and doubles are told apart, and the members of an object keep their
order.
-/

namespace LinkGraph

/-- A JSON number: an integer as written, or a double. -/
inductive JsonNumber where
  | integer (n : Int)
  | double (x : Double)
  deriving Repr, DecidableEq

/-- A JSON value. -/
inductive Json where
  | null
  | bool (b : Bool)
  | number (n : JsonNumber)
  | string (s : String)
  | array (items : List Json)
  | object (members : List (String × Json))
  deriving Repr, Inhabited

namespace Json

def ofNat (n : Nat) : Json :=
  .number (.integer n)

/-- A text, or null when there is none. -/
def ofText? (s? : Option String) : Json :=
  match s? with
  | some s => .string s
  | none => .null

def ofTexts (texts : List String) : Json :=
  .array (texts.map .string)

/-- The member of an object with the given name; of several the last counts. -/
def member? (name : String) : Json → Option Json
  | .object members => (members.reverse.find? fun m => m.1 = name).map Prod.snd
  | _ => none

end Json

end LinkGraph
