import LinkGraph.Json.Tree
import LinkGraph.Word

/-!
# Typed reading of JSON

A reader turns a tree into a value of a type.  It walks the tree in the order of
the text and stops at the first problem: a text that is malformed there, or a
value of the wrong shape.  Containers may be nested to a limited depth, and a
container beyond it counts as malformed; what a reader skips is not limited.
-/

namespace LinkGraph.Json

/-- Why a text is refused. -/
inductive Refusal where
  | malformed
  | misfit
  deriving Repr, DecidableEq

/-- A reader is given the number of containers that may still be opened. -/
abbrev Reader (α : Type) := Nat → Tree → Except Refusal α

/-- How many containers may be open at a time. -/
def nestingLimit : Nat := 127

/-- The refusal of a value of the wrong type.  A value that cannot be read at
all is malformed. -/
def refusalOf : Tree → Refusal
  | .broken | .number none | .string none => .malformed
  | _ => .misfit

namespace Reader

variable {α : Type}

def text : Reader String
  | _, .string (some s) => .ok s
  | _, tree => .error (refusalOf tree)

/-- Reads an integer that fits.  A double is no integer. -/
def integer (fits : Int → Bool) : Reader Int
  | _, .number (some (.integer n)) => if fits n then .ok n else .error .misfit
  | _, tree => .error (refusalOf tree)

def natural64 : Reader Nat := fun depth tree =>
  Int.toNat <$> integer (Word.isNatural 64) depth tree

def integer64 : Reader Int :=
  integer (Word.isSigned 64)

/-- Reads null as nothing. -/
def optional (read : Reader α) : Reader (Option α)
  | _, .null => .ok none
  | depth, tree => some <$> read depth tree

/-- Reads the contents of a container, if one more may be opened. -/
def nested
    {β : Type} (contents : Nat → Except Refusal β) : Nat → Except Refusal β
  | 0 => .error .malformed
  | depth + 1 => contents depth

def list (read : Reader α) : Reader (List α)
  | depth, .array items => nested (fun depth => items.mapM (read depth)) depth
  | _, tree => .error (refusalOf tree)

def key : Option String → Except Refusal String
  | some k => .ok k
  | none => .error .malformed

def entries (read : Reader α) : Reader (List (String × α))
  | depth, .object members =>
    nested (fun depth => members.mapM fun (key?, tree) => do
      let k ← key key?
      let value ← read depth tree
      return (k, value)) depth
  | _, tree => .error (refusalOf tree)

mutual

def any : Reader Json
  | _, .null => .ok .null
  | _, .bool b => .ok (.bool b)
  | _, .number (some n) => .ok (.number n)
  | _, .string (some s) => .ok (.string s)
  | 0, .array _ | 0, .object _ => .error .malformed
  | depth + 1, .array items => .array <$> anyItems depth items
  | depth + 1, .object members => .object <$> anyMembers depth members
  | _, .number none | _, .string none | _, .broken => .error .malformed

def anyItems (depth : Nat) : List Tree → Except Refusal (List Json)
  | [] => .ok []
  | item :: rest => do
    let value ← any depth item
    let values ← anyItems depth rest
    return value :: values

def anyMembers
    (depth : Nat) :
    List (Option String × Tree) → Except Refusal (List (String × Json))
  | [] => .ok []
  | (key?, tree) :: rest => do
    let k ← key key?
    let value ← any depth tree
    let values ← anyMembers depth rest
    return (k, value) :: values

end

end Reader

variable {α : Type}

def readTokens
    (reader : Reader α) (tokens : List Token) : Except Refusal α := do
  let doc := document tokens
  let value ← reader nestingLimit doc.root
  if doc.trailing then .error .malformed else return value

def read (reader : Reader α) (text : String) : Except Refusal α :=
  readTokens reader (tokens text)

/-- Reads the text of which bytes are given.  Where they are no text, the text
is malformed, but a string that is skipped may hold any bytes. -/
def readBytes (reader : Reader α) (bs : List UInt8) : Except Refusal α :=
  readTokens reader (scan (Text.scalars bs))

end LinkGraph.Json
