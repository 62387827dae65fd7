import LinkGraph.Json.Token

/-!
# JSON trees

The tree of a text up to the first point where it stops being JSON.  That point
is a *broken* leaf, always the last leaf of the tree, so a reader that walks the
tree in order meets it exactly when it would meet the fault in the text.  A
document also records whether anything follows its root.
-/

namespace LinkGraph.Json

/-- A value as it is read.  The key of a member is absent where it has no value
or is missing. -/
inductive Tree where
  | null
  | bool (b : Bool)
  | number (n? : Option JsonNumber)
  | string (s? : Option String)
  | array (items : List Tree)
  | object (members : List (Option String × Tree))
  | broken
  deriving Repr

/-- A whole text: its root, and whether the text goes on after it. -/
structure Document where
  root : Tree
  trailing : Bool
  deriving Repr

/-- An open container with what it holds so far, latest first.  `key` belongs to
the member that is being read. -/
inductive Frame where
  | array (items : List Tree)
  | object (members : List (Option String × Tree)) (key : Option String)

/-- A container with one more value. -/
def Frame.add (value : Tree) : Frame → Frame
  | array items => array (value :: items)
  | object members key => object ((key, value) :: members) none

def Frame.tree : Frame → Tree
  | array items => .array items.reverse
  | object members _ => .object members.reverse

/-- What the next token has to be. -/
inductive Expected where
  | value
  | firstItem
  | firstKey
  | key
  | colon
  | separator
  deriving DecidableEq

/-- The tree when a value ends inside open containers and the text breaks off
there. -/
def sealTree (value : Tree) (stack : List Frame) : Tree :=
  stack.foldl (fun value frame => (frame.add value).tree) value

/-- What a token leads to: further tokens, the end of the root, or a fault. -/
inductive Step where
  | next (expected : Expected) (stack : List Frame)
  | done (root : Tree)
  | fault

/-- A whole value goes into the innermost open container. -/
def deliver (value : Tree) : List Frame → Step
  | [] => .done value
  | frame :: stack => .next .separator (frame.add value :: stack)

def beginValue (stack : List Frame) : Token → Step
  | .null => deliver .null stack
  | .bool b => deliver (.bool b) stack
  | .number n? => deliver (.number n?) stack
  | .string s? => deliver (.string s?) stack
  | .openArray => .next .firstItem (.array [] :: stack)
  | .openObject => .next .firstKey (.object [] none :: stack)
  | _ => .fault

/-- One token inside the open containers of the stack, innermost first. -/
def step (expected : Expected) (token : Token) (stack : List Frame) : Step :=
  match expected, token, stack with
  | .value, token, stack => beginValue stack token
  | .firstItem, .closeArray, frame :: stack => deliver frame.tree stack
  | .firstItem, token, stack => beginValue stack token
  | .firstKey, .closeObject, frame :: stack => deliver frame.tree stack
  | .firstKey, .string key, .object members _ :: stack
  | .key, .string key, .object members _ :: stack =>
    .next .colon (.object members key :: stack)
  | .colon, .colon, stack => .next .value stack
  | .separator, .comma, .array items :: stack =>
    .next .value (.array items :: stack)
  | .separator, .comma, .object members _ :: stack =>
    .next .key (.object members none :: stack)
  | .separator, .closeArray, .array items :: stack =>
    deliver (Frame.array items).tree stack
  | .separator, .closeObject, .object members key :: stack =>
    deliver (Frame.object members key).tree stack
  | _, _, _ => .fault

def build (expected : Expected) (stack : List Frame) : List Token → Document
  | [] => ⟨sealTree .broken stack, false⟩
  | token :: rest =>
    match step expected token stack with
    | .next expected stack => build expected stack rest
    | .done root => ⟨root, !rest.isEmpty⟩
    | .fault => ⟨sealTree .broken stack, false⟩

def document (tokens : List Token) : Document :=
  build .value [] tokens

mutual

/-- No part of the tree is broken.  Only its last leaf can be. -/
def Tree.intact : Tree → Bool
  | .broken => false
  | .array items => lastIntact items
  | .object members => lastMemberIntact members
  | _ => true

/-- The last of a list of trees is intact. -/
def lastIntact : List Tree → Bool
  | [] => true
  | [item] => item.intact
  | _ :: rest => lastIntact rest

/-- The value of the last of a list of members is intact. -/
def lastMemberIntact : List (Option String × Tree) → Bool
  | [] => true
  | [(_, value)] => value.intact
  | _ :: rest => lastMemberIntact rest

end

end LinkGraph.Json
