import LinkGraph.Toml.Table
import LinkGraph.Toml.Token

/-!
# TOML documents

A document is read from its tokens by a machine with a stack of open values.
Statements are table headers and assignments, each on lines of its own; between
braces and brackets lines may end anywhere but inside a key.  Only texts,
integers, booleans, arrays and tables are values here: no setting takes a
fraction or a date, and arrays of tables have no use, so these are refused.
-/

namespace LinkGraph.Toml

/-- The number that digits of a base denote; single underscores may stand
between digits.  The flag says that the last character was a digit. -/
def digitsFrom (base : Nat) : List Char → Nat → Bool → Option Nat
  | [], n, afterDigit => if afterDigit then some n else none
  | c :: cs, n, afterDigit =>
    if c = '_' ∧ afterDigit then digitsFrom base cs n false
    else
      match Text.hexValue? c with
      | some digit =>
        if digit < base then
          digitsFrom base cs (n * base + digit) true else none
      | none => none

def digits? (base : Nat) (cs : List Char) : Option Nat :=
  digitsFrom base cs 0 false

/-- A decimal number without a sign, which has no zero in front. -/
def decimal? : List Char → Option Nat
  | ['0'] => some 0
  | '0' :: _ => none
  | cs => digits? 10 cs

/-- An integer: decimal with or without a sign, or of another base without
one. -/
def integer? : List Char → Option Int
  | '0' :: 'x' :: cs => (digits? 16 cs).map Int.ofNat
  | '0' :: 'o' :: cs => (digits? 8 cs).map Int.ofNat
  | '0' :: 'b' :: cs => (digits? 2 cs).map Int.ofNat
  | '-' :: cs => (decimal? cs).map (-Int.ofNat ·)
  | '+' :: cs => (decimal? cs).map Int.ofNat
  | cs => (decimal? cs).map Int.ofNat

def wordValue? (cs : List Char) : Option Value :=
  if cs = "true".toList then some (.boolean true)
  else if cs = "false".toList then some (.boolean false)
  else (integer? cs).map .integer

/-- The part of a key that a token denotes: a word without a plus sign, or a
text on one line. -/
def keyPart? : Token → Option String
  | .word cs => if '+' ∈ cs then none else some (String.ofList cs)
  | .text s false => some s
  | _ => none

/-- What encloses the value that is being read: the assignment that it belongs
to, an array with its items so far, latest first, or a table between braces with
its members so far and the key that is being assigned. -/
inductive Enclosure where
  | assignment (key : List String)
  | array (items : List Value)
  | braces (members : Members) (key : List String)

/-- What the next token has to be.  The parts of a key are kept in reverse. -/
inductive Expected where
  /-- A header, a key or nothing on this line. -/
  | statement
  | headerPart (parts : List String)
  | headerDot (parts : List String)
  | keyPart (parts : List String)
  | keyDot (parts : List String)
  /-- The equals sign after a key, on a later line than the key. -/
  | equals (parts : List String)
  | value
  /-- A value or the end of the array. -/
  | item
  /-- A key or the end of the table between braces. -/
  | member
  /-- A comma or the end of what is open. -/
  | separator
  | lineEnd

/-- What has been read: the root table, the path of the table that assignments
go to, and the open values, innermost first. -/
structure Reading where
  root : Members := []
  header : List String := []
  stack : List Enclosure := []
  expected : Expected := .statement

namespace Reading

/-- Puts a whole value into what encloses it. -/
def give (r : Reading) (value : Value) : Option Reading :=
  match r.stack with
  | .assignment key :: _ => do
    let root ← r.root.changeAt (Members.assign value key) r.header
    return { r with root, stack := [], expected := .lineEnd }
  | .array items :: stack =>
    some { r with stack := .array (value :: items) :: stack,
                  expected := .separator }
  | .braces members key :: stack => do
    let members ← members.assign value key
    return { r with stack := .braces members [] :: stack, expected := .separator }
  | [] => none

def beginValue (r : Reading) : Token → Option Reading
  | .text s _ => r.give (.text s)
  | .word cs => do r.give (← wordValue? cs)
  | .openBracket =>
    some { r with stack := .array [] :: r.stack, expected := .item }
  | .openBrace =>
    some { r with stack := .braces [] [] :: r.stack, expected := .member }
  | _ => none

/-- Ends the innermost open value. -/
def close (r : Reading) (token : Token) : Option Reading :=
  match token, r.stack with
  | .closeBracket, .array items :: stack =>
    { r with stack }.give (.array items.reverse)
  | .closeBrace, .braces members _ :: stack =>
    { r with stack }.give (.table .braces members)
  | _, _ => none

/-- The innermost open value is a table between braces, where an assignment may
go over lines. -/
def inBraces (r : Reading) : Bool :=
  match r.stack with
  | .braces .. :: _ => true
  | _ => false

/-- A whole key of an assignment. -/
def beginAssignment (r : Reading) (key : List String) : Option Reading :=
  match r.stack with
  | [] => some { r with stack := [.assignment key], expected := .value }
  | .braces members _ :: stack =>
    some { r with stack := .braces members key :: stack, expected := .value }
  | _ => none

def part
    (r : Reading) (token : Token) (expected : String → Expected) :
    Option Reading :=
  (keyPart? token).map fun s => { r with expected := expected s }

def step (r : Reading) (token : Token) : Option Reading :=
  match r.expected, token with
  | .statement, .lineEnd => some r
  | .statement, .openBracket => some { r with expected := .headerPart [] }
  | .statement, token => r.part token fun s => .keyDot [s]
  | .headerPart parts, token => r.part token fun s => .headerDot (s :: parts)
  | .headerDot parts, .dot => some { r with expected := .headerPart parts }
  | .headerDot parts, .closeBracket => do
    let header := parts.reverse
    let root ← r.root.define header
    return { r with root, header, expected := .lineEnd }
  | .keyPart parts, token => r.part token fun s => .keyDot (s :: parts)
  | .keyDot parts, .dot => some { r with expected := .keyPart parts }
  | .keyDot parts, .equals | .equals parts, .equals =>
    r.beginAssignment parts.reverse
  | .keyDot parts, .lineEnd =>
    if r.inBraces then some { r with expected := .equals parts } else none
  | .equals _, .lineEnd => some r
  | .value, .lineEnd => if r.inBraces then some r else none
  | .value, token => r.beginValue token
  | .item, .lineEnd | .member, .lineEnd | .separator, .lineEnd => some r
  | .item, .closeBracket => r.close token
  | .item, token => r.beginValue token
  | .member, .closeBrace => r.close token
  | .member, token => r.part token fun s => .keyDot [s]
  | .separator, .comma =>
    match r.stack with
    | .array _ :: _ => some { r with expected := .item }
    | .braces .. :: _ => some { r with expected := .member }
    | _ => none
  | .separator, token => r.close token
  | .lineEnd, .lineEnd => some { r with expected := .statement }
  | _, _ => none

/-- The root table when all tokens have been read. -/
def finish? (r : Reading) : Option Members :=
  match r.expected with
  | .statement | .lineEnd => some r.root
  | _ => none

end Reading

def document? (text : String) : Option Members := do
  let reading ← (tokens text).foldlM Reading.step {}
  reading.finish?

end LinkGraph.Toml
