import LinkGraph.Double.Layout
import LinkGraph.Json.Basic
import LinkGraph.Text.Hex

/-!
# JSON text

Values are written on one line without spaces, or over several lines with two
spaces for each level.  Strings keep every character but the quote, the
backslash and the controls below the space.  A double that is not finite is
written as null.
-/

namespace LinkGraph.Json

def stringChar (c : Char) : List Char :=
  match c with
  | '"' => ['\\', '"']
  | '\\' => ['\\', '\\']
  | '\n' => ['\\', 'n']
  | '\r' => ['\\', 'r']
  | '\t' => ['\\', 't']
  | '\x08' => ['\\', 'b']
  | '\x0c' => ['\\', 'f']
  | c =>
    if c.toNat < 0x20 then
      ['\\', 'u', '0', '0', Text.hexDigit (c.toNat / 16),
        Text.hexDigit (c.toNat % 16)]
    else [c]

def stringText (s : String) : String :=
  String.ofList ('"' :: s.toList.flatMap stringChar ++ ['"'])

def numberText : JsonNumber → String
  | .integer n => toString n
  | .double x =>
    if x.isFinite then x.finiteText Double.interchangeLayout else "null"

mutual

/-- A value on one line without spaces. -/
def compact : Json → String
  | .null => "null"
  | .bool b => if b then "true" else "false"
  | .number n => numberText n
  | .string s => stringText s
  | .array items => "[" ++ ",".intercalate (compactItems items) ++ "]"
  | .object members =>
    "\x7b" ++ ",".intercalate (compactMembers members) ++ "\x7d"

def compactItems : List Json → List String
  | [] => []
  | item :: rest => compact item :: compactItems rest

def compactMembers : List (String × Json) → List String
  | [] => []
  | (key, value) :: rest =>
    (stringText key ++ ":" ++ compact value) :: compactMembers rest

end

/-- Lines between brackets, each indented by one level more than the brackets;
nothing stands between the brackets when there are no lines. -/
def block
    (indent : String) (opening closing : String) (lines : List String) :
    String :=
  if lines.isEmpty then opening ++ closing
  else
    let inner := lines.map fun line => indent ++ "  " ++ line
    opening ++ "\n" ++ ",\n".intercalate inner ++ "\n" ++ indent ++ closing

mutual

/-- A value over several lines, its first line not indented. -/
def prettyAt (indent : String) : Json → String
  | .null => "null"
  | .bool b => if b then "true" else "false"
  | .number n => numberText n
  | .string s => stringText s
  | .array items => block indent "[" "]" (prettyItems (indent ++ "  ") items)
  | .object members =>
    block indent "\x7b" "\x7d" (prettyMembers (indent ++ "  ") members)

def prettyItems (indent : String) : List Json → List String
  | [] => []
  | item :: rest => prettyAt indent item :: prettyItems indent rest

def prettyMembers (indent : String) : List (String × Json) → List String
  | [] => []
  | (key, value) :: rest =>
    (stringText key ++ ": " ++ prettyAt indent value) ::
      prettyMembers indent rest

end

def pretty (value : Json) : String :=
  prettyAt "" value

end LinkGraph.Json
