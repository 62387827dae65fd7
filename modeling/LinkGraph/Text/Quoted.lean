import LinkGraph.Text.Escaped
import LinkGraph.Text.Hex

/-!
# Quoted text

A text between double quotes, as messages and log fields show it.  The quote,
the backslash and the common controls have short escapes; other characters that
cannot be shown stand as their number in braces.
-/

namespace LinkGraph.Text

def quotedChar (c : Char) : List Char :=
  match c with
  | '"' => ['\\', '"']
  | '\\' => ['\\', '\\']
  | '\n' => ['\\', 'n']
  | '\r' => ['\\', 'r']
  | '\t' => ['\\', 't']
  | '\x00' => ['\\', '0']
  | c =>
    if isEscaped c then
      ['\\', 'u', '\x7b'] ++ Nat.toDigits 16 c.toNat ++ ['\x7d'] else [c]

/-- A text between double quotes, escaped. -/
def quoted (s : String) : String :=
  String.ofList ('"' :: s.toList.flatMap quotedChar ++ ['"'])

end LinkGraph.Text
