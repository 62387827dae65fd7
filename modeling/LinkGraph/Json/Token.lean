import LinkGraph.Decimal.Numeral
import LinkGraph.Double.Nearest
import LinkGraph.Json.Basic
import LinkGraph.Text.Hex
import LinkGraph.Text.Utf8
import LinkGraph.Word

/-!
# JSON tokens

A machine reads the text one character at a time and writes tokens.  Where the
text stops being JSON it writes one stray token and reads no further.  A number
beyond the range of doubles and a string that holds half of a surrogate pair, or
bytes that are no characters, are tokens without a value: they are passed over,
and only a reader that wants their value has to refuse them.
-/

namespace LinkGraph.Json

/-- A lexical element of a JSON text. -/
inductive Token where
  | openArray
  | closeArray
  | openObject
  | closeObject
  | comma
  | colon
  | null
  | bool (b : Bool)
  | number (n? : Option JsonNumber)
  | string (s? : Option String)
  | stray
  deriving Repr, DecidableEq

/-- What stands for one character in a string: the character itself, a UTF-16
code unit that is given by its number, or bytes that are no character. -/
inductive Piece where
  | char (c : Char)
  | unit (n : Nat)
  | illFormed
  deriving Repr, DecidableEq

/-- The characters of a string, unless a surrogate stands without its partner or
bytes are none. -/
def joinPieces : List Piece → Option (List Char)
  | [] => some []
  | .illFormed :: _ => none
  | .char c :: rest => (joinPieces rest).map (c :: ·)
  | .unit high :: .unit low :: rest =>
    if 0xD800 ≤ high ∧ high < 0xDC00 then
      if 0xDC00 ≤ low ∧ low < 0xE000 then
        (joinPieces rest).map
          (Char.ofNat (0x10000 + (high - 0xD800) * 0x400 + (low - 0xDC00)) :: ·)
      else none
    else if 0xDC00 ≤ high ∧ high < 0xE000 then none
    else (joinPieces (.unit low :: rest)).map (Char.ofNat high :: ·)
  | .unit n :: rest =>
    if 0xD800 ≤ n ∧ n < 0xE000 then none
    else (joinPieces rest).map (Char.ofNat n :: ·)

/-- The character that a one-letter escape stands for. -/
def escape? : Char → Option Char
  | '"' => some '"'
  | '\\' => some '\\'
  | '/' => some '/'
  | 'b' => some '\x08'
  | 'f' => some '\x0c'
  | 'n' => some '\n'
  | 'r' => some '\r'
  | 't' => some '\t'
  | _ => none

/-- The value of a numeral.  Digits alone are an integer if it fits 64 bits;
minus zero and all other numerals are doubles. -/
def numberOf? (x : Decimal.Numeral) : Option JsonNumber :=
  let n := x.toInt
  if x.isWhole ∧ (Word.isNatural 64 n ∨ Word.isSigned 64 n) ∧
    ¬ (x.negative ∧ n = 0) then
    some (.integer n)
  else (Double.ofNumeral? x).map .double

/-- The tokens of a run of characters without blanks, quotes and punctuation: a
literal name or a number, and a stray token if anything is left of the run. -/
def wordTokens (run : List Char) : List Token :=
  let named (token : Token) (rest : List Char) :=
    if rest.isEmpty then [token] else [token, .stray]
  match run with
  | 'n' :: 'u' :: 'l' :: 'l' :: rest => named .null rest
  | 't' :: 'r' :: 'u' :: 'e' :: rest => named (.bool true) rest
  | 'f' :: 'a' :: 'l' :: 's' :: 'e' :: rest => named (.bool false) rest
  | run =>
    match Decimal.Numeral.scan run with
    | some (x, rest) => named (.number (numberOf? x)) rest
    | none => [.stray]

/-- Where the machine stands.  What has been read of a string or a run is kept
in reverse. -/
inductive Lexing where
  | between
  | inString (pieces : List Piece)
  | inEscape (pieces : List Piece)
  | inUnit (pieces : List Piece) (owed : Nat) (value : Nat)
  | inWord (run : List Char)
  | halted
  deriving Repr

namespace Lexing

/-- A character outside strings, with the tokens so far, latest first. -/
def plain (c : Char) (tokens : List Token) : Lexing × List Token :=
  match c with
  | ' ' | '\n' | '\t' | '\r' => (between, tokens)
  | '[' => (between, .openArray :: tokens)
  | ']' => (between, .closeArray :: tokens)
  | '{' => (between, .openObject :: tokens)
  | '}' => (between, .closeObject :: tokens)
  | ',' => (between, .comma :: tokens)
  | ':' => (between, .colon :: tokens)
  | '"' => (inString [], tokens)
  | c => (inWord [c], tokens)

/-- The tokens after a run has ended, latest first, and whether the machine goes
on. -/
def endWord (run : List Char) (tokens : List Token) : Bool × List Token :=
  let new := wordTokens run.reverse
  (!new.contains .stray, new.reverse ++ tokens)

/-- A run ends at blanks, quotes and punctuation. -/
def endsWord (c : Char) : Bool :=
  c ∈ [' ', '\n', '\t', '\r', '[', ']', '{', '}', ',', ':', '"']

/-- One character, with the tokens so far, latest first. -/
def step : Lexing → List Token → Char → Lexing × List Token
  | between, tokens, c => plain c tokens
  | inWord run, tokens, c =>
    if endsWord c then
      match endWord run tokens with
      | (true, tokens) => plain c tokens
      | (false, tokens) => (halted, tokens)
    else (inWord (c :: run), tokens)
  | inString pieces, tokens, c =>
    if c = '"' then
      (between, .string ((joinPieces pieces.reverse).map String.ofList) :: tokens)
    else if c = '\\' then (inEscape pieces, tokens)
    else if c.toNat < 0x20 then (halted, .stray :: tokens)
    else (inString (.char c :: pieces), tokens)
  | inEscape pieces, tokens, c =>
    if c = 'u' then (inUnit pieces 4 0, tokens)
    else
      match escape? c with
      | some e => (inString (.char e :: pieces), tokens)
      | none => (halted, .stray :: tokens)
  | inUnit pieces owed value, tokens, c =>
    match Text.hexValue? c with
    | some digit =>
      let value := value * 16 + digit
      if owed ≤ 1 then (inString (.unit value :: pieces), tokens)
      else (inUnit pieces (owed - 1) value, tokens)
    | none => (halted, .stray :: tokens)
  | halted, tokens, _ => (halted, tokens)

/-- One character, or bytes that are none.  Outside strings these are as little
JSON as U+FFFD. -/
def advance : Lexing → List Token → Option Char → Lexing × List Token
  | state, tokens, some c => state.step tokens c
  | inString pieces, tokens, none => (inString (.illFormed :: pieces), tokens)
  | state, tokens, none => state.step tokens Text.replacement

/-- The tokens when the text has ended, latest first. -/
def finish : Lexing → List Token → List Token
  | between, tokens | halted, tokens => tokens
  | inWord run, tokens => (endWord run tokens).2
  | inString _, tokens | inEscape _, tokens | inUnit .., tokens =>
    .stray :: tokens

end Lexing

/-- The tokens of characters among which bytes may stand that are none. -/
def scan (scalars : List (Option Char)) : List Token :=
  let (state, tokens) :=
    scalars.foldl (fun (state, tokens) c? => state.advance tokens c?)
      (Lexing.between, [])
  (state.finish tokens).reverse

def tokens (text : String) : List Token :=
  scan (text.toList.map some)

end LinkGraph.Json
