import LinkGraph.Text.Hex

/-!
# TOML tokens

A machine reads the text of a settings file one character at a time and writes
tokens.  Lines end with a line feed, alone or after a carriage return, and line
ends are tokens, because they end statements.  Where the text stops being TOML
the machine writes one stray token and reads no further.
-/

namespace LinkGraph.Toml

/-- A lexical element.  A word is a run of letters, digits and the signs of
names and numbers. -/
inductive Token where
  | word (cs : List Char)
  | text (s : String) (multiline : Bool)
  | equals
  | dot
  | comma
  | openBracket
  | closeBracket
  | openBrace
  | closeBrace
  | lineEnd
  | stray
  deriving Repr, DecidableEq

/-- A character, or a line end, which may include a carriage return. -/
inductive Sign where
  | char (c : Char)
  | lineEnd (carriage : Bool)

/-- The signs of a text, none if a carriage return stands alone. -/
def signs : List Char → Option (List Sign)
  | [] => some []
  | '\r' :: '\n' :: rest => (signs rest).map (.lineEnd true :: ·)
  | '\r' :: _ => none
  | '\n' :: rest => (signs rest).map (.lineEnd false :: ·)
  | c :: rest => (signs rest).map (.char c :: ·)

/-- The two kinds of strings: with escapes between double quotes, or without
between single ones. -/
inductive Quote where
  | basic
  | literal
  deriving DecidableEq

def Quote.mark : Quote → Char
  | basic => '"'
  | literal => '\x27'

/-- Where the machine stands.  What has been read of a string or a word is kept
in reverse. -/
inductive Lexing where
  /-- Outside strings, words and comments. -/
  | between
  | inComment
  | inWord (cs : List Char)
  /-- After one or two quotation marks that may open a string of several
  lines. -/
  | opened (quote : Quote) (marks : Nat)
  | inLine (quote : Quote) (cs : List Char)
  /-- At the start of a string of several lines, where a line end does not
  count. -/
  | startLines (quote : Quote)
  /-- In a string of several lines, after a number of quotation marks that may
  close it. -/
  | inLines (quote : Quote) (cs : List Char) (marks : Nat)
  | inEscape (cs : List Char) (multiline : Bool)
  /-- After a backslash and blanks, at the end of a line that is to be joined
  with the next. -/
  | joining (cs : List Char)
  /-- At the start of a joined line, where blanks and line ends do not count. -/
  | joined (cs : List Char)
  | inUnit (cs : List Char) (multiline : Bool) (owed value : Nat)
  | halted

def isWordChar (c : Char) : Bool :=
  c.isAlphanum || c = '_' || c = '-' || c = '+'

/-- A character that may stand for itself in strings and comments. -/
def isContent (c : Char) : Bool :=
  c = '\t' || (0x20 ≤ c.toNat && c ≠ '\x7f')

def escape? : Char → Option Char
  | 'b' => some '\x08'
  | 't' => some '\t'
  | 'n' => some '\n'
  | 'f' => some '\x0c'
  | 'r' => some '\r'
  | 'e' => some '\x1b'
  | '"' => some '"'
  | '\\' => some '\\'
  | _ => none

/-- How many digits follow the letter of a numbered escape. -/
def unitDigits? : Char → Option Nat
  | 'x' => some 2
  | 'u' => some 4
  | 'U' => some 8
  | _ => none

namespace Lexing

/-- A sign outside strings, words and comments, with the tokens so far, latest
first. -/
def plain (sign : Sign) (tokens : List Token) : Lexing × List Token :=
  match sign with
  | .lineEnd _ => (between, .lineEnd :: tokens)
  | .char c =>
    match c with
    | ' ' | '\t' => (between, tokens)
    | '#' => (inComment, tokens)
    | '=' => (between, .equals :: tokens)
    | '.' => (between, .dot :: tokens)
    | ',' => (between, .comma :: tokens)
    | '[' => (between, .openBracket :: tokens)
    | ']' => (between, .closeBracket :: tokens)
    | '{' => (between, .openBrace :: tokens)
    | '}' => (between, .closeBrace :: tokens)
    | '"' => (opened .basic 1, tokens)
    | '\x27' => (opened .literal 1, tokens)
    | c =>
      if isWordChar c then (inWord [c], tokens) else (halted, .stray :: tokens)

/-- The token of a string read in reverse. -/
def textToken (cs : List Char) (multiline : Bool) : Token :=
  .text (String.ofList cs.reverse) multiline

/-- The state inside a string, after the given characters. -/
def within (cs : List Char) (multiline : Bool) : Lexing :=
  if multiline then inLines .basic cs 0 else inLine .basic cs

/-- A sign of the content of a string of several lines, or an escape.  Line ends
stay as they are written. -/
def lines (quote : Quote) (cs : List Char) (sign : Sign) (tokens : List Token) :
    Lexing × List Token :=
  match sign with
  | .lineEnd carriage =>
    (inLines quote ('\n' :: if carriage then '\r' :: cs else cs) 0, tokens)
  | .char c =>
    if c = quote.mark then (inLines quote cs 1, tokens)
    else if c = '\\' ∧ quote = .basic then (inEscape cs true, tokens)
    else if isContent c then (inLines quote (c :: cs) 0, tokens)
    else (halted, .stray :: tokens)

/-- A sign of the content of a string on one line, or an escape. -/
def line (quote : Quote) (cs : List Char) (sign : Sign) (tokens : List Token) :
    Lexing × List Token :=
  match sign with
  | .lineEnd _ => (halted, .stray :: tokens)
  | .char c =>
    if c = quote.mark then (between, textToken cs false :: tokens)
    else if c = '\\' ∧ quote = .basic then (inEscape cs false, tokens)
    else if isContent c then (inLine quote (c :: cs), tokens)
    else (halted, .stray :: tokens)

/-- A sign after a backslash. -/
def escape
    (cs : List Char) (multiline : Bool) (sign : Sign) (tokens : List Token) :
    Lexing × List Token :=
  match sign with
  | .lineEnd _ =>
    if multiline then (joined cs, tokens) else (halted, .stray :: tokens)
  | .char c =>
    match escape? c, unitDigits? c with
    | some e, _ => (within (e :: cs) multiline, tokens)
    | none, some digits => (inUnit cs multiline digits 0, tokens)
    | none, none =>
      if multiline ∧ (c = ' ' ∨ c = '\t') then (joining cs, tokens)
      else (halted, .stray :: tokens)

/-- One sign, with the tokens so far, latest first. -/
def step : Lexing → List Token → Sign → Lexing × List Token
  | between, tokens, sign => plain sign tokens
  | inComment, tokens, .lineEnd _ => (between, .lineEnd :: tokens)
  | inComment, tokens, .char c =>
    if isContent c then (inComment, tokens) else (halted, .stray :: tokens)
  | inWord cs, tokens, .char c =>
    if isWordChar c then (inWord (c :: cs), tokens)
    else plain (.char c) (.word cs.reverse :: tokens)
  | inWord cs, tokens, sign => plain sign (.word cs.reverse :: tokens)
  | opened quote marks, tokens, sign =>
    match sign with
    | .char c =>
      if c = quote.mark then
        if marks = 1 then (opened quote 2, tokens)
        else (startLines quote, tokens)
      else if marks = 1 then line quote [] sign tokens
      else plain sign (textToken [] false :: tokens)
    | .lineEnd _ =>
      if marks = 1 then (halted, .stray :: tokens)
      else plain sign (textToken [] false :: tokens)
  | inLine quote cs, tokens, sign => line quote cs sign tokens
  | startLines quote, tokens, .lineEnd _ => (inLines quote [] 0, tokens)
  | startLines quote, tokens, sign => lines quote [] sign tokens
  | inLines quote cs marks, tokens, sign =>
    let quoted (n : Nat) : List Char := List.replicate n quote.mark ++ cs
    let isMark : Bool :=
      match sign with
      | .char c => c == quote.mark
      | .lineEnd _ => false
    if isMark && marks < 4 then (inLines quote cs (marks + 1), tokens)
    else if isMark then (between, textToken (quoted 2) true :: tokens)
    else if 3 ≤ marks then
      plain sign (textToken (quoted (marks - 3)) true :: tokens)
    else lines quote (quoted marks) sign tokens
  | inEscape cs multiline, tokens, sign => escape cs multiline sign tokens
  | joining cs, tokens, .lineEnd _ => (joined cs, tokens)
  | joining cs, tokens, .char c =>
    if c = ' ' ∨ c = '\t' then (joining cs, tokens)
    else (halted, .stray :: tokens)
  | joined cs, tokens, .lineEnd _ => (joined cs, tokens)
  | joined cs, tokens, .char c =>
    if c = ' ' ∨ c = '\t' then (joined cs, tokens)
    else lines .basic cs (.char c) tokens
  | inUnit cs multiline owed value, tokens, sign =>
    match sign with
    | .lineEnd _ => (halted, .stray :: tokens)
    | .char c =>
      match Text.hexValue? c with
      | none => (halted, .stray :: tokens)
      | some digit =>
        let value := value * 16 + digit
        if 1 < owed then (inUnit cs multiline (owed - 1) value, tokens)
        else if value.isValidChar then
          (within (Char.ofNat value :: cs) multiline, tokens)
        else (halted, .stray :: tokens)
  | halted, tokens, _ => (halted, tokens)

/-- The tokens when the text has ended, latest first. -/
def finish : Lexing → List Token → List Token
  | between, tokens | inComment, tokens | halted, tokens => tokens
  | inWord cs, tokens => .word cs.reverse :: tokens
  | opened _ 2, tokens => textToken [] false :: tokens
  | inLines quote cs marks, tokens =>
    if 3 ≤ marks then
      textToken (List.replicate (marks - 3) quote.mark ++ cs) true :: tokens
    else .stray :: tokens
  | _, tokens => .stray :: tokens

end Lexing

/-- The text without a byte order mark at its front. -/
def dropMark : List Char → List Char
  | '\uFEFF' :: rest => rest
  | cs => cs

def tokens (text : String) : List Token :=
  match signs (dropMark text.toList) with
  | none => [.stray]
  | some signs =>
    let (state, tokens) :=
      signs.foldl (fun (state, tokens) sign => state.step tokens sign)
        (Lexing.between, [])
    (state.finish tokens).reverse

end LinkGraph.Toml
