import LinkGraph.Session

/-!
# Arguments of the command line

A command line names a command and gives options, some of them for every command
and some for one.  Its words are read one after the other.  An option that
awaits its value is settled when the value has come and something else follows,
so the first fault in this order is the one that is reported; what stands after
the name of a command belongs to the command, and its faults are reported first.
-/

namespace LinkGraph

/-- What is to be done. -/
inductive Command where
  | server (host : Option String) (port : Option UInt16)
  | status
  | find (id : String)
  | load (id : String)
  | list (name : String)
  | delete (name : String)
  | exportTo (output : String)
  | importFrom (input : String)
  deriving Repr, DecidableEq

/-- A command line: the options of every command, and the command if there is
one. -/
structure Invocation where
  quiet : Bool := false
  json : Bool := false
  /-- The path of the settings file. -/
  config : Option String := none
  backend : Option Backend := none
  database : Option String := none
  command : Option Command := none
  deriving Repr, DecidableEq

/-- Why a command line is not carried out.  A request for help or for the
version is no fault. -/
inductive UsageError where
  | invalidValue
  | unknownArgument
  | invalidSubcommand
  | missingRequiredArgument
  | argumentConflict
  | tooManyValues
  | valueValidation
  | displayHelp
  | displayVersion
  deriving Repr, DecidableEq

namespace UsageError

def kind : UsageError → String
  | invalidValue => "InvalidValue"
  | unknownArgument => "UnknownArgument"
  | invalidSubcommand => "InvalidSubcommand"
  | missingRequiredArgument => "MissingRequiredArgument"
  | argumentConflict => "ArgumentConflict"
  | tooManyValues => "TooManyValues"
  | valueValidation => "ValueValidation"
  | displayHelp => "DisplayHelp"
  | displayVersion => "DisplayVersion"

def exitStatus : UsageError → Nat
  | displayHelp | displayVersion => 0
  | _ => 2

end UsageError

namespace CommandLine

inductive CommandName where
  | server
  | status
  | find
  | load
  | list
  | delete
  | exportTo
  | importFrom
  deriving Repr, DecidableEq

namespace CommandName

def word : CommandName → String
  | server => "server"
  | status => "status"
  | find => "find"
  | load => "load"
  | list => "list"
  | delete => "delete"
  | exportTo => "export"
  | importFrom => "import"

def all : List CommandName :=
  [server, status, find, load, list, delete, exportTo, importFrom]

def ofWord? (word : String) : Option CommandName :=
  all.find? (·.word = word)

/-- The command is followed by what it is about. -/
def takesArgument : CommandName → Bool
  | find | load | list | delete => true
  | server | status | exportTo | importFrom => false

end CommandName

/-- The options without a value. -/
inductive Switch where
  | quiet
  | json
  | help
  | version
  deriving Repr, DecidableEq

/-- The options with a value. -/
inductive Parameter where
  | config
  | backend
  | database
  | host
  | port
  | output
  | input
  deriving Repr, DecidableEq

/-- An option of either kind. -/
inductive Flag where
  | switch (s : Switch)
  | parameter (p : Parameter)
  deriving Repr, DecidableEq

/-- The option with a long name, before the name of a command (none) or after
it. -/
def longFlag? (level : Option CommandName) (name : String) : Option Flag :=
  match name, level with
  | "quiet", _ => some (.switch .quiet)
  | "json-mode", _ => some (.switch .json)
  | "help", _ => some (.switch .help)
  | "version", none => some (.switch .version)
  | "config", _ => some (.parameter .config)
  | "backend", _ => some (.parameter .backend)
  | "database", _ => some (.parameter .database)
  | "host", some .server => some (.parameter .host)
  | "port", some .server => some (.parameter .port)
  | "output", some .exportTo => some (.parameter .output)
  | "input", some .importFrom => some (.parameter .input)
  | _, _ => none

/-- The option with a one-letter name. -/
def shortFlag? (level : Option CommandName) (name : Char) : Option Flag :=
  match name, level with
  | 'q', _ => some (.switch .quiet)
  | 'h', _ => some (.switch .help)
  | 'V', none => some (.switch .version)
  | 'c', _ => some (.parameter .config)
  | 'B', _ => some (.parameter .backend)
  | 'D', _ => some (.parameter .database)
  | 'H', some .server => some (.parameter .host)
  | 'p', some .server => some (.parameter .port)
  | 'o', some .exportTo => some (.parameter .output)
  | 'i', some .importFrom => some (.parameter .input)
  | _, _ => none

/-- What has been given at one level. -/
structure Given where
  quiet : Bool := false
  json : Bool := false
  config : Option String := none
  backend : Option Backend := none
  database : Option String := none
  host : Option String := none
  port : Option UInt16 := none
  output : Option String := none
  input : Option String := none
  argument : Option String := none

/-- The path that a value is; no path is empty. -/
def path (value : String) : Except UsageError String :=
  if value.isEmpty then .error .invalidValue else .ok value

def backend (value : String) : Except UsageError Backend :=
  match Backend.ofWord? value with
  | some b => .ok b
  | none => .error .invalidValue

/-- The port that a value denotes: an integer in decimal digits, perhaps after a
sign. -/
def port (value : String) : Except UsageError UInt16 :=
  let (negative, digits) :=
    match value.toList with
    | '-' :: rest => (true, rest)
    | '+' :: rest => (false, rest)
    | cs => (false, cs)
  let n := Nat.ofDigitChars 10 digits 0
  if digits ≠ [] ∧ digits.all Char.isDigit ∧ n < 65536 ∧ (negative → n = 0) then
    .ok (UInt16.ofNat n)
  else .error .valueValidation

/-- The value of an option that may be given once. -/
def once {α : Type} (old : Option α) (value : Except UsageError α) :
    Except UsageError (Option α) :=
  if old.isSome then .error .argumentConflict else some <$> value

namespace Given

def give (g : Given) (value : String) : Parameter → Except UsageError Given
  | .config => do return { g with config := ← once g.config (path value) }
  | .backend => do
    return { g with backend := ← once g.backend (CommandLine.backend value) }
  | .database => do return { g with database := ← once g.database (path value) }
  | .host => do return { g with host := ← once g.host (.ok value) }
  | .port => do return { g with port := ← once g.port (CommandLine.port value) }
  | .output => do return { g with output := ← once g.output (path value) }
  | .input => do return { g with input := ← once g.input (path value) }

/-- Gives an option without a value. -/
def raise (g : Given) : Switch → Except UsageError Given
  | .quiet =>
    if g.quiet then .error .argumentConflict else .ok { g with quiet := true }
  | .json =>
    if g.json then .error .argumentConflict else .ok { g with json := true }
  | .help => .error .displayHelp
  | .version => .error .displayVersion

end Given

/-- How far the words of one level have been read. -/
structure Scan where
  given : Given := {}
  /-- The last option, until it is settled, with its value if that has come. -/
  pending : Option (Parameter × Option String) := none
  /-- After two dashes every word stands for itself. -/
  trailing : Bool := false

namespace Scan

/-- The next word may be the value of the last option. -/
def awaits (s : Scan) : Bool :=
  !s.trailing && s.pending.any (·.2.isNone)

def settle (s : Scan) : Except UsageError Scan :=
  match s.pending with
  | none => .ok s
  | some (_, none) => .error .invalidValue
  | some (p, some value) => do
    return { s with given := ← s.given.give value p, pending := none }

/-- Reads an option, with the value attached to it if there is one. -/
def option
    (s : Scan) (flag : Flag) (attached : Option String) :
    Except UsageError Scan :=
  match flag, attached with
  | .switch _, some _ => .error .tooManyValues
  | .switch x, none => do
    let s ← s.settle
    return { s with given := ← s.given.raise x }
  | .parameter p, none => do
    return { ← s.settle with pending := some (p, none) }
  | .parameter p, some value => do
    let s ← s.settle
    return { s with given := ← s.given.give value p }

/-- Reads a cluster of one-letter options.  What follows an option with a value
is the value, perhaps after an equals sign. -/
def cluster
    (level : Option CommandName) : List Char → Scan → Except UsageError Scan
  | [], s => .ok s
  | c :: rest, s =>
    match shortFlag? level c with
    | none => .error .unknownArgument
    | some (.switch x) => do cluster level rest (← s.option (.switch x) none)
    | some (.parameter p) =>
      match rest with
      | [] => s.option (.parameter p) none
      | '=' :: value | value =>
        s.option (.parameter p) (some (String.ofList value))

/-- Reads a long option, its value after an equals sign. -/
def long
    (level : Option CommandName) (cs : List Char) (s : Scan) :
    Except UsageError Scan :=
  let (name, rest) := cs.span (· ≠ '=')
  match longFlag? level (String.ofList name) with
  | none => .error .unknownArgument
  | some flag =>
    match rest with
    | [] => s.option flag none
    | _ :: value => s.option flag (some (String.ofList value))

def positional (level : Option CommandName) (word : String) (s : Scan) :
    Except UsageError Scan :=
  match level with
  | none =>
    if s.trailing ∧ (word = "help" ∨ (CommandName.ofWord? word).isSome) then
      .error .unknownArgument
    else .error .invalidSubcommand
  | some name =>
    if name.takesArgument ∧ s.given.argument.isNone then do
      let s ← s.settle
      return { s with given := { s.given with argument := some word } }
    else .error .unknownArgument

/-- Reads a word that names no command. -/
def word
    (level : Option CommandName) (word : String) (s : Scan) :
    Except UsageError Scan :=
  if s.trailing then s.positional level word
  else
    match word.toList with
    | ['-', '-'] => .ok { s with trailing := true }
    | '-' :: '-' :: cs => s.long level cs
    | '-' :: c :: cs => s.cluster level (c :: cs)
    | _ =>
      match s.pending with
      | some (p, none) => .ok { s with pending := some (p, some word) }
      | _ => s.positional level word

end Scan

/-- The answer to the word `help` and what follows it: one more word may name a
command. -/
def helpAnswer : List String → UsageError
  | [] => .displayHelp
  | [word] =>
    if word = "help" ∨ (CommandName.ofWord? word).isSome then .displayHelp
    else .invalidSubcommand
  | _ => .invalidSubcommand

def readWords
    (name : CommandName) (words : List String) : Except UsageError Given := do
  let s ← words.foldlM (fun (s : Scan) word => s.word (some name) word) {}
  return (← s.settle).given

/-- The value of an option or argument that has to be there. -/
def required {α : Type} (value : Option α) : Except UsageError α :=
  match value with
  | some a => .ok a
  | none => .error .missingRequiredArgument

def commandOf (name : CommandName) (g : Given) : Except UsageError Command :=
  match name with
  | .server => .ok (.server g.host g.port)
  | .status => .ok .status
  | .find => .find <$> required g.argument
  | .load => .load <$> required g.argument
  | .list => .list <$> required g.argument
  | .delete => .delete <$> required g.argument
  | .exportTo => .exportTo <$> required g.output
  | .importFrom => .importFrom <$> required g.input

/-- The options of a command line, those after the name of the command before
those in front. -/
def combine (front after : Given) (command : Option Command) : Invocation where
  quiet := front.quiet || after.quiet
  json := front.json || after.json
  config := after.config.or front.config
  backend := after.backend.or front.backend
  database := after.database.or front.database
  command := command

/-- Reads the words of a command line from a given state on. -/
def readFrom (s : Scan) : List String → Except UsageError Invocation
  | [] => do return combine (← s.settle).given {} none
  | word :: rest =>
    let name? :=
      if s.trailing || s.awaits then none else CommandName.ofWord? word
    match name? with
    | some name => do
      let after ← readWords name rest
      let command ← commandOf name after
      return combine (← s.settle).given after (some command)
    | none =>
      if word = "help" ∧ !s.trailing ∧ !s.awaits then .error (helpAnswer rest)
      else do readFrom (← s.word none word) rest

end CommandLine

def Invocation.ofArguments
    (words : List String) : Except UsageError Invocation :=
  CommandLine.readFrom {} words

end LinkGraph
