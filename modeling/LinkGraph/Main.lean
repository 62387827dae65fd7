import LinkGraph.CommandLine.Run
import LinkGraph.Http.Router

/-!
# The program

The command line on a real disk: this module reads the arguments and the
environment, gives commands their files, and writes what they report.
-/

namespace LinkGraph

namespace Disk

/-- The file error that an error of the machine is. -/
def fileError : IO.Error → FileError
  | .noFileOrDirectory .. => .notFound
  | e => .other e.toString

/-- The result of an operation on the disk, errors of the machine included. -/
def guarded {α : Type} (op : IO α) : IO (Except FileError α) := do
  try return .ok (← op)
  catch e => return .error (fileError e)

def kind? (path : String) : IO (Option FileKind) := do
  try
    let place ← IO.FS.realPath path
    if ← place.isDir then return some .directory
    return if ← place.pathExists then some .regular else none
  catch _ => return none

/-- Performs an operation on a path that is no directory. -/
def onFile
    {α : Type} (path : String) (op : IO α) : IO (Except FileError α) := do
  if '\x00' ∈ path.toList then return .error .nulInPath
  if (← kind? path) = some .directory then return .error .isDirectory
  guarded op

end Disk

instance : FileAccess IO where
  canonical path :=
    if '\x00' ∈ path.toList then return .error .nulInPath
    else Disk.guarded do return (← IO.FS.realPath path).toString
  kind? := Disk.kind?
  read path := Disk.onFile path do return ⟨(← IO.FS.readBinFile path).toList, 0⟩
  write path bytes := Disk.onFile path (IO.FS.writeBinFile path ⟨bytes.toArray⟩)
  openFile path := Disk.onFile path do
    let _ ← IO.FS.Handle.mk path .append
    return ⟨(← IO.FS.readBinFile path).toList, 0⟩

/-- No listener is built in: requests are answered by `Http.serve`. -/
instance : Network IO where
  listen address :=
    return .error
      (if '\x00' ∈ address.toList then FileError.nulInPath.message
        else "Operation not supported (os error 95)")

/-- The values of the variables that are looked at. -/
def readEnvironment : IO Environment := do
  let values ← Settings.variableNames.mapM
    fun name => do return (name, ← IO.getEnv name)
  return fun name => (values.lookup name).join

/-- What is shown before the report of a command. -/
def banner : String :=
  "\n   ___   ___ ___ ___  ___ _____ ___  ___ ___\n" ++
  "  / _ \\ / __/ __|_ _|/ __|_   _/ _ \\| _ \\ __|\n" ++
  " | (_) | (_| (__ | | \\__ \\ | || (_) |   / _|\n" ++
  "  \\___/ \\___\\___|___||___/ |_| \\___/|_|_\\___|\n\n" ++
  s!"  Entity Graph Store v{Http.serviceVersion}\n"

def usage : String :=
  let commands := ", ".intercalate (CommandLine.CommandName.all.map (·.word))
  "Usage: occistore [OPTIONS] [COMMAND]\n\nCommands: " ++ commands ++
    "\nOptions: -q, --quiet; -c, --config <CONFIG>; -B, --backend <BACKEND>; " ++
    "-D, --database <DATABASE>; --json-mode; -h, --help; -V, --version"

/-- Answers a command line that is not carried out. -/
def refuse (e : UsageError) : IO Unit :=
  match e with
  | .displayHelp => IO.println usage
  | .displayVersion => IO.println s!"occistore {Http.serviceVersion}"
  | e => do
    IO.eprintln s!"error: {e.kind}"
    IO.eprintln usage

/-- Carries out the command line and returns the exit status. -/
def program (arguments : List String) : IO UInt32 := do
  match Invocation.ofArguments arguments with
  | .error e =>
    refuse e
    return UInt32.ofNat e.exitStatus
  | .ok invocation =>
    unless invocation.quiet || invocation.json do IO.println banner
    let outcome ← invocation.run (← readEnvironment)
    IO.print outcome.text
    match outcome.failure with
    | none => return 0
    | some e =>
      let message := e.message?.getD "Invalid config file"
      IO.eprintln s!"Error: {message}"
      return 1

end LinkGraph

def main (arguments : List String) : IO UInt32 :=
  LinkGraph.program arguments
