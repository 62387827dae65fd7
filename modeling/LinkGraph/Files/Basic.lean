import LinkGraph.Text.Utf8

/-!
# File access

What can be asked of a file system, and its answers.  Commands are written for
any monad with file access, so that they run on a real disk and can be reasoned
about on a tree in memory.
-/

namespace LinkGraph

/-- Why a file operation fails. -/
inductive FileError where
  | notFound
  | notDirectory
  | isDirectory
  | nameTooLong
  | nulInPath
  | illFormedText
  | other (reason : String)
  deriving Repr, DecidableEq

def FileError.message : FileError → String
  | notFound => "No such file or directory (os error 2)"
  | notDirectory => "Not a directory (os error 20)"
  | isDirectory => "Is a directory (os error 21)"
  | nameTooLong => "File name too long (os error 36)"
  | nulInPath => "file name contained an unexpected NUL byte"
  | illFormedText => "stream did not contain valid UTF-8"
  | other reason => reason

/-- What a path leads to. -/
inductive FileKind where
  | regular
  | directory
  deriving Repr, DecidableEq

/-- The content of a file: bytes that are stored, and after them a hole that
reads as zeros. -/
structure FileContent where
  stored : List UInt8
  hole : Nat := 0
  deriving Repr, DecidableEq

namespace FileContent

def size (c : FileContent) : Nat :=
  c.stored.length + c.hole

def toBytes (c : FileContent) : List UInt8 :=
  c.stored ++ List.replicate c.hole 0

def take (count : Nat) (c : FileContent) : FileContent where
  stored := c.stored.take count
  hole := min c.hole (count - c.stored.length)

def text (c : FileContent) : Except FileError String :=
  match Text.ofBytes? c.toBytes with
  | some s => .ok s
  | none => .error .illFormedText

end FileContent

/-- The operations of a file system.  Paths are texts with slashes between their
parts. -/
class FileAccess (m : Type → Type) where
  /-- The absolute path of what a path leads to. -/
  canonical : String → m (Except FileError String)
  /-- What a path leads to, if to anything. -/
  kind? : String → m (Option FileKind)
  /-- The content of a file. -/
  read : String → m (Except FileError FileContent)
  /-- Gives a file new content; a missing file is made. -/
  write : String → List UInt8 → m (Except FileError Unit)
  /-- The content of a file that is opened for reading and writing; a missing
  file is made. -/
  openFile : String → m (Except FileError FileContent)

def FileAccess.readText
    {m : Type → Type} [Monad m] [FileAccess m] (path : String) :
    m (Except FileError String) := do
  return (← read path).bind (·.text)

end LinkGraph
