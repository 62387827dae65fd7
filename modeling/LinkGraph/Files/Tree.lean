import LinkGraph.Files.Basic
import LinkGraph.Files.Path
import Std.Data.ExtTreeMap

/-!
# File trees

A file system in memory: directories and files by their absolute paths, and a
working directory that relative paths start from.
-/

namespace LinkGraph

/-- What stands at a path. -/
inductive FileNode where
  | directory
  | file (content : FileContent)
  deriving Repr, DecidableEq

/-- A file system.  The root is always a directory; places are the names on the
way from it. -/
structure FileTree where
  working : List String := []
  nodes : Std.ExtTreeMap String FileNode := ∅

namespace FileTree

/-- The most bytes of one name. -/
def maxName : Nat := 255

/-- The most bytes of a path that is looked up as a whole. -/
def maxPath : Nat := 4095

/-- The absolute path of a place. -/
def absolute (place : List String) : String :=
  "/" ++ Path.join place

def node? (t : FileTree) (place : List String) : Option FileNode :=
  if place = [] then some .directory else t.nodes[absolute place]?

/-- The tree with something at a place. -/
def put (t : FileTree) (place : List String) (node : FileNode) : FileTree :=
  { t with nodes := t.nodes.insert (absolute place) node }

/-- The place that parts of a path lead to from a place.  Every part but the
last has to lead to a directory, and an empty last part stands for a slash at
the end, so that the place before it has to be one too. -/
def walk
    (t : FileTree) : List String → List String → Except FileError (List String)
  | [], place => .ok place
  | part :: rest, place =>
    match t.node? place with
    | none => .error .notFound
    | some (.file _) => .error .notDirectory
    | some .directory =>
      if Path.isIdle part then t.walk rest place
      else if part = ".." then t.walk rest place.dropLast
      else if maxName < part.utf8ByteSize then .error .nameTooLong
      else if (t.node? (place ++ [part])).isSome then
        t.walk rest (place ++ [part])
      else .error .notFound

def start (t : FileTree) (path : String) : List String :=
  if path.toList.head? = some '/' then [] else t.working

/-- Refuses texts that are no path. -/
def checkText (path : String) : Except FileError Unit :=
  if '\x00' ∈ path.toList then .error .nulInPath
  else if path.isEmpty then .error .notFound
  else .ok ()

/-- Refuses texts that are no path, and paths that are too long to be looked up
as a whole. -/
def checkPath (path : String) : Except FileError Unit := do
  checkText path
  if maxPath < path.utf8ByteSize then throw .nameTooLong

/-- The absolute path of what a path leads to.  It is found part by part, so the
path as it is written may have any length. -/
def canonical (t : FileTree) (path : String) : Except FileError String := do
  checkText path
  return absolute (← t.walk (Path.parts path) (t.start path))

def resolve
    (t : FileTree) (path : String) : Except FileError (List String) := do
  checkPath path
  t.walk (Path.parts path) (t.start path)

/-- The place of a file that may have to be made, with its content if it is
there. -/
def locate (t : FileTree) (path : String) :
    Except FileError (List String × Option FileContent) := do
  checkPath path
  let parts := Path.parts path
  let names := (parts.reverse.dropWhile (· = "")).reverse
  match names.getLast? with
  | none => throw .isDirectory
  | some name =>
    let directory ← t.walk (names.dropLast ++ [""]) (t.start path)
    if name = "." ∨ name = ".." ∨ names.length < parts.length then
      throw .isDirectory
    if maxName < name.utf8ByteSize then throw .nameTooLong
    match t.node? (directory ++ [name]) with
    | none => return (directory ++ [name], none)
    | some (.file content) => return (directory ++ [name], some content)
    | some .directory => throw .isDirectory

def read (t : FileTree) (path : String) : Except FileError FileContent := do
  match t.node? (← t.resolve path) with
  | some (.file content) => return content
  | some .directory => throw .isDirectory
  | none => throw .notFound

def kind? (t : FileTree) (path : String) : Option FileKind :=
  match t.resolve path with
  | .error _ => none
  | .ok place =>
    (t.node? place).map fun
      | .directory => .directory
      | .file _ => .regular

def write
    (t : FileTree) (path : String) (content : FileContent) :
    Except FileError FileTree := do
  let (place, _) ← t.locate path
  return t.put place (.file content)

/-- The content of a file, which is made if it is missing. -/
def openFile
    (t : FileTree) (path : String) :
    Except FileError (FileContent × FileTree) := do
  match ← t.locate path with
  | (_, some content) => return (content, t)
  | (place, none) => return (⟨[], 0⟩, t.put place (.file ⟨[], 0⟩))

/-- Makes a directory at a place, and those that it is in. -/
def makeDirectories (t : FileTree) : List String → FileTree
  | [] => t
  | place =>
    (List.range place.length).foldl
      (fun t n => t.put (place.take (n + 1)) .directory) t

/-- A tree with nothing but a working directory. -/
def empty (working : List String) : FileTree :=
  ({ working } : FileTree).makeDirectories working

instance : FileAccess (StateM FileTree) where
  canonical path := fun t => (t.canonical path, t)
  kind? path := fun t => (t.kind? path, t)
  read path := fun t => (t.read path, t)
  write path bytes := fun t =>
    match t.write path ⟨bytes, 0⟩ with
    | .ok t => (.ok (), t)
    | .error e => (.error e, t)
  openFile path := fun t =>
    match t.openFile path with
    | .ok (content, t) => (.ok content, t)
    | .error e => (.error e, t)

end FileTree

end LinkGraph
