/-!
# Paths

The parts of a path, and the directory and the name that it divides into.
Repeated slashes, a slash at the end and parts that are a single dot do not
count, but a dot at the front does.
-/

namespace LinkGraph.Path

/-- The parts of a path between its slashes, empty ones included. -/
def partsOf : List Char → List (List Char)
  | [] => [[]]
  | c :: cs =>
    if c = '/' then [] :: partsOf cs
    else
      match partsOf cs with
      | part :: parts => (c :: part) :: parts
      | [] => [[c]]

def parts (path : String) : List String :=
  (partsOf path.toList).map String.ofList

def join (parts : List String) : String :=
  "/".intercalate parts

/-- A part that leads nowhere else. -/
def isIdle (part : String) : Bool :=
  part = "" || part = "."

/-- A list without the idle parts at its end. -/
def dropIdle (parts : List String) : List String :=
  (parts.reverse.dropWhile isIdle).reverse

/-- The front of a path that is not divided further, a slash or a dot, and the
parts after it. -/
def divide (path : String) : String × List String :=
  match path.toList with
  | '/' :: rest => ("/", (partsOf rest).map String.ofList)
  | ['.'] => (".", [])
  | '.' :: '/' :: rest => (".", "" :: (partsOf rest).map String.ofList)
  | cs => ("", (partsOf cs).map String.ofList)

/-- The directory that a path is in, as it is written; a path without one is in
the working directory. -/
def directory (path : String) : String :=
  let (front, parts) := divide path
  match dropIdle parts with
  | [] => "."
  | parts =>
    let directory := front ++ join (dropIdle parts.dropLast)
    if directory.isEmpty then "." else directory

def fileName? (path : String) : Option String :=
  match (dropIdle (divide path).2).getLast? with
  | none | some ".." => none
  | some name => some name

def append (directory name : String) : String :=
  if directory = "/" then "/" ++ name else directory ++ "/" ++ name

end LinkGraph.Path
