import LinkGraph.Graph.Lookup

/-!
# Cursors

A cursor keeps the items of a listing as they were when it was opened.  It is
read once: the first read removes it, whatever it asks for.  Cursor names and
serials are drawn from one sequence of numbers.
-/

namespace LinkGraph

/-- A source of numbers, each given out once. -/
structure NumberSource where
  next : UInt64 := 1
  deriving Repr, DecidableEq

def NumberSource.take (s : NumberSource) : UInt64 × NumberSource :=
  (s.next, ⟨s.next + 1⟩)

/-- The next number behind a label. -/
def NumberSource.takeName
    (s : NumberSource) (label : String) : String × NumberSource :=
  (label ++ toString s.next, ⟨s.next + 1⟩)

/-- What a client gets when a cursor is opened. -/
structure CursorHandle where
  id : String
  serial : UInt64
  deriving Repr, DecidableEq

/-- The open cursors, and the numbers for further ones. -/
structure CursorRegistry where
  cursors : Std.ExtTreeMap String (List Item) := ∅
  numbers : NumberSource := {}

namespace CursorRegistry

def namePrefix : String := "collection"

def openCursor
    (r : CursorRegistry) (items : List Item) : CursorHandle × CursorRegistry :=
  let (id, numbers) := r.numbers.takeName namePrefix
  let (serial, numbers) := numbers.take
  (⟨id, serial⟩, { cursors := r.cursors.insert id items, numbers })

/-- The items from `start` on, at most `count` of them, or all when `count` is
zero. -/
def slice
    (items : List Item) (start count : Nat) : Except StoreError (List Item) :=
  if items.length < start then .error (.indexOutOfRange start items.length)
  else
    let rest := items.drop start
    .ok (if count = 0 then rest else rest.take count)

/-- Reads a cursor and removes it.  A cursor that is not open reads as empty. -/
def read (r : CursorRegistry) (id : String) (start count : Nat) :
    Except StoreError (List Item) × CursorRegistry :=
  match r.cursors[id]? with
  | none => (.ok [], r)
  | some items =>
    (slice items start count, { r with cursors := r.cursors.erase id })

def openCount (r : CursorRegistry) : Nat :=
  r.cursors.size

end CursorRegistry

end LinkGraph
