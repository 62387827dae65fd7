/-!
# Sorted buckets

The members of a category as a sorted list without repetitions.  A name is
looked up by halving the list, so that on a list that is not sorted the outcome
is still determined.
-/

namespace LinkGraph.Bucket

/-- Halves the `size` names from `base` on until one is left that the name may
be equal to. -/
def narrow (names : Array String) (name : String) (base size : Nat) : Nat :=
  if size ≤ 1 then base
  else
    let middle := base + size / 2
    let base := if name < names.getD middle "" then base else middle
    narrow names name base (size - size / 2)
termination_by size

/-- Where a name stands, or where it would have to be inserted. -/
inductive Position where
  | found (i : Nat)
  | absent (i : Nat)
  deriving Repr, DecidableEq

def locate (names : List String) (name : String) : Position :=
  let i := narrow names.toArray name 0 names.length
  match names[i]? with
  | none => .absent i
  | some other =>
    if other = name then .found i
    else .absent (if other < name then i + 1 else i)

/-- The names with one more; none if it is there already. -/
def insert? (names : List String) (name : String) : Option (List String) :=
  match locate names name with
  | .found _ => none
  | .absent i => some (names.insertIdx i name)

/-- The names without one; none if it is not there. -/
def erase? (names : List String) (name : String) : Option (List String) :=
  match locate names name with
  | .found i => some (names.eraseIdx i)
  | .absent _ => none

end LinkGraph.Bucket
