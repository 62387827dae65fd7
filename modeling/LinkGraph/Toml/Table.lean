/-!
# TOML tables

The values of a settings file, and the rules by which a table grows.  A table
remembers how it came about, because that decides who may still add to it: no
key is ever given two values, and no table is defined twice.
-/

namespace LinkGraph.Toml

/-- How a table came about: as an ancestor of a table with a header, with a
header of its own, as an ancestor of a dotted key, or between braces. -/
inductive Origin where
  | implied
  | header
  | dotted
  | braces
  deriving Repr, DecidableEq

/-- A value.  The members of a table are in the order in which they were
written. -/
inductive Value where
  | text (s : String)
  | integer (n : Int)
  | boolean (b : Bool)
  | array (items : List Value)
  | table (origin : Origin) (members : List (String × Value))
  deriving Repr

/-- The members of a table in their order. -/
abbrev Members := List (String × Value)

namespace Members

/-- Gives a key a value; a key that is there keeps its place. -/
def set (members : Members) (key : String) (value : Value) : Members :=
  match members with
  | [] => [(key, value)]
  | (k, v) :: rest =>
    if k = key then (key, value) :: rest
    else (k, v) :: Members.set rest key value

/-- Gives a value to a dotted key.  The tables on the way are made if they are
missing, and may only be ones that nothing but other keys has made. -/
def assign (value : Value) : List String → Members → Option Members
  | [], _ => none
  | [key], members =>
    if (members.lookup key).isSome then none else some (members.set key value)
  | key :: path, members =>
    match members.lookup key with
    | none =>
      (assign value path []).map fun inner =>
        members.set key (.table .dotted inner)
    | some (.table .dotted inner) =>
      (assign value path inner).map fun inner =>
        members.set key (.table .dotted inner)
    | some (.table .implied inner) =>
      (assign value path inner).map fun inner =>
        members.set key (.table .implied inner)
    | some _ => none

/-- Defines the table with a header.  Only a table that other headers have
implied may be there. -/
def define : List String → Members → Option Members
  | [], _ => none
  | [key], members =>
    match members.lookup key with
    | none => some (members.set key (.table .header []))
    | some (.table .implied inner) =>
      some (members.set key (.table .header inner))
    | some _ => none
  | key :: path, members =>
    match members.lookup key with
    | none =>
      (define path []).map fun inner => members.set key (.table .implied inner)
    | some (.table .braces _) => none
    | some (.table origin inner) =>
      (define path inner).map fun inner => members.set key (.table origin inner)
    | some _ => none

/-- Changes the members of the table at a path. -/
def changeAt
    (change : Members → Option Members) :
    List String → Members → Option Members
  | [], members => change members
  | key :: path, members =>
    match members.lookup key with
    | some (.table origin inner) =>
      (changeAt change path inner).map fun inner =>
        members.set key (.table origin inner)
    | _ => none

end Members

end LinkGraph.Toml
