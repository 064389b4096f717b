import SwiftDecl.Data

/-!
# SwiftDecl.Toml.Node

Tables while their text is being read. How a table came to be decides how it may grow: one with a
header of its own is complete up to that header, one that a longer header implies can still get
its own, and one that a dotted key made grows by dotted keys only. The entries of a table are kept
in ascending order of their keys.
-/

namespace SwiftDecl
namespace Toml

inductive Origin where
  | header
  | implied
  | dottedKey
  deriving DecidableEq

inductive Node where
  | value (data : Data)
  | table (origin : Origin) (entries : List (String × Node))
  /-- The elements of an array that grows by headers. -/
  | tables (earlier : List (List (String × Node))) (last : List (String × Node))

abbrev Entries := List (String × Node)

/-- A key with the keys of the tables that lead to it. -/
structure Key where
  parents : List String
  name : String

def Key.path (k : Key) : List String := k.parents ++ [k.name]

namespace Entries

/-- Puts a node under a key, in place of what stood there. -/
def set (key : String) (node : Node) : Entries → Entries
  | [] => [(key, node)]
  | (k, n) :: es =>
    if key < k then (key, node) :: (k, n) :: es
    else if key = k then (key, node) :: es
    else (k, n) :: set key node es

/-- Changes the table at the end of a path, which may go through the last element of an array.
Tables that are missing on the way are made. A dotted key does not enter a table that has a
header. -/
def within (dotted : Bool) (change : Origin → Entries → Option Entries) :
    List String → Origin → Entries → Option Entries
  | [], origin, es => change origin es
  | key :: path, _, es =>
    match es.lookup key with
    | none =>
      let origin := if dotted then .dottedKey else .implied
      (within dotted change path origin []).map fun sub => set key (.table origin sub) es
    | some (.table origin sub) =>
      if dotted && origin == .header then none
      else (within dotted change path origin sub).map fun sub => set key (.table origin sub) es
    | some (.tables earlier last) =>
      (within dotted change path .header last).map fun last => set key (.tables earlier last) es
    | some (.value _) => none

/-- Adds a value under a new key of a table. -/
def add (dotted : Bool) (name : String) (d : Data) (origin : Origin) (es : Entries) :
    Option Entries :=
  if (origin == .dottedKey) != dotted then none
  else if (es.lookup name).isSome then none
  else some (set name (.value d) es)

/-- Adds a value under a key that may be dotted. -/
def assign (key : Key) (d : Data) : Origin → Entries → Option Entries :=
  within true (add (!key.parents.isEmpty) key.name d) key.parents

/-- Gives a table its header. -/
def openTable (name : String) (_ : Origin) (es : Entries) : Option Entries :=
  match es.lookup name with
  | none => some (set name (.table .header []) es)
  | some (.table .implied sub) => some (set name (.table .header sub) es)
  | _ => none

/-- Adds an empty element to an array of tables. -/
def openElement (name : String) (_ : Origin) (es : Entries) : Option Entries :=
  match es.lookup name with
  | none => some (set name (.tables [] []) es)
  | some (.tables earlier last) => some (set name (.tables (earlier ++ [last]) []) es)
  | _ => none

end Entries

mutual
def Node.toData : Node → Data
  | .value d => d
  | .table _ es => .table (Entries.toMembers es) true
  | .tables earlier last =>
    .array (Entries.eachToData earlier ++ [.table (Entries.toMembers last) true]) true

def Entries.toMembers : List (String × Node) → List (String × Data)
  | [] => []
  | (key, n) :: es => (key, n.toData) :: Entries.toMembers es

def Entries.eachToData : List (List (String × Node)) → List Data
  | [] => []
  | es :: rest => .table (Entries.toMembers es) true :: Entries.eachToData rest
end

end Toml
end SwiftDecl
