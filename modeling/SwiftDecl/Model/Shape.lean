import SwiftDecl.Model.Fault
import SwiftDecl.Model.Writing

/-!
# SwiftDecl.Model.Shape

Reading scalars, lists and records from data. A record is a table of its fields in any order or a
list of their values in the order of declaration. Members are read in the order of the data and
the first fault counts; that a field is missing shows only at the end of its table.

The readers of lists and records hand each part to its own reader together with the proof that
the part is smaller than the whole, which is what readers of nested records recurse on.
-/

namespace SwiftDecl
namespace Model

/-- What is found in place of something else, unless nothing can be read there. -/
def found (dialect : Dialect) : Data → Except Fault Found
  | .null => .ok .null
  | .bool b => .ok (.bool b)
  | .integer i => .ok (.integer i)
  | .double x => .ok (.double x)
  | .string s => .ok (.string s)
  | .dateTime => .ok .map
  | .array _ _ => .ok .sequence
  | .table _ _ => .ok .map
  | .tooDeep d => found dialect d
  | .misnamed d => found dialect d
  | .unusable why => .error (Unusable.fault dialect why)
  | .malformed => .error .malformed

def mismatch (dialect : Dialect) (expected : String) (d : Data) : Fault :=
  match found dialect d with
  | .ok f => .invalidType f expected
  | .error e => e

mutual
/-- Passes over data that nobody asked for. -/
def skip (dialect : Dialect) : Data → Except Fault Unit
  | .array ds closed =>
    match skipEach dialect ds with
    | .error e => .error e
    | .ok () => if closed then .ok () else .error .malformed
  | .table ms closed =>
    match skipMembers dialect ms with
    | .error e => .error e
    | .ok () => if closed then .ok () else .error .malformed
  | .tooDeep d => skip dialect d
  | .misnamed d => skip dialect d
  | .unusable why =>
    match dialect with
    | .json => .ok ()
    | .toml => .error (Unusable.fault .toml why)
  | .malformed => .error .malformed
  | _ => .ok ()

def skipEach (dialect : Dialect) : List Data → Except Fault Unit
  | [] => .ok ()
  | d :: ds =>
    match skip dialect d with
    | .error e => .error e
    | .ok () => skipEach dialect ds

def skipMembers (dialect : Dialect) : Members → Except Fault Unit
  | [] => .ok ()
  | (_, d) :: ms =>
    match skip dialect d with
    | .error e => .error e
    | .ok () => skipMembers dialect ms
end

mutual
/-- Checks that data can be read as a whole, before it is known what it should be. -/
def survey (dialect : Dialect) : Data → Except Fault Unit
  | .integer i =>
    if Number.isWord64 i then .ok ()
    else .error (.invalidType (.integer i) "any value")
  | .array ds closed =>
    match surveyEach dialect ds with
    | .error e => .error e
    | .ok () => if closed then .ok () else .error .malformed
  | .table ms closed =>
    match surveyMembers dialect ms with
    | .error e => .error e
    | .ok () => if closed then .ok () else .error .malformed
  | .tooDeep _ => .error .malformed
  | .misnamed _ => .error .malformed
  | .unusable why => .error (Unusable.fault dialect why)
  | .malformed => .error .malformed
  | _ => .ok ()

def surveyEach (dialect : Dialect) : List Data → Except Fault Unit
  | [] => .ok ()
  | d :: ds =>
    match survey dialect d with
    | .error e => .error e
    | .ok () => surveyEach dialect ds

def surveyMembers (dialect : Dialect) : Members → Except Fault Unit
  | [] => .ok ()
  | (_, d) :: ms =>
    match survey dialect d with
    | .error e => .error e
    | .ok () => surveyMembers dialect ms
end

def readBool (dialect : Dialect) : Data → Except Fault Bool
  | .bool b => .ok b
  | d => .error (mismatch dialect "a boolean" d)

def readText (dialect : Dialect) : Data → Except Fault String
  | .string s => .ok s
  | d => .error (mismatch dialect "a string" d)

/-- `null` is the absent value. -/
def readOption {α : Type} (read : Data → Except Fault α) : Data → Except Fault (Option α)
  | .null => .ok none
  | d => (read d).map some

/-- The text of the only member with this key. -/
def onlyText (key : String) (ms : Members) : Option String :=
  match ms.filter fun m => m.1 == key with
  | [(_, .string s)] => some s
  | _ => none

def readEach {α : Type} : (ds : List Data) → ((d : Data) → d ∈ ds → Except Fault α) →
    Except Fault (List α)
  | [], _ => .ok []
  | d :: ds, read =>
    match read d (.head _) with
    | .error e => .error e
    | .ok a =>
      match readEach ds fun x h => read x (.tail _ h) with
      | .error e => .error e
      | .ok as => .ok (a :: as)

theorem sizeOf_lt_of_mem_array {d : Data} {ds : List Data} {closed : Bool} (h : d ∈ ds) :
    sizeOf d < sizeOf (Data.array ds closed) := by
  have := List.sizeOf_lt_of_mem h
  simp only [Data.array.sizeOf_spec]
  omega

theorem sizeOf_lt_of_mem_table {key : String} {d : Data} {ms : Members} {closed : Bool}
    (h : (key, d) ∈ ms) : sizeOf d < sizeOf (Data.table ms closed) := by
  have := List.sizeOf_lt_of_mem h
  simp only [Data.table.sizeOf_spec, Prod.mk.sizeOf_spec] at this ⊢
  omega

def readListWith {α : Type} (dialect : Dialect) (d : Data)
    (read : (x : Data) → sizeOf x < sizeOf d → Except Fault α) : Except Fault (List α) :=
  match d with
  | .array ds closed =>
    match readEach ds fun x h => read x (sizeOf_lt_of_mem_array h) with
    | .error e => .error e
    | .ok as => if closed then .ok as else .error .malformed
  | .tooDeep _ => .error .malformed
  | d => .error (mismatch dialect "a sequence" d)

def readList {α : Type} (dialect : Dialect) (read : Data → Except Fault α) (d : Data) :
    Except Fault (List α) :=
  readListWith dialect d fun x _ => read x

/-! ## Records -/

structure Field where
  name : String
  isRequired : Bool := false

/-- A kind of record. -/
structure Shape (α : Type) where
  title : String
  fields : List Field
  /-- Members that are no field are a fault. -/
  isStrict : Bool := false
  /-- The record before any field has been read. -/
  blank : α

namespace Shape

variable {α : Type}

def names (shape : Shape α) : List String := shape.fields.map (·.name)

def expected (shape : Shape α) : String := "struct " ++ shape.title

def readMembers (dialect : Dialect) (shape : Shape α) : (ms : Members) →
    ((key : String) → (d : Data) → (key, d) ∈ ms → α → Except Fault α) →
    List String → α → Except Fault (List String × α)
  | [], _, seen, record => .ok (seen, record)
  | (_, .misnamed _) :: _, _, _, _ => .error .malformed
  | (key, d) :: ms, set, seen, record =>
    let rest := fun k x (h : (k, x) ∈ ms) => set k x (.tail _ h)
    if key ∈ shape.names then
      if key ∈ seen then .error (.duplicateField key)
      else
        match set key d (.head _) record with
        | .error e => .error e
        | .ok record => readMembers dialect shape ms rest (key :: seen) record
    else if shape.isStrict then .error (.unknownField key shape.names)
    else
      match skip dialect d with
      | .error e => .error e
      | .ok () => readMembers dialect shape ms rest seen record

/-- The first field that must be there and is not. -/
def missing (shape : Shape α) (seen : List String) : Option String :=
  (shape.fields.find? fun f => f.isRequired && !seen.contains f.name).map (·.name)

/-- The only member of the table that a date or a time stands for. No record has such a field. -/
def dateTimeKey : String := "$__toml_private_datetime"

/-- A date or a time in place of a record. -/
def readDateTime (shape : Shape α) : Except Fault α :=
  if shape.isStrict then .error (.unknownField dateTimeKey shape.names)
  else
    match shape.missing [] with
    | some name => .error (.missingField name)
    | none => .ok shape.blank

/-- The place of the first field from `index` on that must be there. -/
def firstRequired : List Field → Nat → Option Nat
  | [], _ => none
  | f :: fs, index => if f.isRequired then some index else firstRequired fs (index + 1)

/-- Reads values in the order of the fields. -/
def readPositions (dialect : Dialect) (shape : Shape α) (closed : Bool) :
    List Field → (ds : List Data) →
    ((key : String) → (d : Data) → d ∈ ds → α → Except Fault α) →
    Nat → α → Except Fault α
  | [], ds, _, _, record =>
    match dialect with
    | .json => if ds.isEmpty && closed then .ok record else .error .malformed
    | .toml => .ok record
  | f :: fs, [], _, index, record =>
    if !closed then .error .malformed
    else
      match firstRequired (f :: fs) index with
      | some n =>
        .error (.invalidLength n
          (shape.expected ++ " with " ++ toString shape.fields.length ++ " elements"))
      | none => .ok record
  | f :: fs, d :: ds, set, index, record =>
    match set f.name d (.head _) record with
    | .error e => .error e
    | .ok record =>
      readPositions dialect shape closed fs ds (fun k x h => set k x (.tail _ h)) (index + 1)
        record

def readWith (dialect : Dialect) (shape : Shape α) (d : Data)
    (set : (key : String) → (x : Data) → sizeOf x < sizeOf d → α → Except Fault α) :
    Except Fault α :=
  match d with
  | .table ms closed =>
    match readMembers dialect shape ms (fun k x h => set k x (sizeOf_lt_of_mem_table h)) []
        shape.blank with
    | .error e => .error e
    | .ok (seen, record) =>
      if !closed then .error .malformed
      else
        match shape.missing seen with
        | some name => .error (.missingField name)
        | none => .ok record
  | .array ds closed =>
    readPositions dialect shape closed shape.fields ds
      (fun k x h => set k x (sizeOf_lt_of_mem_array h)) 0 shape.blank
  | .dateTime => shape.readDateTime
  | .tooDeep _ => .error .malformed
  | d => .error (mismatch dialect shape.expected d)

def read (dialect : Dialect) (shape : Shape α)
    (set : String → Data → α → Except Fault α) (d : Data) : Except Fault α :=
  shape.readWith dialect d fun key x _ => set key x

end Shape
end Model
end SwiftDecl
