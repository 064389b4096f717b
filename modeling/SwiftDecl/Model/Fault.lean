import SwiftDecl.Data
import SwiftDecl.Number.Decimal
import SwiftDecl.Text.Basic
import SwiftDecl.Text.Quoted
import SwiftDecl.TypeRef.Parser
import SwiftDecl.Version

/-!
# SwiftDecl.Model.Fault

Why data is not what was asked for, and how that is said. The notation of the data decides how
numbers are quoted and what becomes of scalars that have no value.
-/

namespace SwiftDecl
namespace Model

inductive Dialect where
  | json
  | toml
  deriving DecidableEq

/-- What stands in a place where something else is wanted. -/
inductive Found where
  | null
  | bool (b : Bool)
  | integer (i : Int)
  | double (x : Binary64)
  | string (s : String)
  | sequence
  | map

inductive Fault where
  /-- The text is malformed, so there is nothing to say about its data. -/
  | malformed
  | invalidType (found : Found) (expected : String)
  | invalidLength (length : Nat) (expected : String)
  | missingField (name : String)
  | duplicateField (name : String)
  | unknownField (name : String) (known : List String)
  | unknownVariant (name : String) (known : List String)
  | noVariant (title : String)
  | typeRef (source : String) (fault : TypeRef.Fault)
  | version (fault : SwiftVersion.Fault)
  | integerOverflow
  | doubleOverflow
  | notStringOrTable
  | notOneMember (isEmpty : Bool)
  | notEmpty (container : String)
  | notTable (found : String)

/-- Integers beyond 64 bits are named with the type that holds them. -/
def integerText (i : Int) : String :=
  "integer `" ++ toString i ++ "`" ++
    if Number.isWord64 i then ""
    else if Number.isInt128 i then " as i128"
    else " as u128"

def Dialect.doubleText : Dialect → Binary64 → String
  | .json, x => Number.jsonDouble.render x
  | .toml, x => Number.plainDouble.render x

def Found.describe (dialect : Dialect) : Found → String
  | .null => "null"
  | .bool b => "boolean `" ++ (if b then "true" else "false") ++ "`"
  | .integer i => integerText i
  | .double x => "floating point `" ++ dialect.doubleText x ++ "`"
  | .string s => "string " ++ Text.quoted s
  | .sequence => "sequence"
  | .map => "map"

/-- Names between backticks: one alone, two with an `or`, more after `one of`. -/
def choices : List String → String
  | [] => "there are no fields"
  | [a] => "expected `" ++ a ++ "`"
  | [a, b] => "expected `" ++ a ++ "` or `" ++ b ++ "`"
  | names => "expected one of " ++ Text.separated ", " (names.map fun n => "`" ++ n ++ "`")

def Fault.message (dialect : Dialect) : Fault → String
  | .malformed => "malformed text"
  | .invalidType found expected =>
    "invalid type: " ++ found.describe dialect ++ ", expected " ++ expected
  | .invalidLength n expected => "invalid length " ++ toString n ++ ", expected " ++ expected
  | .missingField name => "missing field `" ++ name ++ "`"
  | .duplicateField name => "duplicate field `" ++ name ++ "`"
  | .unknownField name known => "unknown field `" ++ name ++ "`, " ++ choices known
  | .unknownVariant name known => "unknown variant `" ++ name ++ "`, " ++ choices known
  | .noVariant title => "data did not match any variant of untagged enum " ++ title
  | .typeRef source fault => fault.message source
  | .version fault => fault.message
  | .integerOverflow => "integer number overflowed"
  | .doubleOverflow => "floating-point number overflowed"
  | .notStringOrTable => "wanted string or table"
  | .notOneMember true => "wanted exactly 1 element, found 0 elements"
  | .notOneMember false => "wanted exactly 1 element, more than 1 element"
  | .notEmpty container => "expected empty " ++ container
  | .notTable found => "expected table, found " ++ found

/-- JSON calls a scalar without a value malformed. -/
def Unusable.fault : Dialect → Unusable → Fault
  | .json, _ => .malformed
  | .toml, .integerOverflow => .integerOverflow
  | .toml, _ => .doubleOverflow

end Model
end SwiftDecl
