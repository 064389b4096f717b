import SwiftDecl.Number.Digits
import SwiftDecl.Text.Basic

/-!
# SwiftDecl.Version

Swift language versions of the form `X.Y`.
-/

namespace SwiftDecl

structure SwiftVersion where
  major : UInt32
  minor : UInt32
  deriving DecidableEq, Inhabited

namespace SwiftVersion

inductive Fault where
  | notTwoParts (source : String)
  | major
  | minor
  deriving DecidableEq, Repr

def Fault.message : Fault → String
  | .notTwoParts source => "invalid Swift version '" ++ source ++ "', expected 'X.Y'"
  | .major => "invalid major"
  | .minor => "invalid minor"

def display (v : SwiftVersion) : String :=
  toString v.major.toNat ++ "." ++ toString v.minor.toNat

def readNumber (cs : List Char) : Option UInt32 :=
  (Number.readUnsigned Number.words32 cs).map UInt32.ofNat

def parse (s : String) : Except Fault SwiftVersion :=
  match Text.pieces '.' s.toList with
  | [a, b] =>
    match readNumber a with
    | none => .error .major
    | some major =>
      match readNumber b with
      | none => .error .minor
      | some minor => .ok ⟨major, minor⟩
  | _ => .error (.notTwoParts s)

/-- By major number, then by minor number. -/
def compare (a b : SwiftVersion) : Ordering :=
  (Ord.compare a.major b.major).then (Ord.compare a.minor b.minor)

instance : Ord SwiftVersion := ⟨compare⟩

instance : LT SwiftVersion := ⟨fun a b => compare a b = .lt⟩

/-- Ascending order; equal versions keep their places. -/
def sort (vs : List SwiftVersion) : List SwiftVersion :=
  vs.mergeSort fun a b => compare a b != .gt

end SwiftVersion
end SwiftDecl
