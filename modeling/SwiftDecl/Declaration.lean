import SwiftDecl.Expression
import SwiftDecl.Text.Basic
import SwiftDecl.TypeRef.Basic
import SwiftDecl.Version

/-!
# SwiftDecl.Declaration

The declarations that can be written as Swift source. `==` on declarations compares doubles as
numbers, so that a declaration with a NaN differs from itself.
-/

namespace SwiftDecl

/-- A requirement of a `where` clause. -/
inductive GenericConstraint where
  | conformance (name : String) (conformsTo : TypeRef)
  | sameType (name : String) (type : TypeRef)
  deriving BEq, Inhabited

def GenericConstraint.name : GenericConstraint → String
  | .conformance name _ => name
  | .sameType name _ => name

structure Variable where
  name : String
  isPublic : Bool := false
  /-- A `let`; otherwise a `var`. -/
  isReadonly : Bool := true
  type : Option TypeRef := none
  value : Option Expression := none
  comment : Option String := none
  deriving BEq, Inhabited

structure Parameter where
  /-- The name at the call site; `_` for none, and the parameter's own name if absent. -/
  label : Option String := none
  name : String
  type : TypeRef
  defaultValue : Option Expression := none
  isInout : Bool := false
  deriving BEq, Inhabited

structure FunctionDecl where
  name : String
  isPublic : Bool := false
  genericParameters : List String := []
  parameters : List Parameter := []
  isAsync : Bool := false
  canThrow : Bool := false
  returnType : Option TypeRef := none
  constraints : List GenericConstraint := []
  comment : Option String := none
  isInlinable : Bool := false
  hasDiscardableResult : Bool := false
  body : List String := []
  deriving BEq, Inhabited

namespace FunctionDecl

/-- Adds one item to the body as it is. -/
def addItem (f : FunctionDecl) (item : String) : FunctionDecl :=
  { f with body := f.body ++ [item] }

/-- Adds each line of a text to the body. -/
def addText (f : FunctionDecl) (text : String) : FunctionDecl :=
  { f with body := f.body ++ Text.lines text }

end FunctionDecl

inductive TypeKind where
  | struct
  | ordinaryClass
  | finalClass
  | enum
  deriving DecidableEq, Inhabited

/-- The words that introduce a type of this kind. -/
def TypeKind.keyword : TypeKind → String
  | .struct => "struct"
  | .ordinaryClass => "class"
  | .finalClass => "final class"
  | .enum => "enum"

structure TypeAlias where
  name : String
  type : TypeRef
  isPublic : Bool := false
  deriving BEq, Inhabited

structure TypeDecl where
  name : String
  kind : TypeKind := .struct
  isPublic : Bool := false
  conformances : List TypeRef := []
  comment : Option String := none
  aliases : List TypeAlias := []
  typeVariables : List Variable := []
  instanceVariables : List Variable := []
  nestedTypes : List TypeDecl := []
  typeFunctions : List FunctionDecl := []
  functions : List FunctionDecl := []
  deriving BEq, Inhabited

/-- The type has no member. -/
def TypeDecl.isEmpty (d : TypeDecl) : Bool :=
  d.aliases.isEmpty && d.typeVariables.isEmpty && d.instanceVariables.isEmpty &&
    d.nestedTypes.isEmpty && d.typeFunctions.isEmpty && d.functions.isEmpty

structure Extension where
  extendedType : TypeRef
  isPublic : Bool := false
  conformances : List TypeRef := []
  constraints : List GenericConstraint := []
  minimumVersion : Option SwiftVersion := none
  requiredImports : List String := []
  typeDecls : List TypeDecl := []
  typeVariables : List Variable := []
  typeFunctions : List FunctionDecl := []
  functions : List FunctionDecl := []
  deriving BEq, Inhabited

namespace Extension

/-- The extension has no member. -/
def isEmpty (e : Extension) : Bool :=
  e.typeDecls.isEmpty && e.typeVariables.isEmpty && e.typeFunctions.isEmpty && e.functions.isEmpty

def memberCount (e : Extension) : Nat :=
  e.typeDecls.length + e.typeVariables.length + e.typeFunctions.length + e.functions.length

/-- The conditions under which the extension is compiled, outermost first. -/
def gates (e : Extension) : List String :=
  (match e.minimumVersion with
    | none => []
    | some v => ["swift(>=" ++ v.display ++ ")"]) ++
  e.requiredImports.map fun name => "canImport(" ++ name ++ ")"

end Extension

inductive Declaration where
  | extension (value : Extension)
  | type (value : TypeDecl)
  | function (value : FunctionDecl)
  | variable (value : Variable)
  | constraint (value : GenericConstraint)
  deriving BEq, Inhabited

def Declaration.kind : Declaration → String
  | .extension _ => "extension"
  | .type _ => "type"
  | .function _ => "function"
  | .variable _ => "variable"
  | .constraint _ => "generic constraint"

end SwiftDecl
