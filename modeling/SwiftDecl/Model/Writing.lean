import SwiftDecl.Data
import SwiftDecl.Declaration

/-!
# SwiftDecl.Model.Writing

Declarations as data. Members come in a fixed order; an absent option and an empty list have no
member. Types and versions are written as their text, an absent value as `null`.
-/

namespace SwiftDecl

abbrev Members := List (String × Data)

namespace Members

def one (key : String) (d : Data) : Members := [(key, d)]

def flag (key : String) (b : Bool) : Members := [(key, .bool b)]

def optional {α : Type} (key : String) (item : Option α) (toData : α → Data) : Members :=
  match item with
  | none => []
  | some a => [(key, toData a)]

def items (key : String) : List Data → Members
  | [] => []
  | d :: ds => [(key, .array (d :: ds) true)]

def many {α : Type} (key : String) (xs : List α) (toData : α → Data) : Members :=
  items key (xs.map toData)

end Members

open Members

def TypeRef.toData (t : TypeRef) : Data := .string t.display

def SwiftVersion.toData (v : SwiftVersion) : Data := .string v.display

/-- Doubles that are not finite are written as `null`. -/
def Expression.toData : Expression → Data
  | .bool b => .bool b
  | .integer i => .integer i.toInt
  | .double x => if x.isFinite then .double x else .null
  | .string s => .table [("string", .string s)] true
  | .nil => .null
  | .raw source => .string source

def GenericConstraint.toData : GenericConstraint → Data
  | .conformance name t => .table [("name", .string name), ("conforms_to", t.toData)] true
  | .sameType name t => .table [("name", .string name), ("same_type", t.toData)] true

def Variable.toData (v : Variable) : Data :=
  .table (one "name" (.string v.name) ++ flag "public" v.isPublic ++
    flag "readonly" v.isReadonly ++ optional "type" v.type TypeRef.toData ++
    optional "value" v.value Expression.toData ++ optional "comment" v.comment .string) true

def Parameter.toData (p : Parameter) : Data :=
  .table (optional "label" p.label .string ++ one "name" (.string p.name) ++
    one "type" p.type.toData ++ optional "default" p.defaultValue Expression.toData ++
    flag "inout" p.isInout) true

def FunctionDecl.toData (f : FunctionDecl) : Data :=
  .table (one "name" (.string f.name) ++ flag "public" f.isPublic ++
    many "generic_parameters" f.genericParameters .string ++
    many "parameters" f.parameters Parameter.toData ++ flag "async" f.isAsync ++
    flag "throws" f.canThrow ++ optional "return_type" f.returnType TypeRef.toData ++
    many "generic_constraints" f.constraints GenericConstraint.toData ++
    optional "comment" f.comment .string ++ flag "inlinable" f.isInlinable ++
    flag "discardable_result" f.hasDiscardableResult ++ many "body" f.body .string) true

def TypeKind.toText : TypeKind → String
  | .struct => "struct"
  | .ordinaryClass => "class"
  | .finalClass => "final_class"
  | .enum => "enum"

def TypeAlias.toData (a : TypeAlias) : Data :=
  .table (one "name" (.string a.name) ++ one "type" a.type.toData ++ flag "public" a.isPublic) true

mutual
def TypeDecl.toData : TypeDecl → Data
  | ⟨name, kind, isPublic, conformances, comment, aliases, typeVariables, instanceVariables,
      nested, typeFunctions, functions⟩ =>
    .table (one "name" (.string name) ++ one "kind" (.string kind.toText) ++
      flag "public" isPublic ++ many "conformances" conformances TypeRef.toData ++
      optional "comment" comment .string ++ many "type_aliases" aliases TypeAlias.toData ++
      many "type_variables" typeVariables Variable.toData ++
      many "variables" instanceVariables Variable.toData ++
      items "nested_types" (TypeDecl.eachToData nested) ++
      many "type_functions" typeFunctions FunctionDecl.toData ++
      many "functions" functions FunctionDecl.toData) true

def TypeDecl.eachToData : List TypeDecl → List Data
  | [] => []
  | d :: ds => d.toData :: TypeDecl.eachToData ds
end

def Extension.toData (e : Extension) : Data :=
  .table (one "extended_type" e.extendedType.toData ++ flag "public" e.isPublic ++
    many "conformances" e.conformances TypeRef.toData ++
    many "generic_constraints" e.constraints GenericConstraint.toData ++
    optional "minimum_swift_version" e.minimumVersion SwiftVersion.toData ++
    many "required_imports" e.requiredImports .string ++
    many "type_definitions" e.typeDecls TypeDecl.toData ++
    many "type_variables" e.typeVariables Variable.toData ++
    many "type_functions" e.typeFunctions FunctionDecl.toData ++
    many "functions" e.functions FunctionDecl.toData) true

def Declaration.toData : Declaration → Data
  | .extension e => e.toData
  | .type d => d.toData
  | .function f => f.toData
  | .variable v => v.toData
  | .constraint c => c.toData

end SwiftDecl
