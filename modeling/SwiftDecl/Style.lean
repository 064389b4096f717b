import SwiftDecl.Buffer
import SwiftDecl.Declaration
import SwiftDecl.Text.Quoted

/-!
# SwiftDecl.Style

The choices that a Swift text depends on, and the texts that fit into one line under them: types,
constraints, parameters, and the first lines of declarations. One of the choices is how names are
spelled. A `NameRenderer` is any pair of functions; `swiftNames` is the usual one, which puts
reserved words into backticks.
-/

namespace SwiftDecl

structure NameRenderer where
  typeName : TypeRef → String
  identifier : String → String

/-- The words that cannot be used as identifiers without backticks. -/
def reservedWords : List String := [
  "associatedtype", "class", "deinit", "enum", "extension", "fileprivate", "func", "import",
  "init", "inout", "internal", "let", "operator", "private", "precedencegroup", "protocol",
  "public", "rethrows", "static", "struct", "subscript", "typealias", "var", "break", "case",
  "catch", "continue", "default", "defer", "do", "else", "fallthrough", "for", "guard", "if",
  "in", "repeat", "return", "throw", "switch", "where", "while", "Any", "as", "false", "is",
  "nil", "self", "Self", "super", "throws", "true", "try"]

def escapedIdentifier (name : String) : String :=
  if name ∈ reservedWords then "`" ++ name ++ "`" else name

def swiftNames : NameRenderer where
  typeName := TypeRef.display
  identifier := escapedIdentifier

/-- Puts a module before plain type names; other types and identifiers stay as they are. -/
def qualifiedNames (module : String) : NameRenderer where
  typeName
    | .named name => module ++ "." ++ name
    | t => t.display
  identifier := id

structure Style where
  /-- Between a type or a constrained name and what it conforms to. -/
  conformanceSeparator : String := " : "
  /-- Between the items of conformances, parameters, generic parameters and constraints. -/
  listSeparator : String := ", "
  /-- Between a variable and its type. -/
  propertySeparator : String := " : "
  indent : Indent := .swift
  names : NameRenderer := swiftNames

namespace Style

def describe (s : Style) : String :=
  let indent :=
    match s.indent with
    | .spaces width => "Spaces(" ++ toString width ++ ")"
    | .tab => "Tab"
  "Configuration \x7b type_conformance_separator: " ++ Text.quoted s.conformanceSeparator ++
    ", identifier_list_separator: " ++ Text.quoted s.listSeparator ++
    ", property_type_separator: " ++ Text.quoted s.propertySeparator ++
    ", indent: " ++ indent ++ ", .. \x7d"

def type (s : Style) (t : TypeRef) : String := s.names.typeName t

def identifier (s : Style) (name : String) : String := s.names.identifier name

def list (s : Style) (items : List String) : String := Text.separated s.listSeparator items

def constraint (s : Style) : GenericConstraint → String
  | .conformance name t => s.identifier name ++ s.conformanceSeparator ++ s.type t
  | .sameType name t => s.identifier name ++ " == " ++ s.type t

/-- A word that stands in the text only under a condition. -/
def word (present : Bool) (text : String) : String := if present then text else ""

/-- A part that stands in the text only if there is something to say. -/
def part {α : Type} (item : Option α) (text : α → String) : String :=
  match item with
  | none => ""
  | some a => text a

def parameter (s : Style) (p : Parameter) : String :=
  (match p.label with
    | some label =>
      if label = p.name then s.identifier p.name else label ++ " " ++ s.identifier p.name
    | none => s.identifier p.name) ++
  ": " ++ word p.isInout "inout " ++ s.type p.type ++
  part p.defaultValue fun e => " = " ++ e.swift

/-- What a type conforms to, after the separator. -/
def conformances (s : Style) : List TypeRef → String
  | [] => ""
  | ts => s.conformanceSeparator ++ s.list (ts.map s.type)

/-- Generic parameters between angle brackets, spelled as they were given. -/
def genericParameters (s : Style) : List String → String
  | [] => ""
  | names => "<" ++ s.list names ++ ">"

def signature (s : Style) (f : FunctionDecl) (omitPublic isStatic : Bool) : String :=
  word (f.isPublic && !omitPublic) "public " ++ word isStatic "static " ++
  "func " ++ s.identifier f.name ++ s.genericParameters f.genericParameters ++
  "(" ++ s.list (f.parameters.map s.parameter) ++ ")" ++
  word f.isAsync " async" ++ word f.canThrow " throws" ++
  part f.returnType fun t => " -> " ++ s.type t

def variableLine (s : Style) (v : Variable) (omitPublic isStatic : Bool) : String :=
  word (v.isPublic && !omitPublic) "public " ++ word isStatic "static " ++
  (if v.isReadonly then "let " else "var ") ++ s.identifier v.name ++
  (part v.type fun t => s.propertySeparator ++ s.type t) ++
  part v.value fun e => " = " ++ e.swift

def typeAlias (s : Style) (a : TypeAlias) : String :=
  word a.isPublic "public " ++ "typealias " ++ s.identifier a.name ++ " = " ++ s.type a.type

def typeHeader (s : Style) (d : TypeDecl) (omitPublic : Bool) : String :=
  word (d.isPublic && !omitPublic) "public " ++ d.kind.keyword ++ " " ++ s.identifier d.name ++
  s.conformances d.conformances

/-- An extension that adds conformances has no visibility of its own. -/
def extensionHeader (s : Style) (e : Extension) : String :=
  word (e.isPublic && e.conformances.isEmpty) "public " ++ "extension " ++ s.type e.extendedType ++
  s.conformances e.conformances

def whereClause (s : Style) (cs : List GenericConstraint) : String :=
  "where " ++ s.list (cs.map s.constraint)

end Style
end SwiftDecl
