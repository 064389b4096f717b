import SwiftDecl.Manifest.Basic
import SwiftDecl.Text.Alphanumeric

/-!
# SwiftDecl.Manifest.Validation

What a manifest that can be read may still get wrong. A declaration is looked at before its
members, and the first defect counts. A name must look like an identifier: a letter or an
underscore, then letters, numbers and underscores, all of it perhaps between one pair of backticks.
-/

namespace SwiftDecl

/-- Why a name is no identifier. -/
inductive NameFlaw where
  | empty
  | badStart (c : Char)
  | badChar (c : Char)
  deriving DecidableEq

namespace NameFlaw

def reason : NameFlaw → String
  | .empty => "name cannot be empty"
  | .badStart c => "name cannot start with '" ++ String.singleton c ++ "'"
  | .badChar c => "name cannot contain '" ++ String.singleton c ++ "'"

/-- A name without the backticks around it. A single backtick is not a pair. -/
def bare : List Char → List Char
  | '\x60' :: cs => if cs.getLast? = some '\x60' then cs.dropLast else '\x60' :: cs
  | cs => cs

def isStart (c : Char) : Bool := Text.isAlphabetic c || c == '_'

def isPart (c : Char) : Bool := Text.isAlphanumeric c || c == '_'

def ofChars : List Char → Option NameFlaw
  | [] => some .empty
  | c :: cs =>
    if !isStart c then some (.badStart c)
    else (cs.find? fun c => !isPart c).map .badChar

/-- The first flaw of a name. -/
def ofName (name : String) : Option NameFlaw := ofChars (bare name.toList)

end NameFlaw

inductive Defect where
  | unsupportedIndent (setting : IndentSetting)
  | emptySeparator (key : String)
  | unsupportedVersion (version : SwiftVersion) (extendedType : String)
  /-- `path` leads to the declaration that the name belongs to. -/
  | badName (name kind : String) (path : List String) (flaw : NameFlaw)
  deriving DecidableEq

namespace Defect

def ofName (path : List String) (kind name : String) : Option Defect :=
  (NameFlaw.ofName name).map (.badName name kind path)

/-- An underscore stands for no label at all. -/
def ofLabel (path : List String) : Option String → Option Defect
  | none => none
  | some label => if label = "_" then none else ofName path "parameter label" label

def ofSeparator (key : String) (value : Option String) : Option Defect :=
  if value = some "" then some (.emptySeparator key) else none

def ofIndent : Option IndentSetting → Option Defect
  | none => none
  | some setting => if setting.resolve.isNone then some (.unsupportedIndent setting) else none

/-- Conditions on the language version can be written from version 5 on. -/
def ofVersion (extendedType : String) : Option SwiftVersion → Option Defect
  | none => none
  | some v => if v.major < 5 then some (.unsupportedVersion v extendedType) else none

end Defect

/-- The separator between a variable and its type is not looked at. -/
def FormatOptions.defect (f : FormatOptions) : Option Defect :=
  Defect.ofIndent f.indent <|>
  Defect.ofSeparator "identifier_list_separator" f.listSeparator <|>
  Defect.ofSeparator "type_conformance_separator" f.conformanceSeparator

def TypeAlias.defect (path : List String) (a : TypeAlias) : Option Defect :=
  Defect.ofName path "type alias" a.name

def Variable.defect (path : List String) (v : Variable) : Option Defect :=
  Defect.ofName path "variable" v.name

def Parameter.defect (path : List String) (p : Parameter) : Option Defect :=
  Defect.ofName path "parameter" p.name <|> Defect.ofLabel path p.label

def FunctionDecl.defect (path : List String) (f : FunctionDecl) : Option Defect :=
  let inner := path ++ [f.name]
  Defect.ofName path "function" f.name <|>
  f.genericParameters.findSome? (Defect.ofName inner "generic parameter") <|>
  f.parameters.findSome? (Parameter.defect inner)

mutual
def TypeDecl.defect (path : List String) : TypeDecl → Option Defect
  | ⟨name, _, _, _, _, aliases, typeVariables, instanceVariables, nested, typeFunctions,
      functions⟩ =>
    let inner := path ++ [name]
    Defect.ofName path "type" name <|>
    aliases.findSome? (TypeAlias.defect inner) <|>
    typeVariables.findSome? (Variable.defect inner) <|>
    instanceVariables.findSome? (Variable.defect inner) <|>
    TypeDecl.firstDefect inner nested <|>
    typeFunctions.findSome? (FunctionDecl.defect inner) <|>
    functions.findSome? (FunctionDecl.defect inner)

def TypeDecl.firstDefect (path : List String) : List TypeDecl → Option Defect
  | [] => none
  | d :: ds => d.defect path <|> TypeDecl.firstDefect path ds
end

def Extension.defect (e : Extension) : Option Defect :=
  let path := [e.extendedType.display]
  Defect.ofVersion e.extendedType.display e.minimumVersion <|>
  e.requiredImports.findSome? (Defect.ofName path "required import") <|>
  TypeDecl.firstDefect path e.typeDecls <|>
  e.typeVariables.findSome? (Variable.defect path) <|>
  e.typeFunctions.findSome? (FunctionDecl.defect path) <|>
  e.functions.findSome? (FunctionDecl.defect path)

def Manifest.defect (m : Manifest) : Option Defect :=
  m.format.defect <|>
  m.imports.findSome? (Defect.ofName [] "import") <|>
  m.extensions.findSome? Extension.defect

end SwiftDecl
