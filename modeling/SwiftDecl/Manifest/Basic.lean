import SwiftDecl.Buffer
import SwiftDecl.Declaration
import SwiftDecl.Number.Digits

/-!
# SwiftDecl.Manifest.Basic

What a manifest says: how to format the output, what to import, and the extensions to emit.
-/

namespace SwiftDecl

/-- An indent as a manifest gives it. -/
inductive IndentSetting where
  | width (spaces : Int64)
  | name (text : String)
  deriving DecidableEq

namespace Indent

/-- The supported widths. -/
def ofWidth (width : Int64) : Option Indent :=
  if width = 2 ∨ width = 3 ∨ width = 4 ∨ width = 8 then some (.spaces width.toInt.toNat) else none

/-- `tab` in any mixture of cases, or a supported width. -/
def parse (s : String) : Option Indent :=
  if s.toList.map Char.toLower = ['t', 'a', 'b'] then some .tab
  else (Number.readInt64 s.toList).bind ofWidth

def parseError (s : String) : String :=
  "invalid indent '" ++ s ++ "', expected 2, 3, 4, 8 or 'tab'"

end Indent

namespace IndentSetting

/-- The indent that the setting stands for, if it is supported. -/
def resolve : IndentSetting → Option Indent
  | .width w => Indent.ofWidth w
  | .name s => Indent.parse s

def display : IndentSetting → String
  | .width w => toString w.toInt
  | .name s => s

end IndentSetting

/-- Formatting options; those that are absent keep their usual values. -/
structure FormatOptions where
  indent : Option IndentSetting := none
  conformanceSeparator : Option String := none
  listSeparator : Option String := none
  propertySeparator : Option String := none
  /-- A comment at the top of generated files. -/
  header : Option String := none

structure Manifest where
  format : FormatOptions := {}
  /-- Modules that the generated file imports. -/
  imports : List String := []
  /-- In the order in which they are emitted. -/
  extensions : List Extension := []

/-- The supported indent of the manifest, if it sets one. -/
def Manifest.indent (m : Manifest) : Option Indent := m.format.indent.bind IndentSetting.resolve

end SwiftDecl
