import SwiftDecl.Emit.Toplevel
import SwiftDecl.Manifest.Basic
import SwiftDecl.SourceFile

/-!
# SwiftDecl.Manifest.Rendering

The Swift text of a manifest: its imports, its extensions, and above them its header.
-/

namespace SwiftDecl
namespace Manifest

/-- The style that the manifest asks for. An indent that is given goes before its own. -/
def style (m : Manifest) (indent : Option Indent) : Style :=
  let usual : Style := {}
  { usual with
    indent := (indent <|> m.indent).getD usual.indent
    conformanceSeparator := m.format.conformanceSeparator.getD usual.conformanceSeparator
    listSeparator := m.format.listSeparator.getD usual.listSeparator
    propertySeparator := m.format.propertySeparator.getD usual.propertySeparator }

def importLine (module : String) : String := "import " ++ module ++ "\n"

/-- Two texts with a blank line between them, if neither is empty. -/
def apart (a b : String) : String := if a.isEmpty || b.isEmpty then a ++ b else a ++ "\n" ++ b

/-- The text with a line feed at its end, unless it is empty. -/
def ended (s : String) : String :=
  match s.toList.getLast? with
  | none => s
  | some c => if c = '\n' then s else s ++ "\n"

/-- Imports and extensions. -/
def render (m : Manifest) (s : Style) : Except Abort String :=
  match Emit.declarations s (m.extensions.map .extension) (Buffer.new s.indent) with
  | .error a => .error a
  | .ok b => .ok (ended (apart (String.join (m.imports.map importLine)) b.text))

end Manifest
end SwiftDecl
