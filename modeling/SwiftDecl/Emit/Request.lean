import SwiftDecl.Emit.Toplevel
import SwiftDecl.Script

/-!
# SwiftDecl.Emit.Request

Emission as the operations of a script.
-/

namespace SwiftDecl
namespace Emit

inductive Request where
  | declaration (d : Declaration)
  | declarations (ds : List Declaration)
  | extension (e : Extension)
  | type (d : TypeDecl) (omitPublic : Bool)
  | typeAlias (a : TypeAlias)
  | function (f : FunctionDecl) (omitPublic isStatic : Bool)
  | variable (v : Variable) (omitPublic isStatic : Bool)
  | comment (text : String)
  /-- Asks for the text of a type and writes nothing. -/
  | typeText (t : TypeRef)

def Request.apply (s : Style) : Script.Action Request String
  | .declaration d, b => (Emit.declaration s d b).map (·, none)
  | .declarations ds, b => (Emit.declarations s ds b).map (·, none)
  | .extension e, b => (Emit.extension s e b).map (·, none)
  | .type d omitPublic, b => .ok (typeDecl s d omitPublic b, none)
  | .typeAlias a, b => .ok (Emit.typeAlias s a b, none)
  | .function f omitPublic isStatic, b => .ok (Emit.function s f omitPublic isStatic b, none)
  | .variable v omitPublic isStatic, b => .ok (variableDecl s v omitPublic isStatic b, none)
  | .comment text, b => .ok (Emit.comment text b, none)
  | .typeText t, b => .ok (b, some (s.type t))

end Emit
end SwiftDecl
