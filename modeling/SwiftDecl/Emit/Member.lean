import SwiftDecl.Buffer
import SwiftDecl.Style
import SwiftDecl.Text.Blank

/-!
# SwiftDecl.Emit.Member

Writing comments, variables, functions and type declarations. Each of these adds whole lines, at
the depth of the buffer and, for what stands between braces, one level deeper.
-/

namespace SwiftDecl
namespace Emit

/-- Writes the lines one after another. -/
def writeLines (ls : List String) (b : Buffer) : Buffer := ls.foldl (fun b l => b.writeln l) b

/-- A line of documentation, without blanks at its end. -/
def commentLine (l : String) : String :=
  if (Text.trim l).isEmpty then "///" else "/// " ++ Text.trimEnd l

def comment (text : String) (b : Buffer) : Buffer :=
  writeLines ((Text.lines text).map commentLine) b

def optionalComment (text : Option String) (b : Buffer) : Buffer :=
  match text with
  | none => b
  | some text => comment text b

/-- The first line of a block, up to its brace. A `where` clause stands on a line of its own and
moves the brace to the line after it. -/
def openBlock (s : Style) (header : String) (cs : List GenericConstraint) (b : Buffer) : Buffer :=
  let b := b.appendIndent.append header
  if cs.isEmpty then (b.append " \x7b").appendEol
  else (b.appendEol.indented (·.writeln (s.whereClause cs))).writeln "\x7b"

def closeBlock (b : Buffer) : Buffer := b.writeln "\x7d"

/-- One item of a function body: an empty line, or all the lines of the item. -/
def bodyItem (item : String) (b : Buffer) : Buffer :=
  if item.isEmpty then b.writeln "" else writeLines (Text.lines item) b

def writelnIf (present : Bool) (l : String) (b : Buffer) : Buffer :=
  if present then b.writeln l else b

def function (s : Style) (f : FunctionDecl) (omitPublic isStatic : Bool) (b : Buffer) : Buffer :=
  optionalComment f.comment b
  |> writelnIf f.isInlinable "@inlinable"
  |> writelnIf f.hasDiscardableResult "@discardableResult"
  |> openBlock s (s.signature f omitPublic isStatic) f.constraints
  |> Buffer.indented (fun b => f.body.foldl (fun b item => bodyItem item b) b)
  |> closeBlock

/-- Functions with a blank line before each. -/
def functions (s : Style) (fs : List FunctionDecl) (omitPublic isStatic : Bool) (b : Buffer) :
    Buffer :=
  fs.foldl (fun b f => function s f omitPublic isStatic b.blank) b

def variableDecl (s : Style) (v : Variable) (omitPublic isStatic : Bool) (b : Buffer) : Buffer :=
  (optionalComment v.comment b).writeln (s.variableLine v omitPublic isStatic)

/-- Variables one after another, with a blank line after each that has a comment and a
successor. -/
def variablesAfter (s : Style) (isStatic : Bool) (afterComment : Bool) :
    List Variable → Buffer → Buffer
  | [], b => b
  | v :: vs, b =>
    let b := if afterComment then b.blank else b
    variablesAfter s isStatic v.comment.isSome vs (variableDecl s v false isStatic b)

/-- A group of variables after a blank line; no line at all for an empty group. -/
def variableGroup (s : Style) (vs : List Variable) (isStatic : Bool) (b : Buffer) : Buffer :=
  if vs.isEmpty then b else variablesAfter s isStatic false vs b.blank

def typeAlias (s : Style) (a : TypeAlias) (b : Buffer) : Buffer := b.writeln (s.typeAlias a)

/-- All the aliases after one blank line. -/
def aliasGroup (s : Style) (as : List TypeAlias) (b : Buffer) : Buffer :=
  if as.isEmpty then b else as.foldl (fun b a => typeAlias s a b) b.blank

mutual
/-- Members come in a fixed order: aliases, static variables, variables, nested types, static
functions, functions. Leaving out `public` concerns the type itself and none of its members. -/
def typeDecl (s : Style) : TypeDecl → Bool → Buffer → Buffer
  | d@⟨_, _, _, _, _, _, _, _, nested, _, _⟩, omitPublic, b =>
    optionalComment d.comment b
    |> openBlock s (s.typeHeader d omitPublic) []
    |> Buffer.indented (fun b =>
      aliasGroup s d.aliases b
      |> variableGroup s d.typeVariables true
      |> variableGroup s d.instanceVariables false
      |> nestedTypes s nested
      |> functions s d.typeFunctions false true
      |> functions s d.functions false false)
    |> closeBlock

/-- Types with a blank line before each. -/
def nestedTypes (s : Style) : List TypeDecl → Buffer → Buffer
  | [], b => b
  | d :: ds, b => nestedTypes s ds (typeDecl s d false b.blank)
end

end Emit
end SwiftDecl
