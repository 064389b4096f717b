import SwiftDecl.Emit.Member

/-!
# SwiftDecl.Emit.Toplevel

Writing extensions with their compilation gates, and sequences of declarations. An extension for a
language version below 5.0 cannot be written: it aborts, with the text before it kept.
-/

namespace SwiftDecl
namespace Emit

/-- The import that restricts an extension to certain platforms. Only this exact name does. -/
def concurrencyModule : String := "_Concurrency"

def concurrencyAvailability : String := "@available(macOS 10.15, iOS 13, tvOS 13, watchOS 6, *)"

def versionAbort (v : SwiftVersion) : String :=
  "minimum Swift version of an extension must be 5.0 or later, got " ++ v.display

def importChecks (names : List String) : String :=
  Text.separated " && " (names.map fun name => "canImport(" ++ name ++ ")")

/-- Gates and availability before the header of an extension. -/
def openGates (e : Extension) (b : Buffer) : Buffer :=
  let b :=
    match e.minimumVersion with
    | none => b
    | some v => b.writeln ("#if swift(>=" ++ v.display ++ ")")
  let b :=
    if e.requiredImports.isEmpty then b
    else b.writeln ("#if " ++ importChecks e.requiredImports)
  writelnIf (e.requiredImports.contains concurrencyModule) concurrencyAvailability b

def closeGates (e : Extension) (b : Buffer) : Buffer :=
  let b := writelnIf (!e.requiredImports.isEmpty) "#endif // required canImports" b
  match e.minimumVersion with
  | none => b
  | some v => b.writeln ("#endif // swift(>=" ++ v.display ++ ")")

/-- Types with a blank line before each. -/
def typeDecls (s : Style) (ds : List TypeDecl) (omitPublic : Bool) (b : Buffer) : Buffer :=
  ds.foldl (fun b d => typeDecl s d omitPublic b.blank) b

/-- The members of an extension. In a public extension they leave out their own `public`. -/
def members (s : Style) (e : Extension) (b : Buffer) : Buffer :=
  typeDecls s e.typeDecls e.isPublic b
  |> variableGroup s e.typeVariables true
  |> functions s e.typeFunctions e.isPublic true
  |> functions s e.functions e.isPublic false

def gatedExtension (s : Style) (e : Extension) (b : Buffer) : Buffer :=
  openGates e b
  |> openBlock s (s.extensionHeader e) e.constraints
  |> Buffer.indented (members s e)
  |> closeBlock
  |> closeGates e

/-- The extension needs a language version that cannot be gated. -/
def isTooOld (v : SwiftVersion) : Bool := decide (v.major < 5)

def extension (s : Style) (e : Extension) (b : Buffer) : Except Abort Buffer :=
  let b := b.appendEolIfMissing
  match e.minimumVersion with
  | none => .ok (gatedExtension s e b)
  | some v => if isTooOld v then .error ⟨versionAbort v, b⟩ else .ok (gatedExtension s e b)

/-- A constraint by itself has no text. -/
def declaration (s : Style) : Declaration → Buffer → Except Abort Buffer
  | .extension e, b => extension s e b
  | .type d, b => .ok (typeDecl s d false b.appendEolIfMissing)
  | .function f, b => .ok (function s f false false b.appendEolIfMissing)
  | .variable v, b => .ok (variableDecl s v false false b.appendEolIfMissing)
  | .constraint _, b => .ok b

/-- Declarations with a blank line before each. -/
def moreDeclarations (s : Style) : List Declaration → Buffer → Except Abort Buffer
  | [], b => .ok b
  | d :: ds, b =>
    match declaration s d b.appendEolIfMissing.blank with
    | .error a => .error a
    | .ok b => moreDeclarations s ds b

/-- Declarations with a blank line between every two of them. -/
def declarations (s : Style) : List Declaration → Buffer → Except Abort Buffer
  | [], b => .ok b
  | d :: ds, b =>
    match declaration s d b with
    | .error a => .error a
    | .ok b => moreDeclarations s ds b

end Emit
end SwiftDecl
