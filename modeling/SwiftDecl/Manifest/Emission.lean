import SwiftDecl.Manifest.Problem
import SwiftDecl.Manifest.Rendering
import SwiftDecl.Manifest.Summary

/-!
# SwiftDecl.Manifest.Emission

Loading a manifest from a file, and emitting its Swift text to a file or to the user.
-/

namespace SwiftDecl
namespace Manifest

structure EmitOptions where
  /-- The file to write; without one, the text goes to the user. -/
  output : Option String := none
  /-- Goes before the indent of the manifest. -/
  indent : Option Indent := none
  keepsExisting : Bool := false

/-- Where the text went. -/
inductive Emission where
  | printed (source : String)
  | written (path : String)
  | skipped (path : String)

inductive EmitFault where
  | aborted (reason : Abort)
  | unwritable (path : String)

def EmitFault.message : EmitFault → String
  | .aborted reason => reason.message
  | .unwritable path => "Failed to write " ++ path

def Emission.report (extensionCount : Nat) : Emission → Report
  | .printed source => { output := source }
  | .written path =>
    Report.line ("✓ wrote " ++ path ++ " (" ++ Report.counted extensionCount "extension" ++ ")")
  | .skipped path => Report.warning (path ++ " already exists, skipped")

/-- The text of the manifest below its header. -/
def sourceFile (m : Manifest) (options : EmitOptions) : Except Abort SourceFile :=
  match m.render (m.style options.indent) with
  | .error a => .error a
  | .ok content => .ok {
      path := options.output.getD "-"
      content
      header := m.format.header
      keepsExisting := options.keepsExisting }

variable {μ : Type → Type} [Monad μ]

def emit (storage : Storage μ) (m : Manifest) (options : EmitOptions) :
    μ (Except EmitFault Emission) := do
  match m.sourceFile options with
  | .error a => return .error (.aborted a)
  | .ok file =>
    match options.output with
    | none => return .ok (.printed file.render)
    | some path =>
      match ← file.write storage with
      | .written => return .ok (.written path)
      | .skipped => return .ok (.skipped path)
      | .failed => return .error (.unwritable path)

/-- The manifest in a file. -/
def load (storage : Storage μ) (path : String) : μ (Except Problem Manifest) := do
  match (← storage.read path).bind String.fromUTF8? with
  | none => return .error (.unreadable path)
  | some source => return ofText source

end Manifest
end SwiftDecl
