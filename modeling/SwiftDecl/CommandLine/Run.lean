import SwiftDecl.CommandLine.Arguments
import SwiftDecl.Json.Printer
import SwiftDecl.Manifest.Summary
import SwiftDecl.Model.Writing

/-!
# SwiftDecl.CommandLine.Run

Running a command. Wrong arguments end with code 2, anything else that goes wrong with code 1. The
text of the help, the completion scripts for the shells and what is said about wrong arguments are
left out: nothing is printed in their place.
-/

namespace SwiftDecl
namespace CommandLine

structure Result where
  exitCode : Nat := 0
  report : Report := {}

def versionText : String := "lantern 0.3.0\n"

def failure (exitCode : Nat) (message : String) : Result :=
  ⟨exitCode, { warnings := "error: " ++ message ++ "\n" }⟩

def printed (text : String) : Result := { report := { output := text } }

def ofProblem (p : Problem) : Result :=
  failure 1 (p.message ++ Style.part p.help fun help => "\nhelp: " ++ help)

/-- The declarations of the extensions as JSON. -/
def modelText (m : Manifest) : String :=
  Json.pretty 0 (.array (m.extensions.map Extension.toData) true) ++ "\n"

variable {μ : Type → Type} [Monad μ]

def runCommand (storage : Storage μ) : Command → μ Result
  | .help => return {}
  | .version => return printed versionText
  | .completions _ => return {}
  | .check path => do
    match ← Manifest.load storage path with
    | .error p => return ofProblem p
    | .ok m => return { report := m.summary path }
  | .emit path dumpModel options => do
    match ← Manifest.load storage path with
    | .error p => return ofProblem p
    | .ok m =>
      if dumpModel then return printed (modelText m)
      match ← m.emit storage options with
      | .error e => return failure 1 e.message
      | .ok emission => return { report := emission.report m.extensions.length }

def run (storage : Storage μ) (args : List String) : μ Result :=
  match parse args with
  | none => return { exitCode := 2 }
  | some command => runCommand storage command

end CommandLine
end SwiftDecl
