import SwiftDecl.Manifest.Basic

/-!
# SwiftDecl.Manifest.Summary

What a command tells its user, and what a manifest would emit in a few lines. Without extensions
there is only a warning.
-/

namespace SwiftDecl

/-- Lines of output, and warnings beside them. -/
structure Report where
  output : String := ""
  warnings : String := ""
  deriving DecidableEq

namespace Report

def line (text : String) : Report := { output := text ++ "\n" }

def warning (text : String) : Report := { warnings := "warning: " ++ text ++ "\n" }

def append (a b : Report) : Report := ⟨a.output ++ b.output, a.warnings ++ b.warnings⟩

instance : Append Report := ⟨append⟩

/-- Lines one after the other. -/
def lines (texts : List String) : Report := { output := String.join (texts.map (· ++ "\n")) }

/-- A number with its noun, which gets a plural `s`. -/
def counted (n : Nat) (noun : String) : String :=
  toString n ++ " " ++ noun ++ if n = 1 then "" else "s"

end Report

def Extension.summary (e : Extension) : String :=
  e.extendedType.display ++
  (match e.conformances with
    | [] => ""
    | ts => " : " ++ Text.separated ", " (ts.map TypeRef.display)) ++
  " (" ++ Report.counted e.memberCount "member" ++ ")" ++
  match e.gates with
  | [] => ""
  | gates => " [" ++ Text.separated " && " gates ++ "]"

namespace Manifest

def importSummary : List String → Report
  | [] => {}
  | modules => Report.lines ("  imports:" :: modules.map ("    " ++ ·) ++ [""])

/-- The report on a manifest that was read from `path`. -/
def summary (m : Manifest) (path : String) : Report :=
  Report.line ("✓ " ++ path ++ " is valid") ++
  match m.extensions with
  | [] => Report.warning "no [[extension]] tables, nothing will be emitted"
  | es =>
    Report.line "" ++ importSummary m.imports ++
    Report.lines (("  " ++ Report.counted es.length "extension" ++ ":") ::
      es.map fun e => "    " ++ e.summary)

end Manifest
end SwiftDecl
