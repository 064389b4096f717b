import SwiftDecl.CommandLine.Run
import SwiftDecl.SourceFile

/-!
# SwiftDecl.Main

The program: its arguments, files and streams.
-/

namespace SwiftDecl

/-- Files on the disk. -/
def disk : Storage IO where
  read path := try return some (← IO.FS.readBinFile path) catch _ => return none
  isPresent path :=
    try
      let _ ← IO.FS.realPath path
      return true
    catch _ => return false
  write path text :=
    try
      match (Path.ofString path).parent with
      | none => pure ()
      | some parent => if !parent.isEmpty then IO.FS.createDirAll parent.toString
      IO.FS.writeFile path text
      return true
    catch _ => return false

end SwiftDecl

def main (args : List String) : IO UInt32 := do
  let result ← SwiftDecl.CommandLine.run SwiftDecl.disk args
  IO.print result.report.output
  IO.eprint result.report.warnings
  return UInt32.ofNat result.exitCode
