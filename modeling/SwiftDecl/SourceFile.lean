import SwiftDecl.Text.Basic

/-!
# SwiftDecl.SourceFile

Generated files and the paths to them. A path is read as steps between slashes: empty steps do not
count, nor does a single dot unless the path starts with it. A file has content, perhaps below a
comment block, and it may or may not replace a file that is already there. Files are reached through
a `Storage`, so that writing works alike on a disk and on a tree in memory.
-/

namespace SwiftDecl

structure Path where
  isAbsolute : Bool
  steps : List String
  /-- The text ends in a way that only a directory can be meant. -/
  endsInSlash : Bool
  deriving DecidableEq

namespace Path

/-- The texts between the slashes. -/
def parts (s : String) : List String := (Text.pieces '/' s.toList).map String.ofList

def ofString (s : String) : Path :=
  let parts := parts s
  let isAbsolute := parts.length > 1 && parts.head? == some ""
  let named := parts.filter fun part => part != "" && part != "."
  let steps := if parts.head? == some "." then "." :: named else named
  ⟨isAbsolute, steps,
    parts.length > 1 && (parts.getLast? == some "" || parts.getLast? == some ".")⟩

/-- The path leads nowhere, not even to the place where it starts. -/
def isEmpty (p : Path) : Bool := !p.isAbsolute && p.steps.isEmpty

/-- The path without its last step. -/
def parent (p : Path) : Option Path :=
  if p.steps.isEmpty then none else some ⟨p.isAbsolute, p.steps.dropLast, false⟩

/-- The text of a path up to its last step, without the slashes and dots around that step. -/
def beforeLastStep (s : String) : String :=
  let isBlank := fun part => part == "" || part == "."
  let leading := ((parts s).reverse.dropWhile isBlank).drop 1
  Text.separated "/" (leading.dropWhile isBlank).reverse

def toString (p : Path) : String :=
  (if p.isAbsolute then "/" else "") ++ Text.separated "/" p.steps

end Path

/-- Access to files by their paths. -/
structure Storage (m : Type → Type) where
  /-- The bytes of a file that can be read. -/
  read : String → m (Option ByteArray)
  /-- Something stands at the path. -/
  isPresent : String → m Bool
  /-- Writes a file and makes the directories that lead to it; false if that fails. -/
  write : String → String → m Bool

structure SourceFile where
  path : String
  content : String
  /-- Text of the comment block. -/
  header : Option String := none
  /-- A file that is already there stays as it is. -/
  keepsExisting : Bool := false

namespace SourceFile

def commentLine (line : String) : String := if line.isEmpty then "//\n" else "//  " ++ line ++ "\n"

/-- One comment line for each line of the text, an empty one, and a blank line. -/
def commentBlock (header : String) : String :=
  String.join ((Text.lines header).map commentLine) ++ "//\n\n"

def render (f : SourceFile) : String :=
  match f.header with
  | none => f.content
  | some header => commentBlock header ++ f.content

inductive Outcome where
  | written
  | skipped
  | failed
  deriving DecidableEq

def write {m : Type → Type} [Monad m] (storage : Storage m) (f : SourceFile) : m Outcome := do
  if f.keepsExisting && (← storage.isPresent f.path) then return .skipped
  if ← storage.write f.path f.render then return .written
  return .failed

end SourceFile
end SwiftDecl
