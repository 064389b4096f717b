import SwiftDecl.SourceFile

/-!
# SwiftDecl.Storage.FileTree

A tree of directories and files in memory. Places in it are lists of names from the root, which is
always there; relative paths start at `home`.
-/

namespace SwiftDecl

inductive FileTree.Entry where
  | directory
  | file (content : ByteArray)

structure FileTree where
  home : List String
  entries : List (List String × FileTree.Entry)

namespace FileTree

/-- An empty home directory. -/
def empty : FileTree := ⟨["home"], [(["home"], .directory)]⟩

def set (t : FileTree) (place : List String) (e : Entry) : FileTree :=
  { t with entries := (place, e) :: t.entries.filter fun x => x.1 != place }

/-- What stands at the end of some steps that start in the directory `here`. -/
def locate (t : FileTree) : List String → List String → Option Entry
  | _, [] => some .directory
  | here, step :: steps =>
    if step = "." then locate t here steps
    else if step = ".." then locate t here.dropLast steps
    else
      match t.entries.lookup (here ++ [step]), steps with
      | none, _ => none
      | some .directory, steps => locate t (here ++ [step]) steps
      | some (.file content), [] => some (.file content)
      | some (.file _), _ :: _ => none

def start (t : FileTree) (p : Path) : List String := if p.isAbsolute then [] else t.home

/-- A path has less than 4096 bytes and no NUL. -/
def isUsable (path : String) : Bool :=
  decide (path.utf8ByteSize < 4096) && !path.toList.contains '\x00'

/-- A name has at most 255 bytes. -/
def isName (step : String) : Bool := decide (step.utf8ByteSize ≤ 255)

/-- What stands at a path. -/
def find (t : FileTree) (path : String) : Option Entry :=
  let p := Path.ofString path
  if p.isEmpty || !isUsable path then none
  else
    match t.locate (t.start p) p.steps with
    | some (.file content) => if p.endsInSlash then none else some (.file content)
    | found => found

/-- Follows steps from the directory `here` and makes the directories that are missing. Returns
the place that was reached, unless a file is in the way. -/
def reach (t : FileTree) : List String → List String → FileTree × Option (List String)
  | here, [] => (t, some here)
  | here, step :: steps =>
    if step = "." then reach t here steps
    else if step = ".." then reach t here.dropLast steps
    else
      match t.entries.lookup (here ++ [step]) with
      | some .directory => reach t (here ++ [step]) steps
      | some (.file _) => (t, none)
      | none =>
        if isName step then reach (t.set (here ++ [step]) .directory) (here ++ [step]) steps
        else (t, none)

/-- Writes a file in the directory `here`, if no directory has its name. -/
def put (t : FileTree) (here : List String) (name : String) (text : String) : FileTree × Bool :=
  if name = "." ∨ name = ".." ∨ !isName name then (t, false)
  else
    match t.entries.lookup (here ++ [name]) with
    | some .directory => (t, false)
    | _ => (t.set (here ++ [name]) (.file text.toUTF8), true)

/-- Writes a file and makes the directories that lead to it. Those stay even if there is no way to
write the file. -/
def write (t : FileTree) (path : String) (text : String) : FileTree × Bool :=
  let p := Path.ofString path
  match p.steps.getLast? with
  | none => (t, false)
  | some name =>
    if !isUsable (Path.beforeLastStep path) then (t, false)
    else
      match t.reach (t.start p) p.steps.dropLast with
      | (t, none) => (t, false)
      | (t, some here) =>
        if p.endsInSlash || !isUsable path then (t, false) else t.put here name text

def read (t : FileTree) (path : String) : Option ByteArray :=
  match t.find path with
  | some (.file content) => some content
  | _ => none

def storage : Storage (StateM FileTree) where
  read path t := (t.read path, t)
  isPresent path t := ((t.find path).isSome, t)
  write path text t :=
    let (t, done) := t.write path text
    (done, t)

/-- The files below the home directory, by their names from there. -/
def files (t : FileTree) : List (List String × ByteArray) :=
  t.entries.filterMap fun
    | (place, .file content) =>
      if t.home.isPrefixOf place then some (place.drop t.home.length, content) else none
    | (_, .directory) => none

end FileTree
end SwiftDecl
