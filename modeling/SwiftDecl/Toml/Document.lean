import SwiftDecl.Toml.Value

/-!
# SwiftDecl.Toml.Document

A TOML text as data: its lines as statements, and what the statements build. The tables of the
data have their members in ascending order of the keys.
-/

namespace SwiftDecl
namespace Toml

open Text (Rest rest?)

inductive Statement where
  | table (key : Key)
  /-- A new element of an array of tables. -/
  | element (key : Key)
  | assign (key : Key) (value : Data)

/-- What stands between the brackets of a header. -/
def headerKey (cs : List Char) : Option (Key × List Char) :=
  (key (skipBlanks cs)).map fun (k, ⟨rest, _⟩) => (k, skipBlanks rest)

def statement (cs : List Char) : Option (Statement × List Char) :=
  match cs with
  | '[' :: '[' :: rest =>
    match headerKey rest with
    | some (k, ']' :: ']' :: rest) => some (.element k, rest)
    | _ => none
  | '[' :: rest =>
    match headerKey rest with
    | some (k, ']' :: rest) => some (.table k, rest)
    | _ => none
  | cs =>
    match headerKey cs with
    | some (k, '=' :: rest) =>
      (value 0 (skipBlanks rest)).map fun (d, ⟨rest, _⟩) => (.assign k d, rest)
    | _ => none

/-- The statements of a text, each on a line of its own. -/
def statements (cs : List Char) : Option (List Statement) :=
  have hs := length_skipSpace_le false cs
  match he : skipSpace false cs with
  | [] => some []
  | c :: rest =>
    match statement (c :: rest) with
    | none => none
    | some (s, rest₁) =>
      match rest? (c :: rest) rest₁ with
      | none => none
      | some ⟨rest₁, h₁⟩ =>
        match hl : nextLine? rest₁ with
        | none => none
        | some rest₂ =>
          have : rest₂.length < cs.length := by
            have := length_nextLine?_le hl
            rw [he] at hs
            omega
          (statements rest₂).map (s :: ·)
termination_by cs.length
decreasing_by omega

/-- All tables so far, and the path of the one that keys go to. -/
structure Document where
  root : Entries := []
  current : List String := []

namespace Document

def run (doc : Document) : Statement → Option Document
  | .table k =>
    (Entries.within false (Entries.openTable k.name) k.parents .header doc.root).map fun root =>
      ⟨root, k.path⟩
  | .element k =>
    (Entries.within false (Entries.openElement k.name) k.parents .header doc.root).map fun root =>
      ⟨root, k.path⟩
  | .assign k d =>
    (Entries.within false (Entries.assign k d) doc.current .header doc.root).map fun root =>
      { doc with root }

def toData (doc : Document) : Data := .table (Entries.toMembers doc.root) true

end Document

/-- The data of a text, if the text is TOML. A byte order mark may precede it. -/
def read (s : String) : Option Data :=
  let cs :=
    match s.toList with
    | '\ufeff' :: cs => cs
    | cs => cs
  match statements cs with
  | none => none
  | some ss => (ss.foldlM Document.run ({} : Document)).map Document.toData

end Toml
end SwiftDecl
