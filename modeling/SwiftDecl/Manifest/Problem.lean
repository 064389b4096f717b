import SwiftDecl.Manifest.Reading
import SwiftDecl.Manifest.Validation
import SwiftDecl.Text.Blank
import SwiftDecl.Toml.Document

/-!
# SwiftDecl.Manifest.Problem

Loading a manifest, and what there is to say when that fails: a message, perhaps a code, some
help, and places in the text. A place is where a name or a key is likely to stand. It is found by
searching the text, so that it can be that of an earlier occurrence. Offsets count bytes, each line
end as one.
-/

namespace SwiftDecl

structure Place where
  offset : Nat
  length : Nat
  deriving DecidableEq

namespace Place

/-- The first occurrence of a value between double quotes, or else of the value alone. The place
of an empty value is its quotes. -/
def ofValue (source value : String) : Option Place :=
  let text := source.toList
  let cs := value.toList
  if cs.isEmpty then (Text.offsetOf ['"', '"'] text).map (⟨·, 2⟩)
  else
    match Text.offsetOf ('"' :: (cs ++ ['"'])) text with
    | some offset => some ⟨offset + 1, Text.byteLength cs⟩
    | none => (Text.offsetOf cs text).map (⟨·, Text.byteLength cs⟩)

/-- The line holds an assignment to the key. -/
def assigns (key line : List Char) : Bool :=
  match Text.afterStart key (Text.dropBlanks line) with
  | none => false
  | some rest => (Text.dropBlanks rest).head? == some '='

/-- The first line from `offset` on that assigns to the key, without the blanks around it. -/
def ofKeyFrom (offset : Nat) (key : List Char) : List (List Char) → Option Place
  | [] => none
  | line :: lines =>
    if assigns key line then
      let trimmed := Text.dropBlanks line
      some ⟨offset + (Text.byteLength line - Text.byteLength trimmed),
        Text.byteLength (Text.dropBlanksEnd trimmed)⟩
    else ofKeyFrom (offset + Text.byteLength line + 1) key lines

def ofKey (source key : String) : Option Place :=
  ofKeyFrom 0 key.toList (Text.splitLines source.toList)

end Place

namespace Defect

def context (kind : String) : List String → String
  | [] => kind
  | path => kind ++ " in '" ++ Text.separated "." path ++ "'"

def message : Defect → String
  | .unsupportedIndent setting => "invalid indent '" ++ setting.display ++ "'"
  | .emptySeparator key => key ++ " must not be empty"
  | .unsupportedVersion v extendedType =>
    "unsupported minimum Swift version '" ++ v.display ++ "' on extension of '" ++ extendedType ++
      "'"
  | .badName name kind path _ => "invalid " ++ context kind path ++ " name '" ++ name ++ "'"

def help : Defect → Option String
  | .unsupportedIndent _ => some "use a number of spaces (2, 3, 4 or 8) or \"tab\""
  | .emptySeparator _ => none
  | .unsupportedVersion _ _ =>
    some "version gates are emitted for Swift 5.0 and later, e.g. \"5.5\""
  | .badName _ _ _ flaw =>
    some (flaw.reason ++ ". Use only letters, numbers, and underscores, " ++
      "starting with a letter or underscore.")

def label : Defect → String
  | .unsupportedIndent _ => "unsupported indent"
  | .emptySeparator key => message (.emptySeparator key)
  | .unsupportedVersion _ _ => "must be 5.0 or later"
  | .badName _ _ _ _ => "invalid identifier"

def code : Defect → String
  | .unsupportedIndent _ => "lantern::invalid_indent"
  | .emptySeparator _ => "lantern::validation_error"
  | .unsupportedVersion _ _ => "lantern::swift_version"
  | .badName _ _ _ _ => "lantern::invalid_identifier"

def place (source : String) : Defect → Option Place
  | .unsupportedIndent _ => Place.ofKey source "indent"
  | .emptySeparator key => Place.ofKey source key
  | .unsupportedVersion v _ => Place.ofValue source v.display
  | .badName name _ _ _ => Place.ofValue source name

end Defect

inductive Problem where
  | unreadable (path : String)
  | syntaxError
  | mismatch (fault : Model.Fault)
  | defect (source : String) (defect : Defect)

namespace Problem

def message : Problem → String
  | .unreadable path => "failed to read '" ++ path ++ "'"
  | .syntaxError => "failed to parse manifest"
  | .mismatch _ => "failed to parse manifest"
  | .defect _ d => d.message

def code : Problem → Option String
  | .unreadable _ => none
  | .syntaxError => some "lantern::parse_error"
  | .mismatch _ => some "lantern::parse_error"
  | .defect _ d => some d.code

def help : Problem → Option String
  | .unreadable _ => some "create a lantern.toml with at least one [[extension]] table"
  | .syntaxError => none
  | .mismatch _ => none
  | .defect _ d => d.help

/-- Remarks on places in the text. -/
def labels : Problem → List (String × Place)
  | .defect source d =>
    match d.place source with
    | none => []
    | some place => [(d.label, place)]
  | _ => []

end Problem

namespace Manifest

/-- The manifest that a text holds, if it has no defect. -/
def ofText (source : String) : Except Problem Manifest :=
  match Toml.read source with
  | none => .error .syntaxError
  | some data =>
    match ofData data with
    | .error fault => .error (.mismatch fault)
    | .ok m =>
      match m.defect with
      | some d => .error (.defect source d)
      | none => .ok m

end Manifest
end SwiftDecl
