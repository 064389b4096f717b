import SwiftDecl.Manifest.Basic
import SwiftDecl.Model.Reading

/-!
# SwiftDecl.Manifest.Reading

Manifests from data. Unlike declarations, a manifest and its format have no room for members that
they do not know.
-/

namespace SwiftDecl
namespace Manifest

open Model

def readIndent (d : Data) : Except Fault IndentSetting :=
  match survey .toml d with
  | .error e => .error e
  | .ok () =>
    match d with
    | .integer i =>
      if Number.isInt64 i then .ok (.width (Int64.ofInt i))
      else .error (.noVariant "IndentSetting")
    | .string s => .ok (.name s)
    | _ => .error (.noVariant "IndentSetting")

def formatShape : Shape FormatOptions where
  title := "Format"
  fields := [⟨"indent", false⟩, ⟨"type_conformance_separator", false⟩,
    ⟨"identifier_list_separator", false⟩, ⟨"property_type_separator", false⟩, ⟨"header", false⟩]
  isStrict := true
  blank := {}

def setFormat (key : String) (d : Data) (f : FormatOptions) : Except Fault FormatOptions :=
  let text := readOption (readText .toml) d
  match key with
  | "indent" => (readOption readIndent d).map fun x => { f with indent := x }
  | "type_conformance_separator" => text.map fun x => { f with conformanceSeparator := x }
  | "identifier_list_separator" => text.map fun x => { f with listSeparator := x }
  | "property_type_separator" => text.map fun x => { f with propertySeparator := x }
  | "header" => text.map fun x => { f with header := x }
  | _ => .ok f

def readFormat : Data → Except Fault FormatOptions := formatShape.read .toml setFormat

def shape : Shape Manifest where
  title := "Manifest"
  fields := [⟨"format", false⟩, ⟨"imports", false⟩, ⟨"extension", false⟩]
  isStrict := true
  blank := {}

def setMember (key : String) (d : Data) (m : Manifest) : Except Fault Manifest :=
  match key with
  | "format" => (readFormat d).map fun x => { m with format := x }
  | "imports" => (readList .toml (readText .toml) d).map fun x => { m with imports := x }
  | "extension" => (readList .toml (readExtension .toml) d).map fun x => { m with extensions := x }
  | _ => .ok m

def ofData : Data → Except Fault Manifest := shape.read .toml setMember

end Manifest
end SwiftDecl
