import SwiftDecl.Text.Basic
import SwiftDecl.Toml.Node
import SwiftDecl.Toml.Scalar
import SwiftDecl.Toml.Strings

/-!
# SwiftDecl.Toml.Value

Keys and values of a TOML text. The readers of containers return the text after the container
together with the proof that it is shorter.
-/

namespace SwiftDecl
namespace Toml

open Text (Rest rest?)

/-- Arrays and inline tables may be nested in one another this often, and a key may have as many
parts. -/
def depthLimit : Nat := 80

def isBareKeyChar (c : Char) : Bool := c.isAlphanum || c == '_' || c == '-'

def simpleKey (cs : List Char) : Option (String × List Char) :=
  match cs.takeWhile isBareKeyChar with
  | [] => lineString cs
  | word => some (String.ofList word, cs.dropWhile isBareKeyChar)

theorem length_skipBlanks_le (cs : List Char) : (skipBlanks cs).length ≤ cs.length :=
  (List.dropWhile_sublist _).length_le

/-- A key with dots between its parts, and blanks around the dots. -/
def dottedKey (cs : List Char) : Option (Key × Rest cs) :=
  match simpleKey cs with
  | none => none
  | some (name, rest) =>
    match rest? cs rest with
    | none => none
    | some ⟨rest, h⟩ =>
      have hb := length_skipBlanks_le rest
      match hd : skipBlanks rest with
      | '.' :: rest₁ =>
        have hb₁ := length_skipBlanks_le rest₁
        have : rest₁.length < cs.length := by
          rw [hd, List.length_cons] at hb
          omega
        match dottedKey (skipBlanks rest₁) with
        | none => none
        | some (k, ⟨rest₂, h₂⟩) =>
          some ({ k with parents := name :: k.parents }, ⟨rest₂, by omega⟩)
      | rest₁ => some (⟨[], name⟩, ⟨rest₁, by rw [← hd]; omega⟩)
termination_by cs.length
decreasing_by omega

/-- A key, the parts of which do not lead too deep. -/
def key (cs : List Char) : Option (Key × Rest cs) :=
  (dottedKey cs).filter fun k => k.1.path.length ≤ depthLimit

/-- The characters that end a bare word. A quote does not. -/
def wordEnds : List Char := ['=', ',', '[', ']', '\x7b', '\x7d', '#', ' ', '\t', '\r', '\n']

def isWordChar (c : Char) : Bool := !wordEnds.contains c

/-- A bare word. A date and a time may be two words with one blank between them. -/
def word (cs : List Char) : List Char × List Char :=
  let first := cs.takeWhile isWordChar
  let rest := cs.dropWhile isWordChar
  match afterDate first, rest with
  | some [], ' ' :: c :: more =>
    if c.isDigit then
      (first ++ ' ' :: (c :: more).takeWhile isWordChar, (c :: more).dropWhile isWordChar)
    else (first, rest)
  | _, _ => (first, rest)

/-- A value that is no container. -/
def plainValue (cs : List Char) : Option (Data × Rest cs) :=
  match cs with
  | [] => none
  | c :: rest =>
    let (d, rest) :=
      if c = '"' ∨ c = singleQuote then
        match anyString (c :: rest) with
        | none => (none, [])
        | some (s, rest) => (some (Data.string s), rest)
      else (scalar (word (c :: rest)).1, (word (c :: rest)).2)
    match d, rest? _ rest with
    | some d, some rest => some (d, rest)
    | _, _ => none

/-- The table of the members between braces. -/
def inlineTable (members : List (Key × Data)) : Option Data :=
  (members.foldlM (fun es m => Entries.assign m.1 m.2 .header es) []).map fun es =>
    .table (Entries.toMembers es) true

mutual
def value (depth : Nat) (cs : List Char) : Option (Data × Rest cs) :=
  match cs with
  | [] => none
  | c :: rest =>
    if c = '[' then
      if depthLimit ≤ depth then none
      else
        match items (depth + 1) rest with
        | none => none
        | some (ds, ⟨rest₁, h⟩) =>
          some (.array ds true, ⟨rest₁, by simp only [List.length_cons]; omega⟩)
    else if c = '\x7b' then
      if depthLimit ≤ depth then none
      else
        match members (depth + 1) rest with
        | none => none
        | some (ms, ⟨rest₁, h⟩) =>
          (inlineTable ms).map fun d => (d, ⟨rest₁, by simp only [List.length_cons]; omega⟩)
    else plainValue (c :: rest)
termination_by 2 * cs.length
decreasing_by all_goals simp only [List.length_cons]; omega

/-- The items of an array after its opening bracket. A comma may follow the last one. -/
def items (depth : Nat) (cs : List Char) : Option (List Data × Rest cs) :=
  have hs := length_skipSpace_le false cs
  match he : skipSpace false cs with
  | [] => none
  | c :: rest =>
    have hle : (c :: rest).length ≤ cs.length := by rw [← he]; exact hs
    if c = ']' then some ([], ⟨rest, hle⟩)
    else
      match value depth (c :: rest) with
      | none => none
      | some (d, ⟨rest₁, h₁⟩) =>
        have hs₁ := length_skipSpace_le false rest₁
        match he₁ : skipSpace false rest₁ with
        | ']' :: rest₂ =>
          some ([d], ⟨rest₂, by rw [he₁, List.length_cons] at hs₁; omega⟩)
        | ',' :: rest₂ =>
          have : rest₂.length < cs.length := by rw [he₁, List.length_cons] at hs₁; omega
          match items depth rest₂ with
          | none => none
          | some (ds, ⟨rest₃, h₃⟩) => some (d :: ds, ⟨rest₃, by omega⟩)
        | _ => none
termination_by 2 * cs.length + 1
decreasing_by all_goals omega

/-- The members of an inline table after its opening brace. A comma may follow the last one. -/
def members (depth : Nat) (cs : List Char) : Option (List (Key × Data) × Rest cs) :=
  have hs := length_skipSpace_le false cs
  match he : skipSpace false cs with
  | [] => none
  | c :: rest =>
    have hle : (c :: rest).length ≤ cs.length := by rw [← he]; exact hs
    if c = '\x7d' then some ([], ⟨rest, hle⟩)
    else
      match key (c :: rest) with
      | none => none
      | some (k, ⟨rest₁, h₁⟩) =>
        have hs₁ := length_skipSpace_le false rest₁
        match he₁ : skipSpace false rest₁ with
        | '=' :: rest₂ =>
          have hs₂ := length_skipSpace_le false rest₂
          have h₂ : rest₂.length < cs.length := by rw [he₁, List.length_cons] at hs₁; omega
          match value depth (skipSpace false rest₂) with
          | none => none
          | some (d, ⟨rest₃, h₃⟩) =>
            have hs₃ := length_skipSpace_le false rest₃
            match he₃ : skipSpace false rest₃ with
            | '\x7d' :: rest₄ =>
              some ([(k, d)], ⟨rest₄, by rw [he₃, List.length_cons] at hs₃; omega⟩)
            | ',' :: rest₄ =>
              have : rest₄.length < cs.length := by rw [he₃, List.length_cons] at hs₃; omega
              match members depth rest₄ with
              | none => none
              | some (ms, ⟨rest₅, h₅⟩) => some ((k, d) :: ms, ⟨rest₅, by omega⟩)
            | _ => none
        | _ => none
termination_by 2 * cs.length + 1
decreasing_by all_goals omega
end

end Toml
end SwiftDecl
