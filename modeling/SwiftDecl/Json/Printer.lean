import SwiftDecl.Data
import SwiftDecl.Number.Decimal
import SwiftDecl.Text.Basic

/-!
# SwiftDecl.Json.Printer

Data as JSON text, compact or with one member a line. What JSON has no form for is written as
`null`.
-/

namespace SwiftDecl
namespace Json

def hexDigit (n : Nat) : Char := Nat.digitChar (n % 16)

def escapedChar (c : Char) : List Char :=
  if c = '"' then ['\\', '"']
  else if c = '\\' then ['\\', '\\']
  else if c = '\x08' then ['\\', 'b']
  else if c = '\t' then ['\\', 't']
  else if c = '\n' then ['\\', 'n']
  else if c = '\x0c' then ['\\', 'f']
  else if c = '\r' then ['\\', 'r']
  else if c.toNat < 0x20 then ['\\', 'u', '0', '0', hexDigit (c.toNat / 16), hexDigit c.toNat]
  else [c]

def stringText (s : String) : String :=
  String.ofList ('"' :: (s.toList.flatMap escapedChar ++ ['"']))

def doubleText (x : Binary64) : String :=
  if x.isFinite then Number.jsonDouble.render x else "null"

mutual
def compact : Data → String
  | .bool true => "true"
  | .bool false => "false"
  | .integer i => toString i
  | .double x => doubleText x
  | .string s => stringText s
  | .array items _ => "[" ++ Text.separated "," (compactItems items) ++ "]"
  | .table members _ => "\x7b" ++ Text.separated "," (compactMembers members) ++ "\x7d"
  | _ => "null"

def compactItems : List Data → List String
  | [] => []
  | d :: ds => compact d :: compactItems ds

def compactMembers : List (String × Data) → List String
  | [] => []
  | (key, d) :: ms => (stringText key ++ ":" ++ compact d) :: compactMembers ms
end

/-- A line break and two blanks for each level. -/
def newline (level : Nat) : String := String.ofList ('\n' :: List.replicate (2 * level) ' ')

mutual
def pretty (level : Nat) : Data → String
  | .array [] _ => "[]"
  | .array (d :: ds) _ =>
    "[" ++ newline (level + 1) ++
      Text.separated ("," ++ newline (level + 1)) (prettyItems (level + 1) (d :: ds)) ++
      newline level ++ "]"
  | .table [] _ => "\x7b\x7d"
  | .table (m :: ms) _ =>
    "\x7b" ++ newline (level + 1) ++
      Text.separated ("," ++ newline (level + 1)) (prettyMembers (level + 1) (m :: ms)) ++
      newline level ++ "\x7d"
  | d => compact d

def prettyItems (level : Nat) : List Data → List String
  | [] => []
  | d :: ds => pretty level d :: prettyItems level ds

def prettyMembers (level : Nat) : List (String × Data) → List String
  | [] => []
  | (key, d) :: ms => (stringText key ++ ": " ++ pretty level d) :: prettyMembers level ms
end

end Json
end SwiftDecl
