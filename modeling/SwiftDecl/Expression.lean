import SwiftDecl.Number.Decimal

/-!
# SwiftDecl.Expression

Values used as initialisers and as defaults of parameters, and their Swift text.
-/

namespace SwiftDecl

inductive Expression where
  | bool (value : Bool)
  | integer (value : Int64)
  | double (value : Binary64)
  /-- The text of a string literal, not its source. -/
  | string (value : String)
  | nil
  /-- Swift source that is copied as it stands. -/
  | raw (source : String)
  deriving BEq, Inhabited

/-- A control character is one of the Unicode category Cc. -/
def isControl (c : Char) : Bool :=
  decide (c.toNat < 0x20) || (decide (0x7F ≤ c.toNat) && decide (c.toNat < 0xA0))

/-- A character inside a string literal of Swift. -/
def literalChar (c : Char) : List Char :=
  if c = '"' then ['\\', '"']
  else if c = '\\' then ['\\', '\\']
  else if c = '\n' then ['\\', 'n']
  else if c = '\r' then ['\\', 'r']
  else if c = '\t' then ['\\', 't']
  else if c = '\x00' then ['\\', '0']
  else if isControl c then
    ['\\', 'u', '\x7b'] ++ (Nat.toDigits 16 c.toNat).map Char.toUpper ++ ['\x7d']
  else [c]

def stringLiteral (s : String) : String :=
  String.ofList ('"' :: (s.toList.flatMap literalChar ++ ['"']))

namespace Expression

def swift : Expression → String
  | .bool true => "true"
  | .bool false => "false"
  | .integer i => toString i.toInt
  | .double x =>
    if x.isNaN then "Double.nan"
    else if x.isInfinite then
      if x.isNegative then "-Double.infinity" else "Double.infinity"
    else Number.swiftDouble.render x
  | .string s => stringLiteral s
  | .nil => "nil"
  | .raw source => source

end Expression
end SwiftDecl
