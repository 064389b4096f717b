/-!
# SwiftDecl.Number.Digits

The whole numbers that fit into words of 32, 64 and 128 bits, with or without a sign, and whole
numbers written in digits, with an optional sign and within such bounds.
-/

namespace SwiftDecl
namespace Number

/-- The number of words of 32 bits. -/
def words32 : Nat := 4294967296

/-- The number of words of 64 bits. -/
def words64 : Nat := 18446744073709551616

/-- The whole numbers from zero on that fit into 64 bits with a sign lie below this. -/
def signed64 : Nat := 9223372036854775808

def isInt64 (i : Int) : Bool :=
  decide (-9223372036854775808 ≤ i) && decide (i < 9223372036854775808)

/-- The number fits into 64 bits, with or without a sign. -/
def isWord64 (i : Int) : Bool :=
  decide (-9223372036854775808 ≤ i) && decide (i < 18446744073709551616)

def isInt128 (i : Int) : Bool :=
  decide (-170141183460469231731687303715884105728 ≤ i) &&
    decide (i < 170141183460469231731687303715884105728)

/-- The number fits into 128 bits, with or without a sign. -/
def isWord128 (i : Int) : Bool :=
  decide (-170141183460469231731687303715884105728 ≤ i) &&
    decide (i < 340282366920938463463374607431768211456)

/-- The value of one or more ASCII digits. -/
def readDigits (cs : List Char) : Option Nat :=
  if !cs.isEmpty && cs.all Char.isDigit then some (Nat.ofDigitChars 10 cs 0) else none

/-- One or more ASCII digits, perhaps after a plus sign, with a value below `bound`. -/
def readUnsigned (bound : Nat) : List Char → Option Nat
  | '+' :: cs => (readDigits cs).filter (· < bound)
  | cs => (readDigits cs).filter (· < bound)

/-- One or more ASCII digits, perhaps after a sign, with a value that fits into 64 bits. -/
def readInt64 : List Char → Option Int64
  | '-' :: cs => ((readDigits cs).filter (· ≤ signed64)).map fun n => Int64.ofInt (-n)
  | '+' :: cs => ((readDigits cs).filter (· < signed64)).map Int64.ofNat
  | cs => ((readDigits cs).filter (· < signed64)).map Int64.ofNat

/-- The value of a digit in a base up to sixteen, with letters of either case. -/
def digitValue (base : Nat) (c : Char) : Option Nat :=
  (if c.isDigit then some (c.toNat - '0'.toNat)
    else if 'a' ≤ c ∧ c ≤ 'f' then some (c.toNat - 'a'.toNat + 10)
    else if 'A' ≤ c ∧ c ≤ 'F' then some (c.toNat - 'A'.toNat + 10)
    else none).filter (· < base)

def isDigitOf (base : Nat) (c : Char) : Bool := (digitValue base c).isSome

/-- The value of digits in a base up to sixteen. -/
def readBase (base : Nat) (cs : List Char) : Option Nat :=
  cs.foldlM (fun n c => (digitValue base c).map (base * n + ·)) 0

/-- One or more digits in a base up to sixteen, perhaps after a sign. -/
def readSigned (base : Nat) : List Char → Option Int
  | [] => none
  | ['+'] => none
  | ['-'] => none
  | '+' :: cs => (readBase base cs).map Int.ofNat
  | '-' :: cs => (readBase base cs).map fun n => -Int.ofNat n
  | cs => (readBase base cs).map Int.ofNat

end Number
end SwiftDecl
