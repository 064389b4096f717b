import SwiftDecl.Data
import SwiftDecl.Text.Basic
import SwiftDecl.Toml.Moment

/-!
# SwiftDecl.Toml.Scalar

Bare words of a TOML text: booleans, integers, floats, dates and times. An underscore may stand
between two digits. An integer beyond 128 bits and a float beyond the doubles have no value.

Whether a word has the form of an integer is settled by its beginning and by what stands around
its underscores, where the letters of hexadecimal digits pass as well. A word of that form that
turns out not to be a number, such as `1_f` or the bare prefix `0x`, has no value either.
-/

namespace SwiftDecl
namespace Toml

def isSign (c : Char) : Bool := c == '+' || c == '-'

/-- Between the pieces of a word, digits meet; the first piece may also be just a sign. -/
def isGrouped (isDigit : Char → Bool) : List (List Char) → Bool
  | [] => true
  | [_] => true
  | a :: b :: rest =>
    (a.getLast?.any isDigit || (a.length == 1 && a.all isSign)) && b.head?.any isDigit &&
      isGrouped isDigit (b :: rest)

/-- The word without its underscores, if they stand where they may. -/
def ungroup (isDigit : Char → Bool) (word : List Char) : Option (List Char) :=
  if isGrouped isDigit (Text.pieces '_' word) then some (word.filter (· != '_')) else none

def isHexDigit (c : Char) : Bool := Number.isDigitOf 16 c

def integerOf (base : Nat) (cs : List Char) : Data :=
  match Number.readSigned base cs with
  | none => .unusable .integerOverflow
  | some i => if Number.isWord128 i then .integer i else .unusable .integerOverflow

/-- An integer after the prefix that names its base. -/
def inBase (base : Nat) (cs : List Char) : Option Data :=
  if cs.all fun c => c == '_' || Number.isDigitOf base c then
    (ungroup isHexDigit cs).map (integerOf base)
  else none

def isExponentMark (c : Char) : Bool := c == 'e' || c == 'E'

/-- The digits at the beginning of a text, of which there is at least one, and the text after them
and the underscores among them. -/
def digits (cs : List Char) : Option (List Char × List Char) :=
  let isPart := fun c => c.isDigit || c == '_'
  let ds := (cs.takeWhile isPart).filter Char.isDigit
  if ds.isEmpty then none else some (ds, cs.dropWhile isPart)

/-- The digits after the point; none without a point. -/
def fractionOf : List Char → Option (List Char × List Char)
  | '.' :: cs => digits cs
  | cs => some ([], cs)

/-- The exponent from its mark on; zero if the text is empty. -/
def exponentOf : List Char → Option Int
  | [] => some 0
  | c :: cs =>
    if !isExponentMark c then none
    else
      match digits (if cs.head?.any isSign then cs.tail else cs) with
      | some (ds, []) =>
        let n := Int.ofNat (Nat.ofDigitChars 10 ds 0)
        some (if cs.head? == some '-' then -n else n)
      | _ => none

/-- The double of a number in decimal digits. -/
def doubleOf (negative : Bool) (whole fraction : List Char) (exponent : Int) : Data :=
  let x := Binary64.ofDecimal negative (Nat.ofDigitChars 10 (whole ++ fraction) 0)
    (exponent - fraction.length)
  if x.isInfinite then .unusable .doubleOverflow else .double x

/-- A number starts with a needless zero. -/
def hasLeadingZero (cs ds : List Char) : Bool := cs.head? == some '0' && ds.length != 1

/-- A float without its sign. -/
def float (negative : Bool) (cs : List Char) : Option Data :=
  match digits cs with
  | none => none
  | some (whole, rest) =>
    if hasLeadingZero cs whole then none
    else
      match fractionOf rest with
      | none => none
      | some (fraction, rest) => (exponentOf rest).map (doubleOf negative whole fraction)

/-- A decimal number. What is not a digit any more decides of what kind the number is. -/
def decimal (word : List Char) (negative : Bool) (unsigned : List Char) : Option Data :=
  let rest := unsigned.dropWhile Char.isDigit
  if rest.any fun c => c == '.' || isExponentMark c then
    (ungroup Char.isDigit word).bind fun _ => float negative unsigned
  else if unsigned.isEmpty || hasLeadingZero unsigned unsigned then none
  else if rest.isEmpty || rest.head? == some '_' then (ungroup isHexDigit word).map (integerOf 10)
  else none

/-- A number of which `unsigned` is left after the sign. -/
def number (word : List Char) (negative : Bool) (unsigned : List Char) : Option Data :=
  match unsigned with
  | ['i', 'n', 'f'] => some (.double (Binary64.infinity negative))
  | ['n', 'a', 'n'] => some (.double (if negative then Binary64.nan.negate else Binary64.nan))
  | unsigned => decimal word negative unsigned

def scalar (word : List Char) : Option Data :=
  match word with
  | ['t', 'r', 'u', 'e'] => some (.bool true)
  | ['f', 'a', 'l', 's', 'e'] => some (.bool false)
  | '+' :: cs => number word false cs
  | '-' :: cs => number word true cs
  | '0' :: 'x' :: cs => inBase 16 cs
  | '0' :: 'o' :: cs => inBase 8 cs
  | '0' :: 'b' :: cs => inBase 2 cs
  | cs => if isMoment cs then some .dateTime else number word false cs

end Toml
end SwiftDecl
