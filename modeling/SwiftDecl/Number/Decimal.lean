import SwiftDecl.Number.Binary64

/-!
# SwiftDecl.Number.Decimal

The shortest decimal that reads back as a given double, and how its digits are laid out.

The reals that round to a double form an interval, its ends included exactly when the significand is
even. For one, two, … seventeen digits the two neighbours of the double on that decimal grid are
tried; the first grid with a neighbour in the interval wins, and of two such neighbours the nearer.
A `DoubleFormat` says which numbers are written positionally and how an exponent looks; a positional
number always has a fraction.
-/

namespace SwiftDecl
namespace Number

/-- `digits * 10 ^ exponent`. -/
structure Decimal where
  digits : Nat
  exponent : Int
  deriving DecidableEq, Repr

/-- Which of two decimals that are equally near to a double is taken. -/
inductive Tie where
  | toEven
  | up
  deriving DecidableEq

/-- Compares `a * 10 ^ i` with `n * 2 ^ j`. -/
def compareScaled (a : Nat) (i : Int) (n : Nat) (j : Int) : Ordering :=
  compare (a * Nat.pow 10 i.toNat * Nat.pow 2 (-j).toNat)
    (n * Nat.pow 2 j.toNat * Nat.pow 10 (-i).toNat)

/-- The decimal lies among the reals that round to the double. -/
def readsBack (x : Binary64.Magnitude) (d : Decimal) : Bool :=
  let low := if x.narrowBelow then 4 * x.significand - 1 else 4 * x.significand - 2
  let high := 4 * x.significand + 2
  let ends := x.significand % 2 == 0
  let atLow := compareScaled d.digits d.exponent low (x.exponent - 2)
  let atHigh := compareScaled d.digits d.exponent high (x.exponent - 2)
  (atLow == .gt || (ends && atLow == .eq)) && (atHigh == .lt || (ends && atHigh == .eq))

/-- The least `k` with the double below `10 ^ k`. -/
def decimalPlace (x : Binary64.Magnitude) : Int :=
  let k := ((x.significand.log2 : Int) + x.exponent) * 30103 / 100000
  if compareScaled 1 (k - 1) x.significand x.exponent == .gt then k - 1
  else if compareScaled 1 k x.significand x.exponent == .gt then k
  else if compareScaled 1 (k + 1) x.significand x.exponent == .gt then k + 1
  else k + 2

/-- The double divided by `10 ^ grid`, rounded down. -/
def floorOn (x : Binary64.Magnitude) (grid : Int) : Nat :=
  x.significand * Nat.pow 2 x.exponent.toNat * Nat.pow 10 (-grid).toNat /
    (Nat.pow 2 (-x.exponent).toNat * Nat.pow 10 grid.toNat)

/-- A neighbour of the double on the grid that reads back, if there is one. -/
def onGrid (tie : Tie) (x : Binary64.Magnitude) (grid : Int) : Option Decimal :=
  let below : Decimal := ⟨floorOn x grid, grid⟩
  let above : Decimal := ⟨floorOn x grid + 1, grid⟩
  match readsBack x below, readsBack x above with
  | false, false => none
  | true, false => some below
  | false, true => some above
  | true, true =>
    match compareScaled (2 * below.digits + 1) grid (2 * x.significand) x.exponent with
    | .gt => some below
    | .lt => some above
    | .eq => if tie = .toEven ∧ below.digits % 2 = 0 then some below else some above

/-- The exact value, for a double that no short decimal stands for. -/
def exactDecimal (x : Binary64.Magnitude) : Decimal :=
  ⟨x.significand * Nat.pow 2 x.exponent.toNat * Nat.pow 5 (-x.exponent).toNat, min x.exponent 0⟩

/-- Moves trailing zeros of the digits into the exponent. -/
def stripZeros (fuel : Nat) (d : Decimal) : Decimal :=
  match fuel with
  | 0 => d
  | fuel + 1 =>
    if d.digits % 10 = 0 ∧ d.digits ≠ 0 then stripZeros fuel ⟨d.digits / 10, d.exponent + 1⟩
    else d

def shortest (tie : Tie) (x : Binary64.Magnitude) : Decimal :=
  let k := decimalPlace x
  let found := (List.range 17).findSome? fun n => onGrid tie x (k - (n + 1 : Nat))
  let d := found.getD (exactDecimal x)
  stripZeros (Nat.toDigits 10 d.digits).length d

structure DoubleFormat where
  /-- Positional from this exponent of the leading digit on … -/
  plainFrom : Int
  /-- … and below this one. -/
  plainBelow : Int
  /-- A positive exponent is written with its sign. -/
  plusSign : Bool
  tie : Tie

/-- Literals of Swift source. -/
def swiftDouble : DoubleFormat := ⟨-4, 16, false, .up⟩

/-- Numbers of a JSON text. -/
def jsonDouble : DoubleFormat := ⟨-5, 16, true, .toEven⟩

/-- Numbers quoted in messages: always positional. -/
def plainDouble : DoubleFormat := ⟨-400, 400, false, .up⟩

namespace DoubleFormat

/-- Digits `ds` with the decimal point after `point` of them. -/
def positional (ds : List Char) (point : Int) : List Char :=
  if point ≤ 0 then '0' :: '.' :: (List.replicate (-point).toNat '0' ++ ds)
  else if point < ds.length then ds.take point.toNat ++ '.' :: ds.drop point.toNat
  else ds ++ List.replicate (point.toNat - ds.length) '0' ++ ['.', '0']

def scientific (f : DoubleFormat) (ds : List Char) (e : Int) : List Char :=
  let mantissa := if ds.length ≤ 1 then ds else ds.take 1 ++ '.' :: ds.drop 1
  let sign := if e < 0 then ['-'] else if f.plusSign then ['+'] else []
  mantissa ++ 'e' :: (sign ++ Nat.toDigits 10 e.natAbs)

/-- The text of a finite double without its sign. -/
def unsigned (f : DoubleFormat) (x : Binary64) : List Char :=
  if x.isZero then ['0', '.', '0']
  else
    let d := shortest f.tie x.magnitude
    let ds := Nat.toDigits 10 d.digits
    let e := d.exponent + ds.length - 1
    if f.plainFrom ≤ e ∧ e < f.plainBelow then positional ds (e + 1) else f.scientific ds e

def render (f : DoubleFormat) (x : Binary64) : String :=
  let sign := if x.isNegative then ['-'] else []
  if x.isNaN then "NaN"
  else if x.isInfinite then String.ofList (sign ++ ['i', 'n', 'f'])
  else String.ofList (sign ++ f.unsigned x)

end DoubleFormat

end Number
end SwiftDecl
