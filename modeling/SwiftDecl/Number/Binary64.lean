/-!
# SwiftDecl.Number.Binary64

Double-precision numbers as their 64 bits, with the arithmetic that reading a decimal needs.
Every operation works on exact natural numbers and rounds once, to the nearest double, a half
going to the even neighbour.
-/

namespace SwiftDecl

structure Binary64 where
  bits : UInt64
  deriving DecidableEq, Inhabited

namespace Binary64

/-- Words from here on have their sign bit set. -/
def signThreshold : Nat := Nat.pow 2 63

/-- The fraction is what is left of a word modulo this. -/
def fractionModulus : Nat := Nat.pow 2 52

def exponentModulus : Nat := Nat.pow 2 11

/-- The exponent field of infinities and NaNs. -/
def exponentAllOnes : Nat := 2047

def isNegative (x : Binary64) : Bool := decide (signThreshold ≤ x.bits.toNat)

def exponentField (x : Binary64) : Nat := x.bits.toNat / fractionModulus % exponentModulus

def fraction (x : Binary64) : Nat := x.bits.toNat % fractionModulus

def isFinite (x : Binary64) : Bool := decide (x.exponentField < exponentAllOnes)

def isNaN (x : Binary64) : Bool := !x.isFinite && decide (0 < x.fraction)

def isInfinite (x : Binary64) : Bool := !x.isFinite && decide (x.fraction = 0)

def isZero (x : Binary64) : Bool := decide (x.exponentField = 0) && decide (x.fraction = 0)

/-- Numeric equality: a NaN equals nothing, and the two zeros equal each other. -/
def same (x y : Binary64) : Bool :=
  !x.isNaN && !y.isNaN && (x.bits == y.bits || (x.isZero && y.isZero))

instance : BEq Binary64 := ⟨same⟩

/-- The absolute value of a finite double, `significand * 2 ^ exponent`. -/
structure Magnitude where
  significand : Nat
  exponent : Int
  /-- The gap to the double below is half of the gap to the double above. -/
  narrowBelow : Bool

def magnitude (x : Binary64) : Magnitude :=
  if x.exponentField = 0 then ⟨x.fraction, -1074, false⟩
  else
    ⟨fractionModulus + x.fraction, (x.exponentField : Int) - 1075,
      decide (x.fraction = 0) && decide (1 < x.exponentField)⟩

/-- The quotient rounded to the nearest whole number, a half to the even one. -/
def roundDiv (num den : Nat) : Nat :=
  let q := num / den
  let r := num % den
  if den < 2 * r ∨ (den = 2 * r ∧ q % 2 = 1) then q + 1 else q

/-- The exponent of the leading binary digit of `num / den`. -/
def leadingExponent (num den : Nat) : Int :=
  let k : Int := (num.log2 : Int) - den.log2
  if den * Nat.pow 2 k.toNat ≤ num * Nat.pow 2 (-k).toNat then k else k - 1

def ofSignAndBits (negative : Bool) (n : Nat) : Binary64 :=
  ⟨UInt64.ofNat (if negative then signThreshold + n else n)⟩

def infinityBits : Nat := exponentAllOnes * fractionModulus

/-- The double nearest to `num / den`; too large a quotient gives an infinity. -/
def ofRatio (negative : Bool) (num den : Nat) : Binary64 :=
  if num = 0 then ofSignAndBits negative 0
  else
    let e := max (leadingExponent num den - 52) (-1074)
    let m := roundDiv (num * Nat.pow 2 (-e).toNat) (den * Nat.pow 2 e.toNat)
    ofSignAndBits negative (min ((e + 1074).toNat * fractionModulus + m) infinityBits)

def ofNat (n : Nat) : Binary64 := ofRatio false n 1

/-- The double nearest to a whole number. -/
def ofInt (i : Int) : Binary64 := ofRatio (decide (i < 0)) i.natAbs 1

/-- The double nearest to `digits * 10 ^ exponent`. Exponents far outside the range of doubles
are settled without computing the power. -/
def ofDecimal (negative : Bool) (digits : Nat) (exponent : Int) : Binary64 :=
  let size : Int := (Nat.toDigits 10 digits).length + exponent
  if digits = 0 ∨ size < -330 then ofSignAndBits negative 0
  else if 330 < size then ofSignAndBits negative infinityBits
  else ofRatio negative (digits * Nat.pow 10 exponent.toNat) (Nat.pow 10 (-exponent).toNat)

def negate (x : Binary64) : Binary64 :=
  ofSignAndBits (!x.isNegative) (x.bits.toNat % signThreshold)

/-- Product of two finite doubles. -/
def times (x y : Binary64) : Binary64 :=
  let a := x.magnitude
  let b := y.magnitude
  let e := a.exponent + b.exponent
  ofRatio (x.isNegative != y.isNegative)
    (a.significand * b.significand * Nat.pow 2 e.toNat) (Nat.pow 2 (-e).toNat)

/-- Quotient of a finite double by a finite double other than zero. -/
def dividedBy (x y : Binary64) : Binary64 :=
  let a := x.magnitude
  let b := y.magnitude
  let e := a.exponent - b.exponent
  ofRatio (x.isNegative != y.isNegative)
    (a.significand * Nat.pow 2 e.toNat) (b.significand * Nat.pow 2 (-e).toNat)

def powerOfTen (k : Nat) : Binary64 := ofDecimal false 1 k

def infinity (negative : Bool) : Binary64 := ofSignAndBits negative infinityBits

def nan : Binary64 := ⟨0x7FF8000000000000⟩

end Binary64
end SwiftDecl
