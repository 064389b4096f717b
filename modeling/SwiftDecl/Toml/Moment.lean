import SwiftDecl.Number.Digits

/-!
# SwiftDecl.Toml.Moment

Dates and times of a TOML text: a date, a time, or both, and then perhaps with an offset. Only
their form and their ranges matter here.
-/

namespace SwiftDecl
namespace Toml

/-- The number of two digits, if it is within bounds. -/
def pair (least most : Nat) (a b : Char) : Option Nat :=
  (Number.readDigits [a, b]).filter fun n => least ≤ n && n ≤ most

def isLeapYear (year : Nat) : Bool := year % 4 == 0 && (year % 100 != 0 || year % 400 == 0)

def daysInMonth (year month : Nat) : Nat :=
  if month = 2 then (if isLeapYear year then 29 else 28)
  else if month = 4 ∨ month = 6 ∨ month = 9 ∨ month = 11 then 30
  else 31

/-- The text after a date. -/
def afterDate : List Char → Option (List Char)
  | y₁ :: y₂ :: y₃ :: y₄ :: '-' :: m₁ :: m₂ :: '-' :: d₁ :: d₂ :: cs =>
    match Number.readDigits [y₁, y₂, y₃, y₄], pair 1 12 m₁ m₂ with
    | some year, some month => (pair 1 (daysInMonth year month) d₁ d₂).map fun _ => cs
    | _, _ => none
  | _ => none

/-- The text after a fraction of a second, if there is one. -/
def afterFraction : List Char → Option (List Char)
  | '.' :: cs =>
    if (cs.takeWhile Char.isDigit).isEmpty then none else some (cs.dropWhile Char.isDigit)
  | cs => some cs

/-- The text after a time. It may go without seconds, and sixty of them make a leap second. -/
def afterTime : List Char → Option (List Char)
  | h₁ :: h₂ :: ':' :: m₁ :: m₂ :: cs =>
    match pair 0 23 h₁ h₂, pair 0 59 m₁ m₂ with
    | some _, some _ =>
      match cs with
      | ':' :: s₁ :: s₂ :: cs => (pair 0 60 s₁ s₂).bind fun _ => afterFraction cs
      | cs => some cs
    | _, _ => none
  | _ => none

/-- The text is empty or an offset. -/
def isOffset : List Char → Bool
  | [] => true
  | ['Z'] => true
  | ['z'] => true
  | [sign, h₁, h₂, ':', m₁, m₂] =>
    (sign == '+' || sign == '-') && (pair 0 23 h₁ h₂).isSome && (pair 0 59 m₁ m₂).isSome
  | _ => false

def isMoment (cs : List Char) : Bool :=
  match afterDate cs with
  | none => afterTime cs == some []
  | some [] => true
  | some (c :: cs) =>
    (c == 'T' || c == 't' || c == ' ') &&
      match afterTime cs with
      | none => false
      | some cs => isOffset cs

end Toml
end SwiftDecl
