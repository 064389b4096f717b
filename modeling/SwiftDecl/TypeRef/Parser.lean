import SwiftDecl.Text.Alphanumeric
import SwiftDecl.Text.Basic
import SwiftDecl.Text.Blank
import SwiftDecl.TypeRef.Basic

/-!
# SwiftDecl.TypeRef.Parser

Reading a type reference. Every reader works on the text that is left and returns the text after
what it read, together with the proof that it is shorter; this is what ends the recursion through
brackets and the loops over marks and list items.

* `length_eat_true_lt`, `length_eat_false_le` — eating a mark gets ahead, failing to eat does not
  go back.
* `eat_false` — a failed `eat` has passed over blanks only.
-/

namespace SwiftDecl
namespace TypeRef

open Text (Rest)

def isNameStart (c : Char) : Bool := c == '_' || c == '\x60' || Text.isAlphabetic c

/-- A dot is an ordinary character of a name. -/
def isNamePart (c : Char) : Bool := c == '.' || isNameStart c || c.isDigit

inductive Fault where
  | trailing (rest : String)
  | expected (mark : Char)
  | unexpected (c : Char)
  | missingName
  | emptyArguments
  deriving DecidableEq, Repr

def Fault.message (source : String) : Fault → String
  | .trailing rest => "unexpected '" ++ rest ++ "' after type in '" ++ source ++ "'"
  | .expected mark => "expected '" ++ String.singleton mark ++ "' in type '" ++ source ++ "'"
  | .unexpected c => "unexpected '" ++ String.singleton c ++ "' in type '" ++ source ++ "'"
  | .missingName => "missing type name in '" ++ source ++ "'"
  | .emptyArguments => "empty generic arguments in type '" ++ source ++ "'"

/-- Passes over blanks, and over `mark` if it comes next. -/
def eat (mark : Char) (cs : List Char) : Bool × List Char :=
  match Text.dropBlanks cs with
  | [] => (false, [])
  | c :: rest => if c = mark then (true, rest) else (false, c :: rest)

theorem length_eat_true_lt {mark : Char} {cs rest : List Char}
    (h : eat mark cs = (true, rest)) : rest.length < cs.length := by
  have hle := Text.length_dropBlanks_le cs
  simp only [eat] at h
  split at h
  · cases h
  · rename_i hd
    split at h
    · cases h
      rw [hd] at hle
      exact hle
    · cases h

theorem eat_false {mark : Char} {cs rest : List Char}
    (h : eat mark cs = (false, rest)) : rest = Text.dropBlanks cs := by
  simp only [eat] at h
  split at h
  · rename_i hd; cases h; exact hd.symm
  · rename_i hd
    split at h
    · cases h
    · cases h; exact hd.symm

theorem length_eat_false_le {mark : Char} {cs rest : List Char}
    (h : eat mark cs = (false, rest)) : rest.length ≤ cs.length := by
  rw [eat_false h]
  exact Text.length_dropBlanks_le cs

/-- Wraps a type in one `optional` for each question mark that follows. -/
def marks (t : TypeRef) (cs : List Char) : TypeRef × List Char :=
  match _h : eat '?' cs with
  | (true, rest) => marks (.optional t) rest
  | (false, rest) => (t, rest)
termination_by cs.length
decreasing_by exact length_eat_true_lt _h

theorem length_marks_le (t : TypeRef) (cs : List Char) :
    (marks t cs).2.length ≤ cs.length := by
  fun_induction marks t cs with
  | case1 t cs rest h ih => exact Nat.le_trans ih (Nat.le_of_lt (length_eat_true_lt h))
  | case2 t cs rest h => exact length_eat_false_le h

theorem length_lt_of_dropBlanks {cs rest : List Char} {c : Char}
    (h : Text.dropBlanks cs = c :: rest) : rest.length < cs.length := by
  have hle := Text.length_dropBlanks_le cs
  rw [h] at hle
  exact hle

mutual
/-- A primary type and the question marks after it. -/
def readType (cs : List Char) : Except Fault (TypeRef × Rest cs) :=
  match readPrimary cs with
  | .error e => .error e
  | .ok (t, ⟨rest, h⟩) =>
    .ok ((marks t rest).1, ⟨(marks t rest).2, Nat.lt_of_le_of_lt (length_marks_le t rest) h⟩)
termination_by 4 * cs.length + 1

/-- A bracketed type, a tuple, or a name with its arguments. Parentheses around a single type
stand for that type. -/
def readPrimary (cs : List Char) : Except Fault (TypeRef × Rest cs) :=
  match hb : Text.dropBlanks cs with
  | [] => .error .missingName
  | c :: rest =>
    have hr := length_lt_of_dropBlanks hb
    if c = '[' then
      match readType rest with
      | .error e => .error e
      | .ok (element, ⟨rest₁, h₁⟩) =>
        match e₂ : eat ':' rest₁ with
        | (true, rest₂) =>
          have h₂ := Nat.lt_trans (length_eat_true_lt e₂) (Nat.lt_trans h₁ hr)
          match readType rest₂ with
          | .error e => .error e
          | .ok (value, ⟨rest₃, h₃⟩) =>
            match e₄ : eat ']' rest₃ with
            | (true, rest₄) =>
              .ok (.dictionary element value,
                ⟨rest₄, Nat.lt_trans (length_eat_true_lt e₄) (Nat.lt_trans h₃ h₂)⟩)
            | (false, _) => .error (.expected ']')
        | (false, rest₂) =>
          have h₂ := Nat.lt_of_le_of_lt (length_eat_false_le e₂) (Nat.lt_trans h₁ hr)
          match e₃ : eat ']' rest₂ with
          | (true, rest₃) =>
            .ok (.array element, ⟨rest₃, Nat.lt_trans (length_eat_true_lt e₃) h₂⟩)
          | (false, _) => .error (.expected ']')
    else if c = '(' then
      match readList ')' rest with
      | .error e => .error e
      | .ok ([t], ⟨rest₁, h₁⟩) => .ok (t, ⟨rest₁, Nat.lt_trans h₁ hr⟩)
      | .ok (ts, ⟨rest₁, h₁⟩) => .ok (.tuple ts, ⟨rest₁, Nat.lt_trans h₁ hr⟩)
    else if isNameStart c then
      let name := String.ofList (c :: rest.takeWhile isNamePart)
      have hn := Nat.lt_of_le_of_lt (List.dropWhile_sublist isNamePart).length_le hr
      match e₁ : eat '<' (rest.dropWhile isNamePart) with
      | (true, rest₁) =>
        have h₁ := Nat.lt_trans (length_eat_true_lt e₁) hn
        match readList '>' rest₁ with
        | .error e => .error e
        | .ok ([], _) => .error .emptyArguments
        | .ok (args, ⟨rest₂, h₂⟩) => .ok (.generic name args, ⟨rest₂, Nat.lt_trans h₂ h₁⟩)
      | (false, rest₁) =>
        .ok (.named name, ⟨rest₁, Nat.lt_of_le_of_lt (length_eat_false_le e₁) hn⟩)
    else .error (.unexpected c)
termination_by 4 * cs.length
decreasing_by all_goals omega

/-- Types between commas up to the closing mark; there may be none. -/
def readList (close : Char) (cs : List Char) : Except Fault (List TypeRef × Rest cs) :=
  match h : eat close cs with
  | (true, rest) => .ok ([], ⟨rest, length_eat_true_lt h⟩)
  | (false, rest) =>
    have hr := length_eat_false_le h
    match readItems close rest with
    | .error e => .error e
    | .ok (ts, ⟨rest₁, h₁⟩) => .ok (ts, ⟨rest₁, Nat.lt_of_lt_of_le h₁ hr⟩)
termination_by 4 * cs.length + 3
decreasing_by omega

/-- One or more types between commas, and the closing mark. -/
def readItems (close : Char) (cs : List Char) : Except Fault (List TypeRef × Rest cs) :=
  match readType cs with
  | .error e => .error e
  | .ok (t, ⟨rest, h⟩) =>
    match e₁ : eat ',' rest with
    | (true, rest₁) =>
      have h₁ := Nat.lt_trans (length_eat_true_lt e₁) h
      match readItems close rest₁ with
      | .error e => .error e
      | .ok (ts, ⟨rest₂, h₂⟩) => .ok (t :: ts, ⟨rest₂, Nat.lt_trans h₂ h₁⟩)
    | (false, rest₁) =>
      have h₁ := Nat.lt_of_le_of_lt (length_eat_false_le e₁) h
      match e₂ : eat close rest₁ with
      | (true, rest₂) => .ok ([t], ⟨rest₂, Nat.lt_trans (length_eat_true_lt e₂) h₁⟩)
      | (false, _) => .error (.expected close)
termination_by 4 * cs.length + 2
decreasing_by all_goals omega
end

/-- The type that the whole text stands for. -/
def parse (s : String) : Except Fault TypeRef :=
  match readType s.toList with
  | .error e => .error e
  | .ok (t, ⟨rest, _⟩) =>
    match Text.dropBlanks rest with
    | [] => .ok t
    | c :: cs => .error (.trailing (String.ofList (c :: cs)))

/-- The type that the text stands for, or a name that holds the text as it is. -/
def ofText (s : String) : TypeRef :=
  match parse s with
  | .ok t => t
  | .error _ => .named s

end TypeRef
end SwiftDecl
