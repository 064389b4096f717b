import SwiftDecl.Number.Digits
import SwiftDecl.Toml.Space

/-!
# SwiftDecl.Toml.Strings

Strings of a TOML text: in double quotes with escapes, or in single quotes as they stand, on one
line or, between three quotes, on several. All readers start after the opening quotes and return
the text after the closing ones.
-/

namespace SwiftDecl
namespace Toml

def singleQuote : Char := '\x27'

/-- The character with the code of `n` hexadecimal digits. -/
def codeOf (n : Nat) (cs : List Char) : Option Char :=
  if (cs.take n).length = n then
    match Number.readBase 16 (cs.take n) with
    | none => none
    | some code => if code.isValidChar then some (Char.ofNat code) else none
  else none

/-- The character that the text after a backslash stands for, and the length of that text. -/
def escape : List Char → Option (Char × Nat)
  | 'b' :: _ => some ('\x08', 1)
  | 't' :: _ => some ('\t', 1)
  | 'n' :: _ => some ('\n', 1)
  | 'f' :: _ => some ('\x0c', 1)
  | 'r' :: _ => some ('\r', 1)
  | 'e' :: _ => some ('\x1b', 1)
  | '"' :: _ => some ('"', 1)
  | '\\' :: _ => some ('\\', 1)
  | 'x' :: cs => (codeOf 2 cs).map (·, 3)
  | 'u' :: cs => (codeOf 4 cs).map (·, 5)
  | 'U' :: cs => (codeOf 8 cs).map (·, 9)
  | _ => none

/-- Puts a character before what was read. -/
def before (c : Char) (read : Option (List Char × List Char)) : Option (List Char × List Char) :=
  read.map fun r => (c :: r.1, r.2)

def quotedLine (cs : List Char) : Option (List Char × List Char) :=
  match cs with
  | [] => none
  | '"' :: rest => some ([], rest)
  | '\\' :: rest =>
    match escape rest with
    | none => none
    | some (c, n) => before c (quotedLine (rest.drop n))
  | c :: rest => if isTextChar c then before c (quotedLine rest) else none
termination_by cs.length
decreasing_by
  · simp only [List.length_drop, List.length_cons]; omega
  · simp only [List.length_cons]; omega

def literalLine : List Char → Option (List Char × List Char)
  | [] => none
  | c :: cs =>
    if c = singleQuote then some ([], cs)
    else if isTextChar c then before c (literalLine cs)
    else none

/-- One or two quotes right after the closing ones belong to the string. -/
def closing (quote : Char) : List Char → List Char × List Char
  | c :: d :: cs =>
    if c = quote then (if d = quote then ([c, d], cs) else ([c], d :: cs)) else ([], c :: d :: cs)
  | [c] => if c = quote then ([c], []) else ([], [c])
  | [] => ([], [])

/-- The rest of the line is blank. -/
def isFold (cs : List Char) : Bool :=
  match skipBlanks cs with
  | '\n' :: _ => true
  | '\r' :: '\n' :: _ => true
  | _ => false

/-- While folding, blanks and line ends are passed over. -/
def quotedLines (folding : Bool) (cs : List Char) : Option (List Char × List Char) :=
  match cs with
  | [] => none
  | '"' :: '"' :: '"' :: rest => some (closing '"' rest)
  | '\\' :: rest =>
    if isFold rest then quotedLines true rest
    else
      match escape rest with
      | none => none
      | some (c, n) => before c (quotedLines false (rest.drop n))
  | '\n' :: rest =>
    if folding then quotedLines true rest else before '\n' (quotedLines false rest)
  | '\r' :: '\n' :: rest =>
    if folding then quotedLines true rest
    else before '\r' (before '\n' (quotedLines false rest))
  | c :: rest =>
    if folding && isBlank c then quotedLines true rest
    else if isTextChar c then before c (quotedLines false rest)
    else none
termination_by cs.length
decreasing_by all_goals simp only [List.length_drop, List.length_cons]; omega

def literalLines : List Char → Option (List Char × List Char)
  | c :: d :: e :: cs =>
    if c = singleQuote ∧ d = singleQuote ∧ e = singleQuote then some (closing singleQuote cs)
    else if isTextChar c || c == '\n' || (c == '\r' && d == '\n') then
      before c (literalLines (d :: e :: cs))
    else none
  | _ => none

/-- A line end right after the opening quotes does not belong to the string. -/
def dropFirstLineEnd : List Char → List Char
  | '\n' :: cs => cs
  | '\r' :: '\n' :: cs => cs
  | cs => cs

/-- A string on one line, from its opening quote on. -/
def lineString : List Char → Option (String × List Char)
  | [] => none
  | c :: cs =>
    if c = '"' then (quotedLine cs).map fun r => (String.ofList r.1, r.2)
    else if c = singleQuote then (literalLine cs).map fun r => (String.ofList r.1, r.2)
    else none

/-- A string of any kind, from its opening quotes on. -/
def anyString : List Char → Option (String × List Char)
  | c :: d :: e :: cs =>
    if c = '"' ∧ d = '"' ∧ e = '"' then
      (quotedLines false (dropFirstLineEnd cs)).map fun r => (String.ofList r.1, r.2)
    else if c = singleQuote ∧ d = singleQuote ∧ e = singleQuote then
      (literalLines (dropFirstLineEnd cs)).map fun r => (String.ofList r.1, r.2)
    else lineString (c :: d :: e :: cs)
  | cs => lineString cs

end Toml
end SwiftDecl
