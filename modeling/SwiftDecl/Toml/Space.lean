/-!
# SwiftDecl.Toml.Space

Blanks, line ends and comments of a TOML text. A line ends with a line feed, which a carriage
return may precede.
-/

namespace SwiftDecl
namespace Toml

/-- A character that may stand in a comment, or in a string without being escaped. -/
def isTextChar (c : Char) : Bool := c == '\t' || (decide (0x20 ≤ c.toNat) && c.toNat != 0x7F)

def isBlank (c : Char) : Bool := c == ' ' || c == '\t'

/-- Passes over blanks within a line. -/
def skipBlanks (cs : List Char) : List Char := cs.dropWhile isBlank

/-- Passes over blanks, line ends and comments. -/
def skipSpace (inComment : Bool) : List Char → List Char
  | [] => []
  | '\n' :: cs => skipSpace false cs
  | '\r' :: '\n' :: cs => skipSpace false cs
  | c :: cs =>
    if inComment then (if isTextChar c then skipSpace true cs else c :: cs)
    else if isBlank c then skipSpace false cs
    else if c = '#' then skipSpace true cs
    else c :: cs

/-- The text after a line end, or at the end of the text. -/
def lineEnd? : List Char → Option (List Char)
  | [] => some []
  | '\n' :: cs => some cs
  | '\r' :: '\n' :: cs => some cs
  | _ => none

/-- The next line, if nothing but blanks and a comment is left on this one. -/
def nextLine? (cs : List Char) : Option (List Char) :=
  match skipBlanks cs with
  | '#' :: cs => lineEnd? (cs.dropWhile isTextChar)
  | cs => lineEnd? cs

theorem length_skipSpace_le (inComment : Bool) (cs : List Char) :
    (skipSpace inComment cs).length ≤ cs.length := by
  fun_induction skipSpace inComment cs with
  | case1 => exact Nat.le_refl _
  | case2 _ cs ih => exact Nat.le_succ_of_le ih
  | case3 _ cs ih => exact Nat.le_succ_of_le (Nat.le_succ_of_le ih)
  | case4 c cs _ _ _ ih => exact Nat.le_succ_of_le ih
  | case5 => exact Nat.le_refl _
  | case6 c cs _ _ _ _ _ ih => exact Nat.le_succ_of_le ih
  | case7 cs _ _ _ _ _ ih => exact Nat.le_succ_of_le ih
  | case8 => exact Nat.le_refl _

theorem length_nextLine?_le {cs rest : List Char} (h : nextLine? cs = some rest) :
    rest.length ≤ cs.length := by
  have hend : ∀ {xs : List Char}, lineEnd? xs = some rest → rest.length ≤ xs.length := by
    intro xs hx
    unfold lineEnd? at hx
    split at hx <;> cases hx <;> simp +arith
  have hblank : (skipBlanks cs).length ≤ cs.length := (List.dropWhile_sublist _).length_le
  unfold nextLine? at h
  split at h
  · rename_i xs hs
    have := hend h
    have : (xs.dropWhile isTextChar).length ≤ xs.length := (List.dropWhile_sublist _).length_le
    rw [hs, List.length_cons] at hblank
    omega
  · exact Nat.le_trans (hend h) hblank

end Toml
end SwiftDecl
