/-!
# SwiftDecl.Text.Blank

Sets of code points, and the blank characters (the Unicode property White_Space) with trimming.
`dropBlanks_head` says that what is left after dropping blanks does not start with one,
`length_dropBlanks_le` that nothing is added.
-/

namespace SwiftDecl

/-- A set of code points as ascending closed ranges. -/
abbrev Ranges := List (Nat × Nat)

namespace Ranges

/-- Reads the ranges from the left, up to the first one beyond the code point. -/
def covers : Ranges → Nat → Bool
  | [], _ => false
  | (lo, hi) :: rest, n => if n < lo then false else decide (n ≤ hi) || covers rest n

theorem exists_of_covers {rs : Ranges} {n : Nat} (h : rs.covers n = true) :
    ∃ r ∈ rs, r.1 ≤ n ∧ n ≤ r.2 := by
  induction rs with
  | nil => simp [covers] at h
  | cons r rest ih =>
    obtain ⟨lo, hi⟩ := r
    simp only [covers] at h
    split at h
    · cases h
    · rename_i hlo
      by_cases hn : n ≤ hi
      · exact ⟨(lo, hi), .head _, by omega, hn⟩
      · simp only [hn, decide_false, Bool.false_or] at h
        obtain ⟨r, hr, hb⟩ := ih h
        exact ⟨r, .tail _ hr, hb⟩

end Ranges

namespace Text

def blankRanges : Ranges := [
  (0x09, 0x0D), (0x20, 0x20), (0x85, 0x85), (0xA0, 0xA0), (0x1680, 0x1680), (0x2000, 0x200A),
  (0x2028, 0x2029), (0x202F, 0x202F), (0x205F, 0x205F), (0x3000, 0x3000)]

def isBlank (c : Char) : Bool := blankRanges.covers c.toNat

def dropBlanks (cs : List Char) : List Char := cs.dropWhile isBlank

theorem dropBlanks_head {cs r : List Char} {c : Char} (h : dropBlanks cs = c :: r) :
    isBlank c = false := by
  have hc := List.head?_dropWhile_not isBlank cs
  rw [← dropBlanks, h] at hc
  exact hc

theorem length_dropBlanks_le (cs : List Char) : (dropBlanks cs).length ≤ cs.length :=
  (List.dropWhile_sublist _).length_le

def dropBlanksEnd (cs : List Char) : List Char := (dropBlanks cs.reverse).reverse

def trimEnd (s : String) : String := String.ofList (dropBlanksEnd s.toList)

def trim (s : String) : String := String.ofList (dropBlanksEnd (dropBlanks s.toList))

end Text
end SwiftDecl
