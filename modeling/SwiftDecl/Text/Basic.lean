/-!
# SwiftDecl.Text.Basic

Lines and pieces of a text, and places in it.

A line ends with a line feed, or with a carriage return and a line feed; a carriage return anywhere
else belongs to its line. A text that ends with a line end has no further, empty line after it, and
the empty text has no line at all. Places are counted in bytes of the UTF-8 form.
-/

namespace SwiftDecl
namespace Text

def splitLines : List Char → List (List Char)
  | [] => []
  | '\n' :: cs => [] :: splitLines cs
  | '\r' :: '\n' :: cs => [] :: splitLines cs
  | c :: cs =>
    match splitLines cs with
    | [] => [[c]]
    | l :: ls => (c :: l) :: ls

def lines (s : String) : List String := (splitLines s.toList).map String.ofList

/-- No line holds a line feed. -/
theorem lf_not_mem_splitLines {cs l : List Char} (h : l ∈ splitLines cs) : '\n' ∉ l := by
  fun_induction splitLines cs generalizing l with
  | case1 => simp at h
  | case2 cs ih =>
    rcases List.mem_cons.1 h with rfl | h
    · exact List.not_mem_nil
    · exact ih h
  | case3 cs ih =>
    rcases List.mem_cons.1 h with rfl | h
    · exact List.not_mem_nil
    · exact ih h
  | case4 c cs hlf _ he _ =>
    simp only [List.mem_singleton] at h
    subst h
    simp only [List.mem_singleton]
    exact fun hc => hlf hc.symm
  | case5 c cs hlf _ first rest he ih =>
    rw [he] at ih
    rcases List.mem_cons.1 h with rfl | h
    · simp only [List.mem_cons, not_or]
      exact ⟨fun hc => hlf hc.symm, ih (.head _)⟩
    · exact ih (.tail _ h)

/-- The pieces of a text between the occurrences of a character. -/
def pieces (separator : Char) : List Char → List (List Char)
  | [] => [[]]
  | c :: cs =>
    if c = separator then [] :: pieces separator cs
    else
      match pieces separator cs with
      | [] => [[c]]
      | piece :: rest => (c :: piece) :: rest

/-- The items with the separator between every two of them. -/
def separated (sep : String) : List String → String
  | [] => ""
  | [a] => a
  | a :: b :: rest => a ++ sep ++ separated sep (b :: rest)

/-- The number of bytes. -/
def byteLength : List Char → Nat
  | [] => 0
  | c :: cs => c.utf8Size + byteLength cs

/-- The offset of the first occurrence of `needle`. -/
def offsetOf (needle : List Char) : List Char → Option Nat
  | [] => if needle.isEmpty then some 0 else none
  | c :: cs =>
    if needle.isPrefixOf (c :: cs) then some 0
    else (offsetOf needle cs).map (c.utf8Size + ·)

/-- What follows `start` at the beginning of a text. -/
def afterStart : List Char → List Char → Option (List Char)
  | [], cs => some cs
  | _ :: _, [] => none
  | d :: ds, c :: cs => if d = c then afterStart ds cs else none

/-- Text after something that was read from `cs`. -/
abbrev Rest (cs : List Char) := { rest : List Char // rest.length < cs.length }

/-- The rest, if it is shorter than the text read. -/
def rest? (cs rest : List Char) : Option (Rest cs) :=
  if h : rest.length < cs.length then some ⟨rest, h⟩ else none

end Text
end SwiftDecl
