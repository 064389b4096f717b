import Mathlib.Data.List.TakeWhile
import SwiftDecl.Proofs.Text.Search
import SwiftDecl.Text.Basic
import SwiftDecl.Text.Blank

/-!
# SwiftDecl.Proofs.Text.Lines

A text and its lines: what stands before a line, line ends included, and what is left of a line
without the blanks around it.

* `splitLines_eq_cons` — the first line, its end, and the lines after it.
* `lines_of_mem_lines` — a line is its own only line, unless it is empty.
* `exists_before_of_splitLines` — where any line stands. Its offset is that of lines with ends of
  one byte, and one more for each end of two.
* `leadingBlanks_append_dropBlanks`, `exists_dropBlanksEnd_append` — the blanks around a line.
* `isBlank_of_dropBlanksEnd` — what is left of a line does not end with a blank.
-/

namespace SwiftDecl
namespace Text

/-- The number of line ends of two characters. -/
def crlfs : List Char → Nat
  | [] => 0
  | '\r' :: '\n' :: cs => crlfs cs + 1
  | _ :: cs => crlfs cs

/-- The line can stand before this line end. -/
def IsEnded (line ending : List Char) : Prop :=
  '\n' ∉ line ∧ (ending = ['\n'] ∧ line.getLast? ≠ some '\r' ∨ ending = ['\r', '\n'])

/-- The two characters are no line end of two characters. -/
def Apart (c : Char) (cs : List Char) : Prop := c = '\r' → cs.head? ≠ some '\n'

theorem splitLines_cons {c : Char} {cs l : List Char} {ls : List (List Char)} (hc : c ≠ '\n')
    (hcs : Apart c cs) (h : splitLines cs = l :: ls) : splitLines (c :: cs) = (c :: l) :: ls := by
  rw [splitLines, h]
  · exact hc
  · rintro ds rfl rfl
    exact hcs rfl rfl

theorem crlfs_cons {c : Char} {cs : List Char} (hcs : Apart c cs) : crlfs (c :: cs) = crlfs cs := by
  rw [crlfs]
  rintro ds rfl rfl
  exact hcs rfl rfl

theorem IsEnded.of_cons {c : Char} {line ending : List Char} (h : IsEnded (c :: line) ending) :
    IsEnded line ending := by
  obtain ⟨hlf, hending⟩ := h
  refine ⟨fun hmem => hlf (.tail _ hmem), hending.imp_left fun ⟨he, hlast⟩ => ⟨he, ?_⟩⟩
  cases line with
  | nil => simp
  | cons d line => simpa using hlast

theorem IsEnded.cons {c : Char} {line ending : List Char} (h : IsEnded line ending) (hc : c ≠ '\n')
    (hapart : Apart c (line ++ ending)) : IsEnded (c :: line) ending := by
  obtain ⟨hlf, hending⟩ := h
  refine ⟨?_, hending.imp_left fun hone => ⟨hone.1, ?_⟩⟩
  · rw [List.mem_cons, not_or]
    exact ⟨hc.symm, hlf⟩
  · cases line with
    | nil =>
      rintro ⟨rfl⟩
      exact hapart rfl (by rw [hone.1]; rfl)
    | cons d line => simpa using hone.2

theorem IsEnded.apart {c : Char} {line ending : List Char} (h : IsEnded (c :: line) ending)
    (rest : List Char) : Apart c (line ++ ending ++ rest) := by
  rintro rfl
  obtain ⟨hlf, hending⟩ := h
  cases line with
  | nil =>
    rcases hending with ⟨rfl, hlast⟩ | rfl
    · exact absurd rfl hlast
    · simp
  | cons d line =>
    have hd : d ≠ '\n' := fun hd => hlf (hd ▸ .tail _ (.head _))
    simpa using hd

theorem IsEnded.splitLines {line ending : List Char} (h : IsEnded line ending)
    (rest : List Char) : splitLines (line ++ ending ++ rest) = line :: splitLines rest := by
  induction line with
  | nil => rcases h.2 with ⟨rfl, -⟩ | rfl <;> rfl
  | cons c line ih =>
    have hc : c ≠ '\n' := fun hc => h.1 (hc ▸ .head _)
    rw [List.cons_append, List.cons_append, splitLines_cons hc (h.apart rest) (ih h.of_cons)]

theorem IsEnded.crlfs {line ending : List Char} (h : IsEnded line ending) (rest : List Char) :
    crlfs (line ++ ending ++ rest) = crlfs rest + (ending.length - 1) := by
  induction line with
  | nil => rcases h.2 with ⟨rfl, -⟩ | rfl <;> rfl
  | cons c line ih =>
    rw [List.cons_append, List.cons_append, crlfs_cons (h.apart rest), ih h.of_cons]

theorem IsEnded.byteLength {line ending : List Char} (h : IsEnded line ending) :
    byteLength ending = 1 + (ending.length - 1) := by
  rcases h.2 with ⟨rfl, -⟩ | rfl <;> rfl

/-- A text with no such line end in it. -/
theorem crlfs_eq_zero_iff (cs : List Char) : crlfs cs = 0 ↔ ¬ ['\r', '\n'] <:+: cs := by
  fun_induction crlfs cs with
  | case1 => simp
  | case2 cs _ =>
    have hhere : ['\r', '\n'] <:+: '\r' :: '\n' :: cs := ⟨[], cs, rfl⟩
    simp [hhere]
  | case3 c cs hcs ih =>
    have hhead : ¬ ['\r', '\n'] <+: c :: cs := by
      rintro ⟨ds, hds⟩
      obtain ⟨rfl, rfl⟩ := List.cons.inj hds
      exact hcs ds rfl rfl
    rw [ih, List.infix_cons_iff]
    simp [hhead]

theorem splitLines_eq_nil_iff (text : List Char) : splitLines text = [] ↔ text = [] := by
  constructor
  · intro h
    unfold splitLines at h
    split at h
    · rfl
    · cases h
    · cases h
    · split at h
      · cases h
      · cases h
  · rintro rfl
    rfl

/-- The first line has a line end, or it is all the text. -/
theorem splitLines_eq_cons {text line : List Char} {rest : List (List Char)}
    (h : splitLines text = line :: rest) :
    ∃ ending more, text = line ++ ending ++ more ∧ splitLines more = rest ∧
      (IsEnded line ending ∨ ending = [] ∧ more = []) := by
  fun_induction splitLines text generalizing line rest with
  | case1 => cases h
  | case2 cs ih =>
    obtain ⟨rfl, rfl⟩ := List.cons.inj h
    exact ⟨['\n'], cs, rfl, rfl, .inl ⟨List.not_mem_nil, .inl ⟨rfl, by simp⟩⟩⟩
  | case3 cs ih =>
    obtain ⟨rfl, rfl⟩ := List.cons.inj h
    exact ⟨['\r', '\n'], cs, rfl, rfl, .inl ⟨List.not_mem_nil, .inr rfl⟩⟩
  | case4 c cs hlf hcr he _ =>
    obtain ⟨rfl, rfl⟩ := List.cons.inj h
    obtain rfl := (splitLines_eq_nil_iff cs).1 he
    exact ⟨[], [], rfl, rfl, .inr ⟨rfl, rfl⟩⟩
  | case5 c cs hlf hcr first others he ih =>
    obtain ⟨rfl, rfl⟩ := List.cons.inj h
    obtain ⟨ending, more, rfl, hmore, hended⟩ := ih he
    refine ⟨ending, more, rfl, hmore, hended.imp_left fun hended => hended.cons hlf ?_⟩
    rintro rfl hhead
    obtain ⟨ds, hds⟩ := List.head?_eq_some_iff.1 hhead
    exact hcr (ds ++ more) rfl (by rw [hds]; rfl)

/-- A text without line feeds is one line, whatever carriage returns are in it. -/
theorem splitLines_of_lf_not_mem {line : List Char} (hne : line ≠ []) (h : '\n' ∉ line) :
    splitLines line = [line] := by
  induction line with
  | nil => exact absurd rfl hne
  | cons c line ih =>
    rw [List.mem_cons, not_or] at h
    obtain ⟨hc, hline⟩ := h
    cases line with
    | nil =>
      rw [splitLines]
      · rfl
      · exact Ne.symm hc
      · rintro ds - hnil
        cases hnil
    | cons d line =>
      have hd : d ≠ '\n' := fun hd => hline (hd ▸ .head _)
      have hapart : Apart c (d :: line) := fun _ hhead => hd (Option.some.inj hhead)
      exact splitLines_cons (Ne.symm hc) hapart (ih (List.cons_ne_nil d line) hline)

theorem lf_not_mem_of_mem_lines {text line : String} (h : line ∈ lines text) :
    '\n' ∉ line.toList := by
  obtain ⟨cs, hcs, rfl⟩ := List.mem_map.1 h
  rw [String.toList_ofList]
  exact lf_not_mem_splitLines hcs

/-- A line is not split again. -/
theorem lines_of_mem_lines {text line : String} (h : line ∈ lines text) (hne : line ≠ "") :
    lines line = [line] := by
  have hnonempty : line.toList ≠ [] := fun hnil => hne (String.toList_eq_nil_iff.1 hnil)
  rw [lines, splitLines_of_lf_not_mem hnonempty (lf_not_mem_of_mem_lines h), List.map_singleton,
    String.ofList_toList]

/-- The bytes of lines that all end with a line feed. -/
def lfLength : List (List Char) → Nat
  | [] => 0
  | l :: ls => byteLength l + 1 + lfLength ls

/-- The text before a line holds the lines before it. Its bytes are those of these lines with a line
feed each, and one more for each end of two characters. -/
theorem exists_before_of_splitLines {text line : List Char} {earlier later : List (List Char)}
    (h : splitLines text = earlier ++ line :: later) :
    ∃ before after, text = before ++ line ++ after ∧ splitLines before = earlier ∧
      (before = [] ∨ before.getLast? = some '\n') ∧
      byteLength before = lfLength earlier + crlfs before := by
  induction earlier generalizing text with
  | nil =>
    obtain ⟨ending, more, hsplit, -, -⟩ := splitLines_eq_cons h
    rw [List.append_assoc] at hsplit
    exact ⟨[], ending ++ more, hsplit, rfl, .inl rfl, rfl⟩
  | cons l earlier ih =>
    obtain ⟨ending, more, rfl, hmore, hended⟩ := splitLines_eq_cons h
    obtain ⟨before, after, rfl, hbefore, hstart, hbytes⟩ := ih hmore
    rcases hended with hended | ⟨-, hnil⟩
    · refine ⟨l ++ ending ++ before, after, by simp only [List.append_assoc], ?_, .inr ?_, ?_⟩
      · rw [hended.splitLines, hbefore]
      · rcases hstart with rfl | hstart
        · rcases hended.2 with ⟨rfl, -⟩ | rfl <;> simp
        · rw [List.getLast?_append, hstart]
          rfl
      · rw [hended.crlfs, byteLength_append, byteLength_append, hended.byteLength, hbytes,
          lfLength]
        omega
    · -- After a line without an end there is no other line.
      rw [hnil] at hmore
      cases earlier <;> cases hmore

/-! ## Blanks around a line -/

/-- The blanks at the beginning. -/
def leadingBlanks (cs : List Char) : List Char := cs.takeWhile isBlank

theorem leadingBlanks_append_dropBlanks (cs : List Char) :
    leadingBlanks cs ++ dropBlanks cs = cs := List.takeWhile_append_dropWhile

/-- What blanks at the end are dropped. -/
theorem exists_dropBlanksEnd_append (cs : List Char) :
    ∃ blanks, cs = dropBlanksEnd cs ++ blanks ∧ ∀ c ∈ blanks, isBlank c = true := by
  refine ⟨(cs.reverse.takeWhile isBlank).reverse, ?_, fun c hc => ?_⟩
  · rw [dropBlanksEnd, dropBlanks, ← List.reverse_append, List.takeWhile_append_dropWhile,
      List.reverse_reverse]
  · exact List.all_eq_true.1 (List.all_takeWhile ..) c (List.mem_reverse.1 hc)

theorem dropBlanksEnd_append_cons {c : Char} (hc : isBlank c = false) (xs ys : List Char) :
    dropBlanksEnd (xs ++ c :: ys) = xs ++ c :: dropBlanksEnd ys := by
  have hdrop : (ys.reverse ++ c :: xs.reverse).dropWhile isBlank =
      ys.reverse.dropWhile isBlank ++ c :: xs.reverse := by
    rw [List.dropWhile_append]
    split
    · rename_i hnone
      rw [List.isEmpty_iff.1 hnone, List.nil_append,
        List.dropWhile_cons_of_neg (by simp [hc])]
    · rfl
  simp [dropBlanksEnd, dropBlanks, hdrop]

theorem dropBlanks_append_cons {c : Char} {blanks : List Char}
    (hblanks : ∀ b ∈ blanks, isBlank b = true) (hc : isBlank c = false) (cs : List Char) :
    dropBlanks (blanks ++ c :: cs) = c :: cs := by
  rw [dropBlanks, List.dropWhile_append_of_pos hblanks]
  simp [hc]

theorem dropBlanksEnd_eq_nil_iff {cs : List Char} :
    dropBlanksEnd cs = [] ↔ ∀ c ∈ cs, isBlank c = true := by
  rw [dropBlanksEnd, dropBlanks, List.reverse_eq_nil_iff, List.dropWhile_eq_nil_iff]
  simp only [List.mem_reverse]

theorem dropBlanksEnd_dropBlanks_eq_nil {cs : List Char} (h : dropBlanksEnd (dropBlanks cs) = []) :
    dropBlanksEnd cs = [] := by
  rw [dropBlanksEnd_eq_nil_iff] at h ⊢
  rw [← leadingBlanks_append_dropBlanks cs, List.forall_mem_append]
  exact ⟨fun c hc => List.all_eq_true.1 List.all_takeWhile c hc, h⟩

theorem isBlank_of_dropBlanksEnd {cs front : List Char} {c : Char}
    (h : dropBlanksEnd cs = front ++ [c]) : isBlank c = false := by
  rw [dropBlanksEnd, List.reverse_eq_iff, List.reverse_append, List.reverse_singleton,
    List.singleton_append] at h
  exact dropBlanks_head h

end Text
end SwiftDecl
