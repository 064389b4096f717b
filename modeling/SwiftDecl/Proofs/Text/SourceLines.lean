import SwiftDecl.Proofs.Text.Pieces

/-!
# SwiftDecl.Proofs.Text.SourceLines

The lines of a source as a Swift compiler counts them. For a compiler a carriage return alone ends a
line, too.

* `sourceLines_line` — what becomes of a line that is written with a line feed after it.
* `forall_turns_iff` — the lines that it turns into begin in some way if it does, and so does the
  text after each carriage return in it.
* `exists_sourceLines_eq` — the same for lines that are written one after another behind a mark.
-/

namespace SwiftDecl
namespace Text

variable {P : List Char → Prop}

/-- Lines that end with a line feed, with a carriage return, or with a carriage return and a line
feed. -/
def sourceLines : List Char → List (List Char)
  | [] => []
  | '\r' :: '\n' :: cs => [] :: sourceLines cs
  | c :: cs =>
    if c = '\r' ∨ c = '\n' then [] :: sourceLines cs
    else
      match sourceLines cs with
      | [] => [[c]]
      | l :: ls => (c :: l) :: ls

/-- A line without the carriage return at its end, which together with a line feed is one end. -/
def chomp : List Char → List Char
  | [] => []
  | ['\r'] => []
  | c :: cs => c :: chomp cs

/-- The lines that become of one line. -/
def turns (l : List Char) : List (List Char) := pieces '\r' (chomp l)

theorem chomp_cons {c : Char} {cs : List Char} (h : c = '\r' → cs ≠ []) :
    chomp (c :: cs) = c :: chomp cs := by
  rw [chomp]
  rintro rfl rfl
  exact h rfl rfl

theorem eq_chomp (l : List Char) : l = chomp l ∨ l = chomp l ++ ['\r'] := by
  fun_induction chomp l with
  | case1 => exact .inl rfl
  | case2 => exact .inr rfl
  | case3 c cs _ ih => exact ih.imp (congrArg (c :: ·)) (congrArg (c :: ·))

theorem sourceLines_line {l : List Char} (hl : '\n' ∉ l) (rest : List Char) :
    sourceLines (l ++ '\n' :: rest) = turns l ++ sourceLines rest := by
  induction l with
  | nil => simp [sourceLines, turns, chomp, pieces]
  | cons c l ih =>
    rw [List.mem_cons, not_or] at hl
    by_cases hc : c = '\r'
    · subst hc
      cases l with
      | nil => rfl
      | cons d l =>
        have hd : d ≠ '\n' := fun hd => hl.2 (hd ▸ .head _)
        rw [List.cons_append, List.cons_append, sourceLines, if_pos (.inl rfl), ← List.cons_append,
          ih hl.2, turns, turns, chomp_cons fun _ => List.cons_ne_nil d l, pieces, if_pos rfl]
        · rfl
        · rintro cs - ⟨rfl, -⟩
          exact hd rfl
    · rw [List.cons_append, sourceLines, if_neg (by simp [hc, Ne.symm hl.1]), ih hl.2, turns, turns,
        chomp_cons fun h => absurd h hc, pieces, if_neg hc]
      · cases hpieces : pieces '\r' (chomp l) with
        | nil => exact absurd hpieces (pieces_ne_nil '\r' (chomp l))
        | cons p ps => rfl
      · rintro cs rfl
        exact absurd rfl hc

section

variable (hP : LooksUpTo '\r' P)

include hP

theorem LooksUpTo.chomp_iff (l : List Char) : P (chomp l) ↔ P l := by
  rcases eq_chomp l with h | h
  · rw [← h]
  · have hl := hP (chomp l) []
    rw [← h] at hl
    exact hl.symm

theorem followed_chomp_iff (l : List Char) : Followed '\r' P (chomp l) ↔
    Followed '\r' (fun after => after = [] ∨ P after) l := by
  fun_induction chomp l with
  | case1 => exact iff_of_true followed_nil followed_nil
  | case2 => exact iff_of_true followed_nil (followed_cons.2 ⟨fun _ => .inl rfl, followed_nil⟩)
  | case3 c cs hcs ih =>
    rw [followed_cons, followed_cons, ih]
    refine and_congr_left fun _ => forall_congr' fun hc => ?_
    rw [hP.chomp_iff cs, or_iff_right (hcs hc)]

theorem forall_turns_iff (l : List Char) :
    (∀ p ∈ turns l, P p) ↔ P l ∧ Followed '\r' (fun after => after = [] ∨ P after) l := by
  rw [turns, forall_pieces_iff hP, hP.chomp_iff, followed_chomp_iff hP]

end

/-- The line is written with a line feed after it and behind a mark that is no line end. -/
def IsMarked (P : List Char → Prop) (line written : List Char) : Prop :=
  ∃ mark, (∀ more, P (mark ++ more)) ∧ '\r' ∉ mark ∧ '\n' ∉ mark ++ line ∧
    written = mark ++ line ++ ['\n']

/-- All that becomes of marked lines is marked if they go on so after their carriage returns. -/
theorem exists_sourceLines_eq {α : Type} {line written : α → List Char} {xs : List α}
    (hP : LooksUpTo '\r' P) (h : ∀ x ∈ xs, IsMarked P (line x) (written x)) (rest : List Char) :
    ∃ ls, sourceLines (xs.flatMap written ++ rest) = ls ++ sourceLines rest ∧
      ((∀ l ∈ ls, P l) ↔
        ∀ x ∈ xs, Followed '\r' (fun after => after = [] ∨ P after) (line x)) := by
  induction xs with
  | nil => exact ⟨[], rfl, by simp⟩
  | cons x xs ih =>
    rw [List.forall_mem_cons] at h
    obtain ⟨⟨mark, hmark, hcr, hlf, hwritten⟩, hxs⟩ := h
    obtain ⟨ls, hls, hiff⟩ := ih hxs
    refine ⟨turns (mark ++ line x) ++ ls, ?_, ?_⟩
    · rw [List.flatMap_cons, hwritten, List.append_assoc, List.append_assoc, List.singleton_append,
        sourceLines_line hlf, hls, List.append_assoc]
    · rw [List.forall_mem_append, List.forall_mem_cons, hiff, forall_turns_iff hP,
        and_iff_right (hmark (line x)), followed_append,
        and_iff_right (followed_of_not_mem hcr)]

end Text
end SwiftDecl
