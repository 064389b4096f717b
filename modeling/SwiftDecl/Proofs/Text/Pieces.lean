import SwiftDecl.Text.Basic

/-!
# SwiftDecl.Proofs.Text.Pieces

The pieces of a text between the occurrences of a character, and what stands after each of these
occurrences.

* `pieces_of_not_mem`, `pieces_append` — one piece, and the first of several.
* `intercalate_pieces`, `not_mem_of_mem_pieces` — the pieces make up the text, and the character is
  in none of them.
* `followed_cons`, `followed_append` — the occurrences in a text are those in its parts.
* `forall_pieces_iff` — how the pieces begin is how the text begins and how it goes on after each
  occurrence.
-/

namespace SwiftDecl
namespace Text

variable {separator : Char} {P : List Char → Prop}

theorem pieces_of_not_mem {cs : List Char} (h : separator ∉ cs) : pieces separator cs = [cs] := by
  induction cs with
  | nil => rfl
  | cons c cs ih =>
    rw [List.mem_cons, not_or] at h
    rw [pieces, if_neg fun hc => h.1 hc.symm, ih h.2]

theorem pieces_append {a : List Char} (b : List Char) (h : separator ∉ a) :
    pieces separator (a ++ separator :: b) = a :: pieces separator b := by
  induction a with
  | nil => rw [List.nil_append, pieces, if_pos rfl]
  | cons c a ih =>
    rw [List.mem_cons, not_or] at h
    rw [List.cons_append, pieces, if_neg fun hc => h.1 hc.symm, ih h.2]

theorem pieces_ne_nil (separator : Char) (cs : List Char) : pieces separator cs ≠ [] := by
  cases cs with
  | nil => exact List.cons_ne_nil _ _
  | cons c cs =>
    rw [pieces]
    split
    · exact List.cons_ne_nil _ _
    · split <;> exact List.cons_ne_nil _ _

theorem intercalate_pieces (separator : Char) (cs : List Char) :
    [separator].intercalate (pieces separator cs) = cs := by
  induction cs with
  | nil => rfl
  | cons c cs ih =>
    obtain ⟨piece, rest, h⟩ := List.exists_cons_of_ne_nil (pieces_ne_nil separator cs)
    rw [h] at ih
    by_cases hc : c = separator
    · rw [pieces, if_pos hc, h, List.intercalate_cons_cons, ih, hc]
      rfl
    · rw [pieces, if_neg hc, h]
      cases rest with
      | nil => simpa using ih
      | cons next rest => simpa using ih

theorem not_mem_of_mem_pieces {cs piece : List Char} (h : piece ∈ pieces separator cs) :
    separator ∉ piece := by
  induction cs generalizing piece with
  | nil =>
    rw [pieces, List.mem_singleton] at h
    rw [h]
    exact List.not_mem_nil
  | cons c cs ih =>
    by_cases hc : c = separator
    · rw [pieces, if_pos hc, List.mem_cons] at h
      rcases h with rfl | h
      · exact List.not_mem_nil
      · exact ih h
    · obtain ⟨first, rest, hcs⟩ := List.exists_cons_of_ne_nil (pieces_ne_nil separator cs)
      rw [pieces, if_neg hc, hcs, List.mem_cons] at h
      rw [hcs] at ih
      rcases h with rfl | h
      · exact fun hmem => (List.mem_cons.1 hmem).elim (fun he => hc he.symm) (ih (.head _))
      · exact ih (.tail _ h)

theorem pieces_eq_pair_iff {cs a b : List Char} : pieces separator cs = [a, b] ↔
    cs = a ++ separator :: b ∧ separator ∉ a ∧ separator ∉ b := by
  constructor
  · intro h
    have hcs := intercalate_pieces separator cs
    rw [h] at hcs
    have hnone : ∀ piece ∈ [a, b], separator ∉ piece := fun piece hp =>
      not_mem_of_mem_pieces (h ▸ hp)
    exact ⟨by simpa using hcs.symm, hnone a (by simp), hnone b (by simp)⟩
  · rintro ⟨rfl, ha, hb⟩
    rw [pieces_append b ha, pieces_of_not_mem hb]

/-- Wherever the character occurs, the text after it has the property. -/
def Followed (separator : Char) (P : List Char → Prop) (cs : List Char) : Prop :=
  ∀ before after, cs = before ++ separator :: after → P after

theorem followed_of_not_mem {cs : List Char} (h : separator ∉ cs) : Followed separator P cs := by
  rintro before after rfl
  exact absurd (by simp) h

theorem followed_nil : Followed separator P [] := followed_of_not_mem List.not_mem_nil

theorem followed_cons {c : Char} {cs : List Char} :
    Followed separator P (c :: cs) ↔ (c = separator → P cs) ∧ Followed separator P cs := by
  constructor
  · intro h
    refine ⟨fun hc => h [] cs (by rw [hc]; rfl), fun before after hcs => ?_⟩
    exact h (c :: before) after (by rw [hcs]; rfl)
  · rintro ⟨hhere, hthere⟩ before after hcs
    cases before with
    | nil =>
      obtain ⟨hc, rfl⟩ := List.cons.inj hcs
      exact hhere hc
    | cons d before => exact hthere before after (List.cons.inj hcs).2

theorem followed_append (xs ys : List Char) : Followed separator P (xs ++ ys) ↔
    Followed separator (fun after => P (after ++ ys)) xs ∧ Followed separator P ys := by
  induction xs with
  | nil => simp [followed_nil]
  | cons x xs ih => rw [List.cons_append, followed_cons, followed_cons, ih, and_assoc]

/-! ## How the pieces begin -/

/-- The property depends on a text only up to the first occurrence of the character. -/
def LooksUpTo (separator : Char) (P : List Char → Prop) : Prop :=
  ∀ xs ys, P (xs ++ separator :: ys) ↔ P xs

theorem looksUpTo_prefix {c : Char} {mark : List Char} (h : c ∉ mark) :
    LooksUpTo c (mark <+: ·) := by
  intro xs ys
  refine ⟨fun hmark => ?_, fun hmark => hmark.trans (List.prefix_append xs _)⟩
  rcases List.prefix_or_prefix_of_prefix hmark (List.prefix_append xs _) with hxs | ⟨more, rfl⟩
  · exact hxs
  · rw [List.prefix_append_right_inj, List.prefix_cons_iff] at hmark
    rcases hmark with rfl | ⟨more, rfl, -⟩
    · simp
    · exact absurd (by simp) h

/-- The first piece stands for the whole text, also behind any other text. -/
theorem exists_pieces_eq_cons (hP : LooksUpTo separator P) (cs : List Char) :
    ∃ piece rest, pieces separator cs = piece :: rest ∧
      (∀ xs, P (xs ++ piece) ↔ P (xs ++ cs)) ∧
      ((∀ p ∈ rest, P p) ↔ Followed separator P cs) := by
  induction cs with
  | nil => exact ⟨[], [], rfl, fun xs => Iff.rfl, by simp [followed_nil]⟩
  | cons c cs ih =>
    obtain ⟨piece, rest, hpieces, hfirst, hrest⟩ := ih
    by_cases hc : c = separator
    · subst hc
      refine ⟨[], piece :: rest, by rw [pieces, if_pos rfl, hpieces], fun xs => ?_, ?_⟩
      · rw [List.append_nil]
        exact (hP xs cs).symm
      · have hcs : P piece ↔ P cs := hfirst []
        rw [List.forall_mem_cons, hcs, hrest, followed_cons, forall_prop_of_true rfl]
    · refine ⟨c :: piece, rest, by rw [pieces, if_neg hc, hpieces], fun xs => ?_, ?_⟩
      · have hxs := hfirst (xs ++ [c])
        rwa [List.append_assoc, List.append_assoc] at hxs
      · rw [hrest, followed_cons, and_iff_right fun h => absurd h hc]

theorem forall_pieces_iff (hP : LooksUpTo separator P) (cs : List Char) :
    (∀ p ∈ pieces separator cs, P p) ↔ P cs ∧ Followed separator P cs := by
  obtain ⟨piece, rest, hpieces, hfirst, hrest⟩ := exists_pieces_eq_cons hP cs
  have hcs : P piece ↔ P cs := hfirst []
  rw [hpieces, List.forall_mem_cons, hcs, hrest]

end Text
end SwiftDecl
