import SwiftDecl.Proofs.Manifest.FirstDefect

/-!
# SwiftDecl.Proofs.Manifest.Identifier

The characters of a name that passes validation: letters, numbers, underscores, and the backticks
that may stand around them.

* `IsIdentifier.isPart_of_mem` — there is no other character in it.
* `IsIdentifier.lf_not_mem` — so it stays on its line.
-/

namespace SwiftDecl
namespace NameFlaw

theorem isPart_of_isStart {c : Char} (h : isStart c = true) : isPart c = true := by
  simp only [isStart, Bool.or_eq_true] at h
  simp only [isPart, Text.isAlphanumeric, Bool.or_eq_true]
  exact h.imp_left .inl

theorem isPart_of_mem_ofChars {cs : List Char} (h : ofChars cs = none) :
    ∀ c ∈ cs, isPart c = true := by
  cases cs with
  | nil => cases h
  | cons c cs =>
    by_cases hstart : isStart c = true
    · have hrest : ∀ d ∈ cs, isPart d = true := by simpa [ofChars, hstart] using h
      exact List.forall_mem_cons.2 ⟨isPart_of_isStart hstart, hrest⟩
    · simp [ofChars, hstart] at h

theorem mem_bare {c : Char} {cs : List Char} (h : c ∈ cs) : c ∈ bare cs ∨ c = '\x60' := by
  unfold bare
  split
  · rename_i ds
    split
    · rename_i hlast
      rcases List.mem_cons.1 h with rfl | h
      · exact .inr rfl
      · obtain ⟨front, rfl⟩ := List.getLast?_eq_some_iff.1 hlast
        simpa using h
    · exact .inl h
  · exact .inl h

end NameFlaw

variable {n : String}

theorem IsIdentifier.isPart_of_mem (h : IsIdentifier n) {c : Char} (hc : c ∈ n.toList) :
    NameFlaw.isPart c = true ∨ c = '\x60' :=
  (NameFlaw.mem_bare hc).imp_left (NameFlaw.isPart_of_mem_ofChars h c)

theorem IsIdentifier.lf_not_mem (h : IsIdentifier n) : '\n' ∉ n.toList := by
  intro hc
  rcases h.isPart_of_mem hc with hpart | hpart
  · exact absurd hpart (by decide)
  · cases hpart

end SwiftDecl
