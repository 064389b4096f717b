import SwiftDecl.Proofs.Manifest.Identifier
import SwiftDecl.Style

/-!
# SwiftDecl.Proofs.Manifest.Escaping

Backticks around names. Validation looks at a name without the pair of backticks around it, and
the usual renderer puts such a pair around reserved words. So what is inside stays the same.

* `bare_escapedIdentifier` — a name and its spelling are the same inside their backticks.
* `escapedIdentifier_eq_iff` — the names that share a spelling.
* `escaping_agrees_with_validation` — the above together: a spelling is no reserved word, is
  accepted if the name is, and stays as it is from then on.
-/

namespace SwiftDecl

open NameFlaw (bare)

namespace NameFlaw

theorem bare_enclosed (cs : List Char) : bare ('\x60' :: (cs ++ ['\x60'])) = cs := by
  rw [bare, List.getLast?_concat, if_pos rfl, List.dropLast_concat]

theorem bare_of_head {cs : List Char} (h : cs.head? ≠ some '\x60') : bare cs = cs := by
  unfold bare
  split
  · exact absurd rfl h
  · rfl

/-- A name has a pair of backticks around it or none. -/
theorem eq_bare_or_eq_enclosed (cs : List Char) :
    cs = bare cs ∨ cs = '\x60' :: (bare cs ++ ['\x60']) := by
  unfold bare
  split
  · rename_i ds
    split
    · rename_i hlast
      obtain ⟨front, rfl⟩ := List.getLast?_eq_some_iff.1 hlast
      exact .inr (by rw [List.dropLast_concat])
    · exact .inl rfl
  · exact .inl rfl

end NameFlaw

theorem toList_enclosed (n : String) :
    ("`" ++ n ++ "`").toList = '\x60' :: (n.toList ++ ['\x60']) := by
  rw [String.toList_append, String.toList_append]
  rfl

theorem bare_enclosed_toList (n : String) : bare ("`" ++ n ++ "`").toList = n.toList := by
  rw [toList_enclosed, NameFlaw.bare_enclosed]

variable {m n w : String}

theorem head?_ne_of_reserved (h : w ∈ reservedWords) : w.toList.head? ≠ some '\x60' := by
  have hall : ∀ w ∈ reservedWords, w.toList.head? ≠ some '\x60' := by decide +kernel
  exact hall w h

theorem bare_of_reserved (h : w ∈ reservedWords) : bare w.toList = w.toList :=
  NameFlaw.bare_of_head (head?_ne_of_reserved h)

theorem enclosed_not_reserved (n : String) : "`" ++ n ++ "`" ∉ reservedWords := by
  intro h
  have hhead := head?_ne_of_reserved h
  rw [toList_enclosed] at hhead
  exact hhead rfl

/-! ## Spellings -/

theorem escapedIdentifier_of_reserved (h : n ∈ reservedWords) :
    escapedIdentifier n = "`" ++ n ++ "`" := if_pos h

theorem escapedIdentifier_of_not_reserved (h : n ∉ reservedWords) : escapedIdentifier n = n :=
  if_neg h

theorem escapedIdentifier_not_reserved (n : String) : escapedIdentifier n ∉ reservedWords := by
  by_cases h : n ∈ reservedWords
  · rw [escapedIdentifier_of_reserved h]
    exact enclosed_not_reserved n
  · rwa [escapedIdentifier_of_not_reserved h]

theorem escapedIdentifier_eq_self_iff (name : String) :
    escapedIdentifier name = name ↔ name ∉ reservedWords := by
  refine ⟨fun h => ?_, escapedIdentifier_of_not_reserved⟩
  rw [← h]
  exact escapedIdentifier_not_reserved name

theorem bare_escapedIdentifier (n : String) :
    bare (escapedIdentifier n).toList = bare n.toList := by
  by_cases h : n ∈ reservedWords
  · rw [escapedIdentifier_of_reserved h, bare_enclosed_toList, bare_of_reserved h]
  · rw [escapedIdentifier_of_not_reserved h]

/-- Around a reserved word there are backticks in the end, whether or not they were there before. -/
theorem escapedIdentifier_of_bare (hw : w ∈ reservedWords) (h : bare n.toList = w.toList) :
    escapedIdentifier n = "`" ++ w ++ "`" := by
  rcases NameFlaw.eq_bare_or_eq_enclosed n.toList with hn | hn
  · obtain rfl : n = w := String.toList_inj.1 (hn.trans h)
    exact escapedIdentifier_of_reserved hw
  · rw [h, ← toList_enclosed] at hn
    obtain rfl := String.toList_inj.1 hn
    exact escapedIdentifier_of_not_reserved (enclosed_not_reserved w)

theorem escapedIdentifier_eq_iff : escapedIdentifier m = escapedIdentifier n ↔
    m = n ∨ ∃ w ∈ reservedWords, bare m.toList = w.toList ∧ bare n.toList = w.toList := by
  constructor
  · intro h
    have hbare : bare m.toList = bare n.toList := by
      rw [← bare_escapedIdentifier m, h, bare_escapedIdentifier n]
    by_cases hm : m ∈ reservedWords
    · have hmm := bare_of_reserved hm
      exact .inr ⟨m, hm, hmm, hbare.symm.trans hmm⟩
    · by_cases hn : n ∈ reservedWords
      · have hnn := bare_of_reserved hn
        exact .inr ⟨n, hn, hbare.trans hnn, hnn⟩
      · rw [escapedIdentifier_of_not_reserved hm, escapedIdentifier_of_not_reserved hn] at h
        exact .inl h
  · rintro (rfl | ⟨w, hw, hm, hn⟩)
    · rfl
    · rw [escapedIdentifier_of_bare hw hm, escapedIdentifier_of_bare hw hn]

theorem isIdentifier_congr (h : bare m.toList = bare n.toList) :
    IsIdentifier m ↔ IsIdentifier n := by
  rw [IsIdentifier, IsIdentifier, NameFlaw.ofName, NameFlaw.ofName, h]

/-- The usual spelling of a name passes validation exactly if the name does. It is never a reserved
word: those have one pair of backticks around them, and all other names stay as they are, also
those that are spelled already. Names with the same spelling are equal inside their backticks, and
unless they are equal altogether, there is a reserved word inside. -/
theorem escaping_agrees_with_validation (n : String) :
    (IsIdentifier (swiftNames.identifier n) ↔ IsIdentifier n) ∧
    swiftNames.identifier n ∉ reservedWords ∧
    (n ∉ reservedWords ∧ swiftNames.identifier n = n ∨
      n ∈ reservedWords ∧ swiftNames.identifier n = "`" ++ n ++ "`") ∧
    swiftNames.identifier (swiftNames.identifier n) = swiftNames.identifier n ∧
    ∀ m, (swiftNames.identifier m = swiftNames.identifier n → bare m.toList = bare n.toList) ∧
      (swiftNames.identifier m = swiftNames.identifier n ↔
        m = n ∨ ∃ w ∈ reservedWords, bare m.toList = w.toList ∧ bare n.toList = w.toList) := by
  have hbare : bare (swiftNames.identifier n).toList = bare n.toList := bare_escapedIdentifier n
  have hfree : swiftNames.identifier n ∉ reservedWords := escapedIdentifier_not_reserved n
  refine ⟨isIdentifier_congr hbare, hfree, ?_, escapedIdentifier_of_not_reserved hfree,
    fun m => ⟨fun h => ?_, escapedIdentifier_eq_iff⟩⟩
  · by_cases h : n ∈ reservedWords
    · exact .inr ⟨h, escapedIdentifier_of_reserved h⟩
    · exact .inl ⟨h, escapedIdentifier_of_not_reserved h⟩
  · rw [← hbare, ← h]
    exact (bare_escapedIdentifier m).symm

example : swiftNames.identifier "class" = "`class`" ∧ swiftNames.identifier "`class`" = "`class`" ∧
    swiftNames.identifier "`open`" = "`open`" := by decide +kernel

end SwiftDecl
