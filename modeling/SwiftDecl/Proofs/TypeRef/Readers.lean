import SwiftDecl.TypeRef.Parser

/-!
# SwiftDecl.Proofs.TypeRef.Readers

What it means for a reader to succeed, one equivalence for each of them. The text that is left
stands in these statements without the proof that it is shorter.
-/

namespace SwiftDecl
namespace TypeRef

open Text (dropBlanks)

def ReadsType (cs : List Char) (t : TypeRef) (rest : List Char) : Prop :=
  ∃ h, readType cs = .ok (t, ⟨rest, h⟩)

def ReadsPrimary (cs : List Char) (t : TypeRef) (rest : List Char) : Prop :=
  ∃ h, readPrimary cs = .ok (t, ⟨rest, h⟩)

def ReadsList (close : Char) (cs : List Char) (ts : List TypeRef) (rest : List Char) : Prop :=
  ∃ h, readList close cs = .ok (ts, ⟨rest, h⟩)

def ReadsItems (close : Char) (cs : List Char) (ts : List TypeRef) (rest : List Char) : Prop :=
  ∃ h, readItems close cs = .ok (ts, ⟨rest, h⟩)

variable {cs rest r : List Char} {t : TypeRef} {ts : List TypeRef} {c close : Char}

theorem ReadsType.length_lt (h : ReadsType cs t rest) : rest.length < cs.length := h.1

theorem readsType_iff :
    ReadsType cs t rest ↔ ∃ u r, ReadsPrimary cs u r ∧ marks u r = (t, rest) := by
  constructor
  · rintro ⟨hlt, h⟩
    rw [readType] at h
    split at h
    · cases h
    · rename_i u r hr hp
      cases h
      exact ⟨u, r, ⟨hr, hp⟩, rfl⟩
  · rintro ⟨u, r, ⟨hr, hp⟩, hm⟩
    unfold ReadsType
    rw [readType, hp]
    simp [hm]
    have := length_marks_le u r
    rw [hm] at this
    exact Nat.lt_of_le_of_lt this hr

/-- What stands for the types between parentheses. -/
def grouped : List TypeRef → TypeRef
  | [t] => t
  | ts => .tuple ts

theorem readsPrimary_bracket (hd : dropBlanks cs = '[' :: r) :
    ReadsPrimary cs t rest ↔ ∃ e r₁, ReadsType r e r₁ ∧
      ((∃ r₂ v r₃, eat ':' r₁ = (true, r₂) ∧ ReadsType r₂ v r₃ ∧ eat ']' r₃ = (true, rest) ∧
          t = .dictionary e v) ∨
        ∃ r₂, eat ':' r₁ = (false, r₂) ∧ eat ']' r₂ = (true, rest) ∧ t = .array e) := by
  constructor
  · rintro ⟨hlt, h⟩
    rw [readPrimary] at h
    split at h
    · cases h
    · rename_i c r' hd'
      rw [hd] at hd'
      cases hd'
      simp only [↓reduceIte] at h
      split at h
      · cases h
      · rename_i e r₁ hr₁ he
        refine ⟨e, r₁, ⟨hr₁, he⟩, ?_⟩
        split at h
        · rename_i r₂ e₂
          split at h
          · cases h
          · rename_i v r₃ hr₃ hv
            split at h
            · rename_i r₄ e₄
              cases h
              exact .inl ⟨r₂, v, r₃, e₂, ⟨hr₃, hv⟩, e₄, rfl⟩
            · cases h
        · rename_i r₂ e₂
          split at h
          · rename_i r₃ e₃
            cases h
            exact .inr ⟨r₂, e₂, e₃, rfl⟩
          · cases h
  · rintro ⟨e, r₁, ⟨hr₁, he⟩, h⟩
    have hlt := length_lt_of_dropBlanks hd
    unfold ReadsPrimary
    rw [readPrimary]
    split
    · rename_i hd'
      rw [hd] at hd'
      cases hd'
    · rename_i c r' hd'
      rw [hd] at hd'
      cases hd'
      simp only [↓reduceIte, he]
      rcases h with ⟨r₂, v, r₃, e₂, ⟨hr₃, hv⟩, e₄, rfl⟩ | ⟨r₂, e₂, e₃, rfl⟩
      · have h₂ := length_eat_true_lt e₂
        have h₄ := length_eat_true_lt e₄
        split
        · rename_i e₂'
          cases e₂.symm.trans e₂'
          simp only [hv]
          split
          · rename_i e₄'
            cases e₄.symm.trans e₄'
            exact ⟨by omega, rfl⟩
          · rename_i e₄'
            cases e₄.symm.trans e₄'
        · rename_i e₂'
          cases e₂.symm.trans e₂'
      · have h₂ := length_eat_false_le e₂
        have h₃ := length_eat_true_lt e₃
        split
        · rename_i e₂'
          cases e₂.symm.trans e₂'
        · rename_i e₂'
          cases e₂.symm.trans e₂'
          split
          · rename_i e₃'
            cases e₃.symm.trans e₃'
            exact ⟨by omega, rfl⟩
          · rename_i e₃'
            cases e₃.symm.trans e₃'

theorem readsPrimary_paren (hd : dropBlanks cs = '(' :: r) :
    ReadsPrimary cs t rest ↔ ∃ ts, ReadsList ')' r ts rest ∧ t = grouped ts := by
  have hlt := length_lt_of_dropBlanks hd
  constructor
  · rintro ⟨_, h⟩
    rw [readPrimary] at h
    split at h
    · cases h
    · rename_i hd'
      cases hd.symm.trans hd'
      simp only [↓reduceIte, show ¬('(' = '[') by decide] at h
      split at h
      · cases h
      · rename_i hl
        cases h
        exact ⟨[t], ⟨_, hl⟩, rfl⟩
      · rename_i ts _ _ hne hl
        cases h
        refine ⟨ts, ⟨_, hl⟩, ?_⟩
        unfold grouped
        split
        · rename_i u
          exact absurd rfl (hne u)
        · rfl
  · rintro ⟨ts, ⟨_, hl⟩, rfl⟩
    unfold ReadsPrimary
    rw [readPrimary]
    split
    · rename_i hd'
      cases hd.symm.trans hd'
    · rename_i hd'
      cases hd.symm.trans hd'
      simp only [↓reduceIte, show ¬('(' = '[') by decide, hl]
      refine ⟨by omega, ?_⟩
      cases ts with
      | nil => rfl
      | cons u us => cases us <;> rfl

/-- The text of a name that starts a text, and the text after it. -/
theorem readsPrimary_name (hd : dropBlanks cs = c :: r) (hc : isNameStart c = true) :
    ReadsPrimary cs t rest ↔
      (∃ r₁ args, eat '<' (r.dropWhile isNamePart) = (true, r₁) ∧ ReadsList '>' r₁ args rest ∧
        args ≠ [] ∧ t = .generic (String.ofList (c :: r.takeWhile isNamePart)) args) ∨
      (eat '<' (r.dropWhile isNamePart) = (false, rest) ∧
        t = .named (String.ofList (c :: r.takeWhile isNamePart))) := by
  have hlt := length_lt_of_dropBlanks hd
  have hdrop := (List.dropWhile_sublist (l := r) isNamePart).length_le
  have h₁ : c ≠ '[' := by rintro rfl; exact absurd hc (by decide)
  have h₂ : c ≠ '(' := by rintro rfl; exact absurd hc (by decide)
  constructor
  · rintro ⟨_, h⟩
    rw [readPrimary] at h
    split at h
    · cases h
    · rename_i hd'
      cases hd.symm.trans hd'
      simp only [if_neg h₁, if_neg h₂, if_pos hc] at h
      split at h
      · rename_i r₁ e₁
        split at h
        · cases h
        · cases h
        · rename_i args _ _ hne hl
          cases h
          refine .inl ⟨r₁, args, e₁, ⟨_, hl⟩, ?_, rfl⟩
          rintro rfl
          exact hne rfl
      · rename_i e₁
        cases h
        exact .inr ⟨e₁, rfl⟩
  · intro h
    unfold ReadsPrimary
    rw [readPrimary]
    split
    · rename_i hd'
      cases hd.symm.trans hd'
    · rename_i hd'
      cases hd.symm.trans hd'
      simp only [if_neg h₁, if_neg h₂, if_pos hc]
      rcases h with ⟨r₁, args, e₁, ⟨_, hl⟩, hne, rfl⟩ | ⟨e₁, rfl⟩
      · have h₃ := length_eat_true_lt e₁
        split
        · rename_i e₁'
          cases e₁.symm.trans e₁'
          simp only [hl]
          cases args with
          | nil => exact absurd rfl hne
          | cons a as => exact ⟨by omega, trivial⟩
        · rename_i e₁'
          cases e₁.symm.trans e₁'
      · have h₃ := length_eat_false_le e₁
        split
        · rename_i e₁'
          cases e₁.symm.trans e₁'
        · rename_i e₁'
          cases e₁.symm.trans e₁'
          exact ⟨by omega, rfl⟩

/-- A primary type starts with a bracket, a parenthesis or a name. -/
theorem ReadsPrimary.head (h : ReadsPrimary cs t rest) :
    ∃ c r, dropBlanks cs = c :: r ∧ (c = '[' ∨ c = '(' ∨ isNameStart c = true) := by
  obtain ⟨_, h⟩ := h
  rw [readPrimary] at h
  split at h
  · cases h
  · rename_i c r hd
    refine ⟨c, r, hd, ?_⟩
    by_cases h₁ : c = '['
    · exact .inl h₁
    · by_cases h₂ : c = '('
      · exact .inr (.inl h₂)
      · simp only [if_neg h₁, if_neg h₂] at h
        split at h
        · rename_i hc
          exact .inr (.inr hc)
        · cases h

theorem readsList_iff :
    ReadsList close cs ts rest ↔ (eat close cs = (true, rest) ∧ ts = []) ∨
      ∃ r, eat close cs = (false, r) ∧ ReadsItems close r ts rest := by
  constructor
  · rintro ⟨_, h⟩
    rw [readList] at h
    split at h
    · rename_i e
      cases h
      exact .inl ⟨e, rfl⟩
    · rename_i r e
      split at h
      · cases h
      · rename_i hi
        cases h
        exact .inr ⟨r, e, _, hi⟩
  · intro h
    unfold ReadsList
    rw [readList]
    rcases h with ⟨e, rfl⟩ | ⟨r, e, _, hi⟩
    · have h₁ := length_eat_true_lt e
      split
      · rename_i e'
        cases e.symm.trans e'
        exact ⟨h₁, rfl⟩
      · rename_i e'
        cases e.symm.trans e'
    · have h₁ := length_eat_false_le e
      split
      · rename_i e'
        cases e.symm.trans e'
      · rename_i e'
        cases e.symm.trans e'
        simp only [hi]
        exact ⟨by omega, trivial⟩

theorem readsItems_iff :
    ReadsItems close cs ts rest ↔ ∃ t r, ReadsType cs t r ∧
      ((∃ r₁ us, eat ',' r = (true, r₁) ∧ ReadsItems close r₁ us rest ∧ ts = t :: us) ∨
        ∃ r₁, eat ',' r = (false, r₁) ∧ eat close r₁ = (true, rest) ∧ ts = [t]) := by
  constructor
  · rintro ⟨_, h⟩
    rw [readItems] at h
    split at h
    · cases h
    · rename_i t r _ ht
      refine ⟨t, r, ⟨_, ht⟩, ?_⟩
      split at h
      · rename_i r₁ e₁
        split at h
        · cases h
        · rename_i us _ _ hi
          cases h
          exact .inl ⟨r₁, us, e₁, ⟨_, hi⟩, rfl⟩
      · rename_i r₁ e₁
        split at h
        · rename_i e₂
          cases h
          exact .inr ⟨r₁, e₁, e₂, rfl⟩
        · cases h
  · rintro ⟨t, r, ⟨_, ht⟩, h⟩
    unfold ReadsItems
    rw [readItems]
    simp only [ht]
    rcases h with ⟨r₁, us, e₁, ⟨_, hi⟩, rfl⟩ | ⟨r₁, e₁, e₂, rfl⟩
    · have h₁ := length_eat_true_lt e₁
      split
      · rename_i e₁'
        cases e₁.symm.trans e₁'
        simp only [hi]
        exact ⟨by omega, trivial⟩
      · rename_i e₁'
        cases e₁.symm.trans e₁'
    · have h₁ := length_eat_false_le e₁
      have h₂ := length_eat_true_lt e₂
      split
      · rename_i e₁'
        cases e₁.symm.trans e₁'
      · rename_i e₁'
        cases e₁.symm.trans e₁'
        split
        · rename_i e₂'
          cases e₂.symm.trans e₂'
          exact ⟨by omega, rfl⟩
        · rename_i e₂'
          cases e₂.symm.trans e₂'

/-- The whole text stands for a type if the type is read and blanks are left. -/
theorem parse_eq_ok_iff {s : String} :
    parse s = .ok t ↔ ∃ rest, ReadsType s.toList t rest ∧ dropBlanks rest = [] := by
  constructor
  · intro h
    unfold parse at h
    split at h
    · cases h
    · rename_i u rest hlt hr
      split at h
      · rename_i hd
        cases h
        exact ⟨rest, ⟨hlt, hr⟩, hd⟩
      · cases h
  · rintro ⟨rest, ⟨_, hr⟩, hd⟩
    simp only [parse, hr, hd]

end TypeRef
end SwiftDecl
