import SwiftDecl.Text.Basic

/-!
# SwiftDecl.Proofs.Text.Search

Searching a text. The search goes down one character at a time and counts bytes, the occurrences of
a text in another are the ways to cut the other in three.

* `byteLength_toList` — bytes are those of the UTF-8 form.
* `first_of_offsetOf`, `offsetOf_eq_none_iff` — the search finds the first occurrence if there
  is one.
* `afterStart_eq_some_iff` — what follows a beginning.
-/

namespace SwiftDecl
namespace Text

@[simp] theorem byteLength_nil : byteLength [] = 0 := rfl

@[simp] theorem byteLength_cons (c : Char) (cs : List Char) :
    byteLength (c :: cs) = c.utf8Size + byteLength cs := rfl

@[simp] theorem byteLength_append (a b : List Char) :
    byteLength (a ++ b) = byteLength a + byteLength b := by
  induction a with
  | nil => simp
  | cons c a ih => simp [ih, Nat.add_assoc]

theorem byteLength_toList (s : String) : byteLength s.toList = s.utf8ByteSize := by
  have hlist : ∀ cs : List Char, (String.ofList cs).utf8ByteSize = byteLength cs := by
    intro cs
    induction cs with
    | nil => rfl
    | cons c cs ih =>
      rw [String.ofList_cons, String.utf8ByteSize_append, String.utf8ByteSize_singleton, ih,
        byteLength_cons]
  rw [← hlist, String.ofList_toList]

/-- Two beginnings of a text with the same number of bytes are the same. -/
theorem eq_of_byteLength_eq {a b x y : List Char} (h : a ++ x = b ++ y)
    (hsize : byteLength a = byteLength b) : a = b ∧ x = y := by
  induction a generalizing b with
  | nil =>
    cases b with
    | nil => exact ⟨rfl, h⟩
    | cons d b =>
      have hpos := d.utf8Size_pos
      simp only [byteLength_nil, byteLength_cons] at hsize
      omega
  | cons c a ih =>
    cases b with
    | nil =>
      have hpos := c.utf8Size_pos
      simp only [byteLength_nil, byteLength_cons] at hsize
      omega
    | cons d b =>
      obtain ⟨rfl, hrest⟩ := List.cons.inj h
      obtain ⟨rfl, hxy⟩ := ih hrest (by simpa using hsize)
      exact ⟨rfl, hxy⟩

/-- The text with its first occurrence of `needle` between `before` and `after`. -/
structure First (needle text before after : List Char) : Prop where
  split : text = before ++ needle ++ after
  least : ∀ b a, text = b ++ needle ++ a → byteLength before ≤ byteLength b

theorem first_of_offsetOf {needle text : List Char} {n : Nat} (h : offsetOf needle text = some n) :
    ∃ before after, First needle text before after ∧ byteLength before = n := by
  induction text generalizing n with
  | nil =>
    rw [offsetOf] at h
    split at h
    · rename_i hnil
      obtain rfl := List.isEmpty_iff.1 hnil
      exact ⟨[], [], ⟨rfl, fun _ _ _ => Nat.zero_le _⟩, Option.some.inj h⟩
    · cases h
  | cons c cs ih =>
    rw [offsetOf] at h
    split at h
    · rename_i hstarts
      obtain ⟨after, hafter⟩ := List.isPrefixOf_iff_prefix.1 hstarts
      exact ⟨[], after, ⟨hafter.symm, fun _ _ _ => Nat.zero_le _⟩, Option.some.inj h⟩
    · rename_i hstarts
      obtain ⟨m, hm, rfl⟩ := Option.map_eq_some_iff.1 h
      obtain ⟨before, after, hfirst, rfl⟩ := ih hm
      refine ⟨c :: before, after, ⟨by rw [hfirst.split]; rfl, fun b a hsplit => ?_⟩, rfl⟩
      cases b with
      | nil =>
        -- An occurrence at the very beginning is what the search has looked for first.
        exact absurd (List.isPrefixOf_iff_prefix.2 ⟨a, hsplit.symm⟩) hstarts
      | cons d b =>
        obtain ⟨rfl, hrest⟩ := List.cons.inj hsplit
        have hle := hfirst.least b a hrest
        simp only [byteLength_cons]
        omega

theorem offsetOf_eq_none_iff {needle text : List Char} :
    offsetOf needle text = none ↔ ¬ ∃ b a, text = b ++ needle ++ a := by
  constructor
  · intro h
    induction text with
    | nil =>
      rintro ⟨b, a, hsplit⟩
      have hnil : needle = [] := by
        have := hsplit.symm
        simp only [List.append_eq_nil_iff] at this
        exact this.1.2
      simp [offsetOf, hnil] at h
    | cons c cs ih =>
      rw [offsetOf] at h
      split at h
      · cases h
      · rename_i hstarts
        rintro ⟨b, a, hsplit⟩
        cases b with
        | nil => exact hstarts (List.isPrefixOf_iff_prefix.2 ⟨a, hsplit.symm⟩)
        | cons d b => exact ih (Option.map_eq_none_iff.1 h) ⟨b, a, (List.cons.inj hsplit).2⟩
  · intro h
    cases hn : offsetOf needle text with
    | none => rfl
    | some n =>
      obtain ⟨before, after, hfirst, -⟩ := first_of_offsetOf hn
      exact absurd ⟨before, after, hfirst.split⟩ h

/-! ## Beginnings -/

theorem afterStart_eq_some_iff {start cs rest : List Char} :
    afterStart start cs = some rest ↔ cs = start ++ rest := by
  induction start generalizing cs with
  | nil => simp [afterStart]
  | cons d ds ih =>
    cases cs with
    | nil => simp [afterStart]
    | cons c cs =>
      rw [afterStart]
      split
      · rename_i hdc
        simp [ih, hdc]
      · rename_i hdc
        simp [Ne.symm hdc]

end Text
end SwiftDecl
