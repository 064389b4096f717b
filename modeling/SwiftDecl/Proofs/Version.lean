import Mathlib.Data.Nat.Digits.Defs
import SwiftDecl.Proofs.Text.Pieces
import SwiftDecl.Version

/-!
# SwiftDecl.Proofs.Version

Versions and their text. What a numeral stands for is said by positions, from the last digit on,
and not by the reader.

* `readUnsigned_eq_some_iff` — the numerals that are read, and their numbers.
* `parse_eq_ok_iff` — the texts that are versions.
* `parse_display_eq` — reading the text of a version gives the version back.
* `pairwise_sort` — sorting puts versions into the order of their numbers.
* `version_codec_exact` — the above together.
-/

namespace SwiftDecl

namespace Number

/-- The number that decimal digits stand for, the last of them counting once. -/
def decimalValue (digits : List Char) : Nat :=
  Nat.ofDigits 10 (digits.reverse.map fun d => d.toNat - '0'.toNat)

/-- One or more ASCII digits, perhaps after a plus sign, that stand for the number. -/
def IsNumeral (cs : List Char) (n : Nat) : Prop :=
  ∃ digits, (cs = digits ∨ cs = '+' :: digits) ∧ digits ≠ [] ∧
    (∀ d ∈ digits, d.isDigit = true) ∧ decimalValue digits = n

theorem ofDigitChars_eq_decimalValue (cs : List Char) :
    Nat.ofDigitChars 10 cs 0 = decimalValue cs := by
  rw [decimalValue, Nat.ofDigits_eq_foldr, List.foldr_map, List.foldr_reverse, Nat.ofDigitChars]
  simp only [Nat.cast_id, Nat.add_comm]

theorem readDigits_eq_some_iff {cs : List Char} {n : Nat} : readDigits cs = some n ↔
    cs ≠ [] ∧ (∀ d ∈ cs, d.isDigit = true) ∧ decimalValue cs = n := by
  rw [readDigits, ofDigitChars_eq_decimalValue]
  simp [and_assoc]

theorem isNumeral_plus_iff {digits : List Char} {n : Nat} :
    IsNumeral ('+' :: digits) n ↔ readDigits digits = some n := by
  rw [readDigits_eq_some_iff]
  constructor
  · rintro ⟨ds, rfl | h, hne, hdigits, hn⟩
    · exact absurd (hdigits '+' (.head _)) (by decide)
    · obtain rfl := (List.cons.inj h).2
      exact ⟨hne, hdigits, hn⟩
  · exact fun ⟨hne, hdigits, hn⟩ => ⟨digits, .inr rfl, hne, hdigits, hn⟩

theorem isNumeral_iff_of_ne_plus {cs : List Char} {n : Nat} (h : ∀ ds, cs ≠ '+' :: ds) :
    IsNumeral cs n ↔ readDigits cs = some n := by
  rw [readDigits_eq_some_iff]
  constructor
  · rintro ⟨ds, rfl | hplus, hne, hdigits, hn⟩
    · exact ⟨hne, hdigits, hn⟩
    · exact absurd hplus (h ds)
  · exact fun ⟨hne, hdigits, hn⟩ => ⟨cs, .inl rfl, hne, hdigits, hn⟩

theorem readUnsigned_eq_some_iff {bound n : Nat} {cs : List Char} :
    readUnsigned bound cs = some n ↔ IsNumeral cs n ∧ n < bound := by
  unfold readUnsigned
  split
  · rw [isNumeral_plus_iff, Option.filter_eq_some_iff, decide_eq_true_eq]
  · rename_i hplus
    rw [isNumeral_iff_of_ne_plus hplus, Option.filter_eq_some_iff, decide_eq_true_eq]

theorem isDigit_of_mem_decimal {n : Nat} {c : Char} (h : c ∈ Nat.toDigits 10 n) :
    c.isDigit = true :=
  Nat.isDigit_of_mem_toDigits (by decide) (by decide) h

theorem isNumeral_toDigits (n : Nat) : IsNumeral (Nat.toDigits 10 n) n := by
  refine ⟨_, .inl rfl, Nat.toDigits_ne_nil, fun d hd => isDigit_of_mem_decimal hd, ?_⟩
  rw [← ofDigitChars_eq_decimalValue, Nat.ofDigitChars_ten_toDigits]

end Number

namespace SwiftVersion

open Number (IsNumeral)

/-- Two numerals with one dot between them, and no other dot. -/
def Spells (s : String) (major minor : Nat) : Prop :=
  ∃ a b, s.toList = a ++ '.' :: b ∧ '.' ∉ a ∧ '.' ∉ b ∧ IsNumeral a major ∧ IsNumeral b minor

theorem readNumber_eq_some_iff {cs : List Char} {n : UInt32} :
    readNumber cs = some n ↔ IsNumeral cs n.toNat := by
  rw [readNumber, Option.map_eq_some_iff]
  constructor
  · rintro ⟨k, hk, rfl⟩
    obtain ⟨hcs, hbound⟩ := Number.readUnsigned_eq_some_iff.1 hk
    rwa [UInt32.toNat_ofNat_of_lt' hbound]
  · intro h
    exact ⟨n.toNat, Number.readUnsigned_eq_some_iff.2 ⟨h, n.toNat_lt⟩, UInt32.ofNat_toNat⟩

theorem parse_eq_ok_iff_pieces {s : String} {v : SwiftVersion} : parse s = .ok v ↔
    ∃ a b, Text.pieces '.' s.toList = [a, b] ∧ readNumber a = some v.major ∧
      readNumber b = some v.minor := by
  unfold parse
  split
  · rename_i a b hpieces
    rw [hpieces]
    cases ha : readNumber a with
    | none => simp [ha]
    | some major =>
      cases hb : readNumber b with
      | none => simp [hb]
      | some minor =>
        cases v
        simp [ha, hb]
  · rename_i hpieces
    refine iff_of_false (fun h => by cases h) ?_
    rintro ⟨a, b, h, -⟩
    exact hpieces a b h

theorem parse_eq_ok_iff (s : String) (v : SwiftVersion) :
    parse s = .ok v ↔ Spells s v.major.toNat v.minor.toNat := by
  simp only [parse_eq_ok_iff_pieces, Text.pieces_eq_pair_iff, readNumber_eq_some_iff, and_assoc,
    Spells]

theorem toList_display (v : SwiftVersion) : v.display.toList =
    Nat.toDigits 10 v.major.toNat ++ '.' :: Nat.toDigits 10 v.minor.toNat := by
  simp [display]

theorem parse_display_eq (v : SwiftVersion) : parse v.display = .ok v := by
  have hdot : ∀ n : Nat, '.' ∉ Nat.toDigits 10 n := fun n hmem =>
    absurd (Number.isDigit_of_mem_decimal hmem) (by decide)
  rw [parse_eq_ok_iff]
  exact ⟨_, _, toList_display v, hdot _, hdot _, Number.isNumeral_toDigits _,
    Number.isNumeral_toDigits _⟩

/-! ## Order -/

/-- By major number, then by minor number. -/
def Precedes (a b : SwiftVersion) : Prop :=
  a.major.toNat < b.major.toNat ∨ a.major.toNat = b.major.toNat ∧ a.minor.toNat < b.minor.toNat

instance (a b : SwiftVersion) : Decidable (Precedes a b) := inferInstanceAs (Decidable (_ ∨ _))

theorem compare_eq_lt_iff (a b : SwiftVersion) : compare a b = .lt ↔ Precedes a b := by
  rw [compare, Ordering.then_eq_lt, Std.compare_eq_lt, Std.compare_eq_lt,
    Std.LawfulEqOrd.compare_eq_iff_eq, UInt32.lt_iff_toNat_lt, UInt32.lt_iff_toNat_lt,
    ← UInt32.toNat_inj, Precedes]

theorem compare_eq_gt_iff (a b : SwiftVersion) : compare a b = .gt ↔ Precedes b a := by
  rw [← compare_eq_lt_iff, compare, compare, Ordering.then_eq_gt, Ordering.then_eq_lt]
  rw [Std.OrientedCmp.gt_iff_lt, Std.OrientedCmp.gt_iff_lt, Std.OrientedCmp.eq_comm]

/-- Sorting puts no version before one that precedes it. -/
theorem pairwise_sort (vs : List SwiftVersion) :
    (sort vs).Pairwise fun a b => ¬ Precedes b a := by
  have hle : ∀ a b : SwiftVersion, (compare a b != .gt) = true ↔ ¬ Precedes b a := by
    intro a b
    rw [bne_iff_ne, ne_eq, compare_eq_gt_iff]
  have htrans : ∀ a b c : SwiftVersion, (compare a b != .gt) = true →
      (compare b c != .gt) = true → (compare a c != .gt) = true := by
    intro a b c hab hbc
    rw [hle] at hab hbc ⊢
    unfold Precedes at *
    omega
  have htotal : ∀ a b : SwiftVersion, ((compare a b != .gt) || (compare b a != .gt)) = true := by
    intro a b
    rw [Bool.or_eq_true, hle, hle]
    unfold Precedes
    omega
  exact (List.pairwise_mergeSort htrans htotal vs).imp fun {a b} h => (hle a b).1 h

/-- A text is a version exactly if it consists of two numerals around its only dot, each of a number
below two to the power of 32, and then these are its numbers. The text of a version is read as that
version, so no two versions have the same text. The order of versions, which sorting follows, is
that of their major numbers and then of their minor numbers. -/
theorem version_codec_exact :
    (∀ s v, parse s = .ok v ↔ Spells s v.major.toNat v.minor.toNat) ∧
    (∀ s, (∃ v, parse s = .ok v) ↔
      ∃ major minor, Spells s major minor ∧ major ≤ 2 ^ 32 - 1 ∧ minor ≤ 2 ^ 32 - 1) ∧
    (∀ v : SwiftVersion, parse v.display = .ok v) ∧
    (∀ v w : SwiftVersion, v.display = w.display ↔ v = w) ∧
    (∀ v w : SwiftVersion, v < w ↔ Precedes v w) ∧
    ∀ vs, (sort vs).Perm vs ∧ (sort vs).Pairwise fun v w => ¬ w < v := by
  refine ⟨parse_eq_ok_iff, fun s => ⟨?_, ?_⟩, parse_display_eq, fun v w => ⟨fun h => ?_, ?_⟩,
    compare_eq_lt_iff, fun vs => ⟨List.mergeSort_perm _ _, ?_⟩⟩
  · rintro ⟨v, hv⟩
    exact ⟨_, _, (parse_eq_ok_iff s v).1 hv, Nat.le_sub_one_of_lt v.major.toNat_lt,
      Nat.le_sub_one_of_lt v.minor.toNat_lt⟩
  · rintro ⟨major, minor, hs, hmajor, hminor⟩
    have hlt : ∀ n, n ≤ 2 ^ 32 - 1 → n < UInt32.size := fun n hn => Nat.lt_of_le_pred (by decide) hn
    refine ⟨⟨.ofNat major, .ofNat minor⟩, (parse_eq_ok_iff s _).2 ?_⟩
    rwa [UInt32.toNat_ofNat_of_lt' (hlt major hmajor), UInt32.toNat_ofNat_of_lt' (hlt minor hminor)]
  · have hread := parse_display_eq v
    rw [h, parse_display_eq] at hread
    exact (Except.ok.inj hread).symm
  · rintro rfl
    rfl
  · exact (pairwise_sort vs).imp fun {v w} h hlt => h ((compare_eq_lt_iff w v).1 hlt)

example : (parse "+05.0010").toOption = some ⟨5, 10⟩ ∧ (parse "5.4294967296").toOption = none ∧
    Precedes ⟨5, 9⟩ ⟨5, 10⟩ := by decide +kernel

end SwiftVersion
end SwiftDecl
