import SwiftDecl.Proofs.Manifest.Identifier
import SwiftDecl.Proofs.TypeRef.RoundTrip

/-!
# SwiftDecl.Proofs.TypeRef.DeclaredNames

Reading the names that may be declared as types. A declared name may have any letters and numbers,
whereas among the numbers that are no letters a reader of types takes the ten digits only.

* `IsIdentifier.isName_iff` — which declared names are names of types.
* `parse_of_not_isName` — where the others are cut off.
* `declared_name_readable_iff` — what is read from a declared name.
-/

namespace SwiftDecl

open Text (isAlphabetic isBlank isNumeric dropBlanks)

namespace TypeRef

/-! ## Characters -/

theorem numeric_blank_disjoint :
    ∀ n ∈ Text.blankRanges.points, Text.numericRanges.covers n = false := by decide +kernel

theorem isBlank_of_isNumeric {c : Char} (h : isNumeric c = true) : isBlank c = false := by
  cases hb : isBlank c with
  | false => rfl
  | true =>
    rw [isNumeric, numeric_blank_disjoint _ (Ranges.mem_points_of_covers hb)] at h
    cases h

theorem ne_of_isNumeric {c d : Char} (hc : isNumeric c = true) (hd : isNumeric d = false) :
    c ≠ d := ne_of_apply_ne isNumeric (by simp [hc, hd])

/-- A character of a declared name is a character of a type name, unless it is a number that is
neither a letter nor a digit. -/
theorem isNamePart_iff_of_isPart {c : Char} (h : NameFlaw.isPart c = true ∨ c = '\x60') :
    isNamePart c = true ↔ (isNumeric c = true → isAlphabetic c = true ∨ c.isDigit = true) := by
  constructor
  · intro hpart hnumeric
    have hdot : c ≠ '.' := ne_of_isNumeric hnumeric (by decide)
    have hunderscore : c ≠ '_' := ne_of_isNumeric hnumeric (by decide)
    have hquote : c ≠ '\x60' := ne_of_isNumeric hnumeric (by decide)
    simpa [isNamePart, isNameStart, hdot, hunderscore, hquote] using hpart
  · intro hnumeric
    simp only [NameFlaw.isPart, Text.isAlphanumeric, Bool.or_eq_true, beq_iff_eq] at h
    simp only [isNamePart, isNameStart, Bool.or_eq_true, beq_iff_eq]
    rcases h with ((h | h) | h) | h
    · exact .inl (.inr (.inr h))
    · exact (hnumeric h).imp_left fun h => .inr (.inr h)
    · exact .inl (.inr (.inl (.inl h)))
    · exact .inl (.inr (.inl (.inr h)))

end TypeRef

open TypeRef (isName isNameStart isNamePart)

variable {n : String}

theorem NameFlaw.isNameStart_of_isStart {c : Char} (h : isStart c = true) :
    isNameStart c = true := by
  simp only [isStart, Bool.or_eq_true] at h
  simp only [isNameStart, Bool.or_eq_true]
  exact h.elim .inr fun h => .inl (.inl h)

/-- A declared name begins as type names do: with a letter, an underscore or a backtick. -/
theorem IsIdentifier.exists_start (h : IsIdentifier n) :
    ∃ c cs, n.toList = c :: cs ∧ isNameStart c = true := by
  rw [IsIdentifier, NameFlaw.ofName] at h
  unfold NameFlaw.bare at h
  split at h
  · rename_i cs hn
    exact ⟨_, cs, hn, by decide⟩
  · cases hn : n.toList with
    | nil => rw [hn] at h; cases h
    | cons c cs =>
      rw [hn, NameFlaw.ofChars] at h
      split at h
      · cases h
      · rename_i hstart
        exact ⟨c, cs, rfl, NameFlaw.isNameStart_of_isStart (by simpa using hstart)⟩

theorem IsIdentifier.isName_iff (h : IsIdentifier n) : isName n = true ↔
    ∀ c ∈ n.toList, isNumeric c = true → isAlphabetic c = true ∨ c.isDigit = true := by
  obtain ⟨c, cs, hn, hc⟩ := h.exists_start
  have hparts : ∀ d ∈ n.toList, isNamePart d = true ↔
      (isNumeric d = true → isAlphabetic d = true ∨ d.isDigit = true) :=
    fun d hd => TypeRef.isNamePart_iff_of_isPart (h.isPart_of_mem hd)
  rw [← forall₂_congr hparts, hn, List.forall_mem_cons,
    and_iff_right (TypeRef.isNamePart_of_isNameStart hc), isName, hn]
  simp [hc]

namespace TypeRef

theorem parse_of_isName (h : isName n = true) : parse n = .ok (.named n) := by
  rw [parse_eq_ok_iff_derives, tokens_isName h]
  exact .plain .named

/-- Where a declared name stops being a name of a type there stands a number. -/
theorem exists_dropWhile_eq_cons (h : IsIdentifier n) (hname : isName n = false) :
    ∃ d ds, n.toList.dropWhile isNamePart = d :: ds ∧ isNamePart d = false ∧
      isNumeric d = true := by
  cases hd : n.toList.dropWhile isNamePart with
  | nil =>
    have hall : ∀ c ∈ n.toList, isNamePart c = true := List.dropWhile_eq_nil_iff.1 hd
    have hn : isName n = true := h.isName_iff.2 fun c hc =>
      (isNamePart_iff_of_isPart (h.isPart_of_mem hc)).1 (hall c hc)
    rw [hn] at hname
    cases hname
  | cons d ds =>
    have hmem : d ∈ n.toList :=
      (List.dropWhile_suffix isNamePart).subset (hd ▸ List.mem_cons_self)
    have hpart : isNamePart d = false := by
      have hhead := List.head?_dropWhile_not isNamePart n.toList
      rwa [hd] at hhead
    refine ⟨d, ds, rfl, hpart, ?_⟩
    cases hnum : isNumeric d with
    | true => rfl
    | false =>
      have htrue := (isNamePart_iff_of_isPart (h.isPart_of_mem hmem)).2 (by simp [hnum])
      rw [hpart] at htrue
      cases htrue

/-- The name ends before the first character that is no part of it, and the rest is left over. -/
theorem parse_of_not_isName (h : IsIdentifier n) (hname : isName n = false) :
    parse n = .error (.trailing (String.ofList (n.toList.dropWhile isNamePart))) := by
  obtain ⟨c, cs, hn, hc⟩ := h.exists_start
  obtain ⟨d, ds, hrest, hpart, hnumeric⟩ := exists_dropWhile_eq_cons h hname
  have hcs : cs.dropWhile isNamePart = d :: ds := by
    rw [← hrest, hn, List.dropWhile_cons_of_pos (isNamePart_of_isNameStart hc)]
  have hdrop : dropBlanks (d :: ds) = d :: ds :=
    dropBlanks_of_not_isBlank ds (isBlank_of_isNumeric hnumeric)
  have heat : ∀ m, isNumeric m = false → eat m (d :: ds) = (false, d :: ds) := fun m hm => by
    simp [eat, hdrop, ne_of_isNumeric hnumeric hm]
  have hfirst : dropBlanks n.toList = c :: cs := by
    rw [hn, dropBlanks_of_not_isBlank cs (isBlank_of_isNamePart (isNamePart_of_isNameStart hc))]
  have hprimary : ReadsPrimary n.toList _ (d :: ds) :=
    (readsPrimary_name hfirst hc).2 (.inr ⟨hcs ▸ heat '<' (by decide), rfl⟩)
  obtain ⟨_, hr⟩ := readsType_iff.2 ⟨_, _, hprimary, marks_of_eat_false (heat '?' (by decide))⟩
  simp only [parse, hr, hdrop, hrest]

end TypeRef

/-- Every declared name is kept whole by the lenient reader. The strict one reads it exactly if
the numbers in it are letters or digits; of any other it reads the part before the first number
that is neither, and refuses the rest. -/
theorem declared_name_readable_iff (n : String) (h : IsIdentifier n) :
    (TypeRef.parse n = .ok (.named n) ↔ ∀ c ∈ n.toList,
      isNumeric c = true → isAlphabetic c = true ∨ c.isDigit = true) ∧
    (TypeRef.parse n ≠ .ok (.named n) → TypeRef.parse n =
      .error (.trailing (String.ofList (n.toList.dropWhile isNamePart)))) ∧
    TypeRef.ofText n = .named n := by
  have hok : TypeRef.parse n = .ok (.named n) ↔ isName n = true :=
    ⟨fun hp => (TypeRef.wellNamed_of_parse hp).1, TypeRef.parse_of_isName⟩
  have hcut : TypeRef.parse n ≠ .ok (.named n) → TypeRef.parse n =
      .error (.trailing (String.ofList (n.toList.dropWhile isNamePart))) :=
    fun hp => TypeRef.parse_of_not_isName h (by simpa [hok] using hp)
  refine ⟨hok.trans h.isName_iff, hcut, ?_⟩
  by_cases hp : TypeRef.parse n = .ok (.named n)
  · rw [TypeRef.ofText, hp]
  · rw [TypeRef.ofText, hcut hp]

/-- A Roman numeral is a letter as well, and a digit may follow it. -/
theorem declared_name_readable_numeral :
    IsIdentifier "\x60\u2167_1\x60" ∧
    TypeRef.parse "\x60\u2167_1\x60" = .ok (.named "\x60\u2167_1\x60") := by
  have h : IsIdentifier "\x60\u2167_1\x60" := by
    unfold IsIdentifier
    decide +kernel
  have hname : isName "\x60\u2167_1\x60" = true := by decide +kernel
  exact ⟨h, (declared_name_readable_iff _ h).1.2 (h.isName_iff.1 hname)⟩

/-- A name with a superscript may be declared, but no type can be read from it. -/
theorem declared_name_unreadable :
    IsIdentifier "A\u00b2" ∧ TypeRef.parse "A\u00b2" = .error (.trailing "\u00b2") ∧
    TypeRef.parse "A\u00b2" ≠ .ok (.named "A\u00b2") := by
  have hparse : TypeRef.parse "A\u00b2" = .error (.trailing "\u00b2") := by decide +kernel
  refine ⟨by unfold IsIdentifier; decide +kernel, hparse, ?_⟩
  rw [hparse]
  simp

end SwiftDecl
