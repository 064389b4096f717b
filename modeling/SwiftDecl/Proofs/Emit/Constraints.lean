import SwiftDecl.Proofs.Emit.Batch

/-!
# SwiftDecl.Proofs.Emit.Constraints

Constraints in a sequence of declarations. A constraint by itself has no text, but it is counted
among the declarations that are kept apart, so that it leaves a line feed behind.

* `batchSource_insert_constraint` — one more constraint adds one line feed at its place.
* `source_without_constraints_iff` — when leaving out all the constraints does not change the text.
-/

namespace SwiftDecl

/-- Something is written for the declaration. -/
def Declaration.isWritten : Declaration → Bool
  | .constraint _ => false
  | _ => true

namespace Emit

theorem length_intercalate (texts : List String) :
    ("\n".intercalate texts).length = (String.join texts).length + (texts.length - 1) := by
  induction texts with
  | nil => simp
  | cons t ts ih =>
    by_cases hts : ts = []
    · simp [hts]
    · have hpos : 0 < ts.length := List.length_pos_iff.2 hts
      rw [String.intercalate_cons_of_ne_nil hts, String.join_cons]
      simp only [String.length_append, ih, List.length_cons]
      have hlf : "\n".length = 1 := rfl
      omega

/-- The characters of a text other than line feeds. -/
def inked (text : String) : List Char := text.toList.filter (· ≠ '\n')

theorem inked_append (a b : String) : inked (a ++ b) = inked a ++ inked b := by
  simp [inked]

theorem inked_intercalate (texts : List String) :
    inked ("\n".intercalate texts) = inked (String.join texts) := by
  induction texts with
  | nil => simp
  | cons t ts ih =>
    by_cases hts : ts = []
    · simp [hts]
    · have hlf : inked "\n" = [] := rfl
      rw [String.intercalate_cons_of_ne_nil hts, String.join_cons]
      simp only [inked_append, hlf, ih, List.append_nil]

/-- What has no text can be left out. -/
theorem join_filter {α : Type} {text : α → String} {isWritten : α → Bool}
    (h : ∀ a, isWritten a = false → text a = "") (xs : List α) :
    String.join ((xs.filter isWritten).map text) = String.join (xs.map text) := by
  induction xs with
  | nil => rfl
  | cons a xs ih =>
    rw [List.map_cons, String.join_cons]
    cases ha : isWritten a with
    | true => rw [List.filter_cons_of_pos ha, List.map_cons, String.join_cons, ih]
    | false =>
      have hne : ¬ isWritten a = true := by simp [ha]
      rw [List.filter_cons_of_neg hne, ih, h a ha, String.empty_append]

/-! ## Sequences with constraints -/

theorem ownText_of_not_isWritten (s : Style) (d : Declaration) (h : d.isWritten = false) :
    ownText s d = "" := by
  cases d with
  | constraint c => rfl
  | _ => cases h

/-- A constraint that joins other declarations adds a line feed between what stands before it and
what stands after it. -/
theorem batchSource_insert_constraint (s : Style) (c : GenericConstraint)
    {xs ys : List Declaration} (hne : xs ++ ys ≠ []) (h : ∀ d ∈ xs ++ ys, Gateable d) :
    ∃ t u, batchSource s (xs ++ ys) = .ok (t ++ u) ∧
      batchSource s (xs ++ .constraint c :: ys) = .ok (t ++ "\n" ++ u) := by
  obtain ⟨hx, hy⟩ := List.forall_mem_append.1 h
  have hcy : ∀ d ∈ .constraint c :: ys, Gateable d := List.forall_mem_cons.2 ⟨trivial, hy⟩
  have hsilent : ownText s (.constraint c) = "" := rfl
  rw [batchSource_ownText s h, batchSource_ownText s (List.forall_mem_append.2 ⟨hx, hcy⟩)]
  simp only [List.map_append, List.map_cons, hsilent]
  by_cases hys : ys = []
  · -- The constraint comes last: its line feed ends the text.
    have hxs : xs.map (ownText s) ≠ [] := by simpa [hys] using hne
    refine ⟨"\n".intercalate (xs.map (ownText s)), "", ?_, ?_⟩
    · simp [hys]
    · simp [hys, String.intercalate_append_of_ne_nil hxs]
  · have hys' : ys.map (ownText s) ≠ [] := by simpa using hys
    have hcons : "\n".intercalate ("" :: ys.map (ownText s)) =
        "\n" ++ "\n".intercalate (ys.map (ownText s)) := by
      simp [String.intercalate_cons_of_ne_nil hys']
    by_cases hxs : xs = []
    · refine ⟨"", "\n".intercalate (ys.map (ownText s)), ?_, ?_⟩
      · simp [hxs]
      · simp [hxs, hcons]
    · have hxs' : xs.map (ownText s) ≠ [] := by simpa using hxs
      refine ⟨"\n".intercalate (xs.map (ownText s)) ++ "\n",
        "\n".intercalate (ys.map (ownText s)), ?_, ?_⟩
      · rw [String.intercalate_append_of_ne_nil hxs' hys']
      · rw [String.intercalate_append_of_ne_nil hxs' (List.cons_ne_nil _ _), hcons]
        simp only [String.append_assoc]

/-- With and without its constraints, the text of a sequence is the same but for line feeds: each
declaration after the first has one before it, also if it is a constraint. So the two texts agree
only if there is no constraint at all or nothing beside a single one. -/
theorem source_without_constraints_iff (s : Style) {ds : List Declaration}
    (h : ∀ d ∈ ds, Gateable d) :
    ∃ t u, batchSource s ds = .ok t ∧
      batchSource s (ds.filter Declaration.isWritten) = .ok u ∧
      inked t = inked u ∧
      t.length + ((ds.filter Declaration.isWritten).length - 1) = u.length + (ds.length - 1) ∧
      (t = u ↔ (∀ d ∈ ds, d.isWritten = true) ∨ ds.length = 1) := by
  have hsilent := ownText_of_not_isWritten s
  have hkept : ∀ d ∈ ds.filter Declaration.isWritten, Gateable d :=
    fun d hd => h d (List.mem_filter.1 hd).1
  rw [batchSource_ownText s h, batchSource_ownText s hkept]
  have hlength := length_intercalate (ds.map (ownText s))
  have hlength' := length_intercalate ((ds.filter Declaration.isWritten).map (ownText s))
  rw [join_filter hsilent, List.length_map] at hlength'
  rw [List.length_map] at hlength
  refine ⟨_, _, rfl, rfl, ?_, by omega, ?_, ?_⟩
  · rw [inked_intercalate, inked_intercalate, join_filter hsilent]
  · intro heq
    -- Equal texts have equal lengths, so that as many declarations stay as there were, or there
    -- was a single one.
    have hle := List.length_filter_le Declaration.isWritten ds
    rw [heq] at hlength
    have hcount : (ds.filter Declaration.isWritten).length = ds.length ∨ ds.length = 1 := by omega
    exact hcount.imp_left List.length_filter_eq_length_iff.1
  · rintro (hall | hone)
    · rw [List.filter_eq_self.2 hall]
    · obtain ⟨d, rfl⟩ := List.length_eq_one_iff.1 hone
      cases hd : d.isWritten with
      | true => simp [hd]
      | false => simp [hd, hsilent d hd]

/-- A variable, a constraint and an extension. -/
def constrainedSequence : List Declaration :=
  [.variable { name := "a" }, .constraint (.conformance "T" (.named "P")),
    .extension { extendedType := .named "A", minimumVersion := some ⟨5, 9⟩ }]

theorem source_without_constraints_gated : ∃ t u,
    batchSource {} constrainedSequence = .ok t ∧
      batchSource {} (constrainedSequence.filter Declaration.isWritten) = .ok u ∧
      inked t = inked u ∧ t.length = u.length + 1 ∧ t ≠ u := by
  have hgates : ∀ d ∈ constrainedSequence, Gateable d := by simp [constrainedSequence, Gateable]
  obtain ⟨t, u, ht, hu, hink, hlength, heq⟩ := source_without_constraints_iff {} hgates
  have hcount : t.length + 1 = u.length + 2 := hlength
  refine ⟨t, u, ht, hu, hink, by omega, fun h => ?_⟩
  rcases heq.1 h with hall | hone
  · have hmem : Declaration.constraint (.conformance "T" (.named "P")) ∈ constrainedSequence := by
      simp [constrainedSequence]
    exact absurd (hall _ hmem) (by decide)
  · cases hone

/-- Between two variables a constraint leaves a second empty line behind. -/
theorem constraint_leaves_empty_line :
    let sequence : List Declaration :=
      [.variable { name := "a" }, .constraint (.conformance "T" (.named "P")),
        .variable { name := "b" }]
    batchSource {} sequence = .ok "let a\n\n\nlet b\n" ∧
      batchSource {} (sequence.filter Declaration.isWritten) = .ok "let a\n\nlet b\n" ∧
      batchSource {} sequence ≠ batchSource {} (sequence.filter Declaration.isWritten) := by
  refine ⟨rfl, rfl, fun h => ?_⟩
  exact absurd (Except.ok.inj h) (by decide)

end Emit
end SwiftDecl
