import SwiftDecl.Proofs.Emit.Naming
import SwiftDecl.Proofs.Manifest.FirstDefect

/-!
# SwiftDecl.Proofs.Manifest.EmptyNames

Where the text of a manifest has the empty name. Validation looks at every name that a declaration
introduces, but not at the names that constraints are about.

* `TypeDecl.mem_spelledNames_iff` — the names of a type are those of the types in it.
* `Extension.IsSound.empty_mem_spelledNames_iff` — in a sound extension only constraints can be
  about the empty name.
-/

namespace SwiftDecl

open Piece (spellAll)

theorem IsIdentifier.ne_empty {n : String} (h : IsIdentifier n) : n ≠ "" := by
  rintro rfl
  cases h

theorem empty_not_mem_map {α : Type} {name : α → String} {xs : List α}
    (h : ∀ x ∈ xs, IsIdentifier (name x)) : "" ∉ xs.map name := by
  intro hmem
  obtain ⟨x, hx, he⟩ := List.mem_map.1 hmem
  exact (h x hx).ne_empty he

/-- The constraint belongs to a function of the list. -/
def ConstrainsOneOf (fs : List FunctionDecl) (c : GenericConstraint) : Prop :=
  ∃ f ∈ fs, c ∈ f.constraints

theorem FunctionDecl.IsSound.empty_mem_spelledNames_iff {f : FunctionDecl} (h : f.IsSound) :
    "" ∈ f.spelledNames ↔ ∃ c ∈ f.constraints, c.name = "" := by
  have hname := h.name.ne_empty.symm
  have hparameters := empty_not_mem_map fun p hp => (h.parameters p hp).name
  simp only [FunctionDecl.spelledNames, List.mem_cons, List.mem_append, hname, hparameters,
    false_or, List.mem_map]

theorem empty_mem_functions_iff {fs : List FunctionDecl} (h : ∀ f ∈ fs, f.IsSound) :
    "" ∈ fs.flatMap FunctionDecl.spelledNames ↔ ∃ c, ConstrainsOneOf fs c ∧ c.name = "" := by
  rw [List.mem_flatMap]
  constructor
  · rintro ⟨f, hf, hmem⟩
    obtain ⟨c, hc, he⟩ := (h f hf).empty_mem_spelledNames_iff.1 hmem
    exact ⟨c, ⟨f, hf, hc⟩, he⟩
  · rintro ⟨c, ⟨f, hf, hc⟩, he⟩
    exact ⟨f, hf, (h f hf).empty_mem_spelledNames_iff.2 ⟨c, hc, he⟩⟩

mutual
theorem TypeDecl.mem_spelledNames_iff (n : String) : ∀ d : TypeDecl,
    n ∈ d.spelledNames ↔ ∃ t, d.Declares t ∧ n ∈ t.ownNames
  | ⟨name, kind, isPublic, conformances, comment, aliases, typeVariables, instanceVariables,
      nested, typeFunctions, functions⟩ => by
    have hnested := mem_spelledNamesOfEach_iff n nested
    have hsplit : n ∈ TypeDecl.spelledNames ⟨name, kind, isPublic, conformances, comment, aliases,
          typeVariables, instanceVariables, nested, typeFunctions, functions⟩ ↔
        n ∈ TypeDecl.ownNames ⟨name, kind, isPublic, conformances, comment, aliases,
          typeVariables, instanceVariables, nested, typeFunctions, functions⟩ ∨
        n ∈ TypeDecl.spelledNamesOfEach nested := by
      simp only [TypeDecl.spelledNames, TypeDecl.ownNames, List.mem_cons, List.mem_append]
      grind
    rw [hsplit, hnested]
    constructor
    · rintro (hown | ⟨d, hd, t, ht, hmem⟩)
      · exact ⟨_, .self, hown⟩
      · exact ⟨t, .nested hd ht, hmem⟩
    · rintro ⟨t, ht, hmem⟩
      cases ht with
      | self => exact .inl hmem
      | nested hd ht => exact .inr ⟨_, hd, t, ht, hmem⟩

theorem TypeDecl.mem_spelledNamesOfEach_iff (n : String) : ∀ ds : List TypeDecl,
    n ∈ TypeDecl.spelledNamesOfEach ds ↔ ∃ d ∈ ds, ∃ t, d.Declares t ∧ n ∈ t.ownNames
  | [] => by simp [TypeDecl.spelledNamesOfEach]
  | d :: ds => by
    rw [TypeDecl.spelledNamesOfEach, List.mem_append, mem_spelledNames_iff n d,
      mem_spelledNamesOfEach_iff n ds]
    simp only [List.mem_cons, exists_eq_or_imp]
end

theorem TypeDecl.IsSound.empty_mem_ownNames_iff {t : TypeDecl} (h : t.IsSound) :
    "" ∈ t.ownNames ↔ ∃ c, ConstrainsOneOf (t.typeFunctions ++ t.functions) c ∧ c.name = "" := by
  have hname := h.name.ne_empty.symm
  have haliases := empty_not_mem_map h.aliases
  have htypeVariables := empty_not_mem_map h.typeVariables
  have hvariables := empty_not_mem_map h.instanceVariables
  rw [← empty_mem_functions_iff (List.forall_mem_append.2 ⟨h.typeFunctions, h.functions⟩),
    List.flatMap_append]
  simp only [TypeDecl.ownNames, List.mem_cons, List.mem_append, hname, haliases, htypeVariables,
    hvariables, false_or]

/-- The function is a member of the extension or of a type that stands in it, at any depth. -/
def Extension.HasFunction (e : Extension) (f : FunctionDecl) : Prop :=
  f ∈ e.typeFunctions ++ e.functions ∨
    ∃ d ∈ e.typeDecls, ∃ t, d.Declares t ∧ f ∈ t.typeFunctions ++ t.functions

/-- The constraint belongs to the extension or to one of its functions. -/
def Extension.HasConstraint (e : Extension) (c : GenericConstraint) : Prop :=
  c ∈ e.constraints ∨ ∃ f, e.HasFunction f ∧ c ∈ f.constraints

theorem Extension.hasConstraint_iff (e : Extension) (c : GenericConstraint) :
    e.HasConstraint c ↔ c ∈ e.constraints ∨ ConstrainsOneOf (e.typeFunctions ++ e.functions) c ∨
      ∃ d ∈ e.typeDecls, ∃ t, d.Declares t ∧
        ConstrainsOneOf (t.typeFunctions ++ t.functions) c := by
  constructor
  · rintro (hc | ⟨f, hf | ⟨d, hd, t, ht, hf⟩, hc⟩)
    · exact .inl hc
    · exact .inr (.inl ⟨f, hf, hc⟩)
    · exact .inr (.inr ⟨d, hd, t, ht, f, hf, hc⟩)
  · rintro (hc | ⟨f, hf, hc⟩ | ⟨d, hd, t, ht, f, hf, hc⟩)
    · exact .inl hc
    · exact .inr ⟨f, .inl hf, hc⟩
    · exact .inr ⟨f, .inr ⟨d, hd, t, ht, hf⟩, hc⟩

theorem Extension.IsSound.empty_mem_spelledNames_iff {e : Extension} (h : e.IsSound) :
    "" ∈ e.spelledNames ↔ ∃ c, e.HasConstraint c ∧ c.name = "" := by
  have hvariables := empty_not_mem_map h.typeVariables
  have hfunctions := empty_mem_functions_iff
    (List.forall_mem_append.2 ⟨h.typeFunctions, h.functions⟩)
  have htypes : "" ∈ TypeDecl.spelledNamesOfEach e.typeDecls ↔ ∃ c, (∃ d ∈ e.typeDecls,
      ∃ t, d.Declares t ∧ ConstrainsOneOf (t.typeFunctions ++ t.functions) c) ∧ c.name = "" := by
    rw [TypeDecl.mem_spelledNamesOfEach_iff]
    constructor
    · rintro ⟨d, hd, t, ht, hmem⟩
      obtain ⟨c, hc, he⟩ := (h.types d hd t ht).empty_mem_ownNames_iff.1 hmem
      exact ⟨c, ⟨d, hd, t, ht, hc⟩, he⟩
    · rintro ⟨c, ⟨d, hd, t, ht, hc⟩, he⟩
      exact ⟨d, hd, t, ht, (h.types d hd t ht).empty_mem_ownNames_iff.2 ⟨c, hc, he⟩⟩
  rw [List.flatMap_append, List.mem_append] at hfunctions
  simp only [Extension.spelledNames, List.mem_append, hvariables, or_false, or_assoc, hfunctions,
    htypes, List.mem_map, Extension.hasConstraint_iff, or_and_right, exists_or]
  exact or_congr_right or_comm

/-! ## Manifests -/

/-- The text of a manifest that was loaded is made of pieces that do not depend on the renderer of
names. In whatever way it is, the renderer is asked for the empty name exactly if a constraint, of
an extension or of a function in one, is about the empty name. -/
theorem empty_name_asked_iff {source : String} {m : Manifest}
    (h : Manifest.ofText source = .ok m) (indent : Option Indent) :
    (∃ ps, ∀ r, m.render ((m.style indent).spelledBy r) = .ok (spellAll r ps)) ∧
    ∀ ps, (∀ r, m.render ((m.style indent).spelledBy r) = .ok (spellAll r ps)) →
      (.name "" ∈ ps ↔ ∃ e ∈ m.extensions, ∃ c, e.HasConstraint c ∧ c.name = "") := by
  have hm := Manifest.isSound_of_ofText h
  obtain ⟨qs, hqs, hnames⟩ :=
    m.asks_render (m.style indent) fun e he => (hm.extensions e he).version
  refine ⟨⟨qs, hqs⟩, fun ps hps => ?_⟩
  have hsame : ∀ r, spellAll r ps = spellAll r qs := fun r =>
    Except.ok.inj ((hps r).symm.trans (hqs r))
  rw [Piece.mem_iff_of_spellAll_eq hsame, ← Piece.mem_names_iff, hnames, List.mem_flatMap]
  exact exists_congr fun e => and_congr_right fun he =>
    (hm.extensions e he).empty_mem_spelledNames_iff

/-- A function with a constraint about the empty name. -/
def namelessInFunction : String :=
  "extension=[\x7bextended_type='A',functions=[\x7bname='f'," ++
    "generic_constraints=[\x7bname='',same_type='B'\x7d]\x7d]\x7d]"

theorem empty_name_asked_in_function : ∃ m, Manifest.ofText namelessInFunction = .ok m ∧
    ∃ ps, (∀ r, m.render ((m.style (some .tab)).spelledBy r) = .ok (spellAll r ps)) ∧
      .name "" ∈ ps := by
  have hload : ((Manifest.ofText namelessInFunction).toOption.map fun m => m.extensions.any fun e =>
      e.functions.any fun f => f.constraints.any (·.name == "")) = some true := by decide +kernel
  obtain ⟨m, hm, hany⟩ := Option.map_eq_some_iff.1 hload
  obtain ⟨e, he, hf⟩ := List.any_eq_true.1 hany
  obtain ⟨f, hf, hc⟩ := List.any_eq_true.1 hf
  obtain ⟨c, hc, hname⟩ := List.any_eq_true.1 hc
  obtain ⟨⟨ps, hps⟩, hiff⟩ := empty_name_asked_iff (ok_of_toOption hm) (some .tab)
  have hconstraint : e.HasConstraint c := .inr ⟨f, .inl (List.mem_append_right _ hf), hc⟩
  exact ⟨m, ok_of_toOption hm, ps, hps,
    (hiff ps hps).2 ⟨e, he, c, hconstraint, beq_iff_eq.1 hname⟩⟩

/-- An extension with a constraint about the empty name. -/
def namelessConstraint : String :=
  "[[extension]]\nextended_type = \"A\"\n" ++
    "generic_constraints = [\x7b name = \"\", conforms_to = \"P\" \x7d]\n"

/-- A text that is loaded although its Swift source has a constraint about nothing: the renderer is
asked for the empty name, in whatever way the source is made of pieces. -/
theorem empty_name_accepted : ∃ m, Manifest.ofText namelessConstraint = .ok m ∧
    (m.render (m.style none)).toOption = some "extension A\n  where  : P\n\x7b\n\x7d\n" ∧
    ∀ ps, (∀ r, m.render ((m.style none).spelledBy r) = .ok (spellAll r ps)) →
      .name "" ∈ ps := by
  have hload : ((Manifest.ofText namelessConstraint).toOption.map fun m =>
      ((m.render (m.style none)).toOption,
        (m.render ((m.style none).spelledBy (Piece.respell swiftNames "" "x"))).toOption)) =
      some (some "extension A\n  where  : P\n\x7b\n\x7d\n",
        some "extension A\n  where x : P\n\x7b\n\x7d\n") := by decide +kernel
  obtain ⟨m, hm, htexts⟩ := Option.map_eq_some_iff.1 hload
  obtain ⟨hplain, hrespelled⟩ := Prod.mk.inj htexts
  refine ⟨m, ok_of_toOption hm, hplain, fun ps hps => Classical.byContradiction fun hn => ?_⟩
  have hsame := Piece.spellAll_respell hn swiftNames "x"
  have hstyle : (m.style none).spelledBy swiftNames = m.style none := rfl
  rw [← hstyle, hps] at hplain
  rw [hps, hsame] at hrespelled
  exact absurd (hplain.symm.trans hrespelled) (by decide)

end SwiftDecl
