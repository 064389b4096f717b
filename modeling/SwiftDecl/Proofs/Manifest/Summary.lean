import Mathlib.Data.List.Forall2
import SwiftDecl.Manifest.Summary
import SwiftDecl.Proofs.Emit.Headings
import SwiftDecl.Proofs.Manifest.Assembly
import SwiftDecl.Proofs.Manifest.KeyPlace
import SwiftDecl.Proofs.Model.Loaded

/-!
# SwiftDecl.Proofs.Manifest.Summary

What the report on a manifest says of the text that would be emitted. The warning that there is
none looks at the extensions alone, whereas imports are emitted as well. The line of an extension is
written from it with one condition for each import and with separators of its own, and can be read
off the source all the same.

* `warnsOfNothing_summary_iff`, `render_eq_empty_iff` — when the report warns, and when there is no
  text.
* `warning_true_iff` — when the warning tells the truth.
* `separated_conditions` — joined, the conditions are those of the report.
* `TypeRef.unmarked_display` — a type that was read has no brace and no line feed in it.
* `summary_describes_sources` — the lines of the report and the sources of the extensions.
-/

namespace SwiftDecl
namespace Report

@[simp] theorem warnings_append (a b : Report) : (a ++ b).warnings = a.warnings ++ b.warnings := rfl

@[simp] theorem warnings_line (text : String) : (line text).warnings = "" := rfl

@[simp] theorem warnings_lines (texts : List String) : (lines texts).warnings = "" := rfl

/-- The line that announces an empty output. -/
def emptyWarning : String := "warning: no [[extension]] tables, nothing will be emitted\n"

/-- The warning is somewhere among the warnings. -/
def WarnsOfNothing (r : Report) : Prop := emptyWarning.toList <:+: r.warnings.toList

end Report

namespace Manifest

@[simp] theorem warnings_importSummary (modules : List String) :
    (importSummary modules).warnings = "" := by
  cases modules <;> rfl

theorem warnings_summary (m : Manifest) (path : String) :
    (m.summary path).warnings = if m.extensions = [] then Report.emptyWarning else "" := by
  unfold summary
  cases m.extensions with
  | nil => rfl
  | cons e es => simp

theorem warnsOfNothing_summary_iff (m : Manifest) (path : String) :
    (m.summary path).WarnsOfNothing ↔ m.extensions = [] := by
  rw [Report.WarnsOfNothing, warnings_summary]
  by_cases h : m.extensions = []
  · simp [h]
  · simp [h, Report.emptyWarning]

theorem IsSound.render_eq_empty_iff {m : Manifest} (h : m.IsSound) (s : Style) :
    m.render s = .ok "" ↔ m.imports = [] ∧ m.extensions = [] := by
  rw [render_eq_assembled s h.versionsGateable, Except.ok.injEq, h.assembled_eq_empty_iff s]

end Manifest

/-- The warning comes exactly if there is no extension, and the text is empty exactly if there is
no import either. So the two go together unless a manifest has imports and nothing else. -/
theorem warning_true_iff {source : String} {m : Manifest} (h : Manifest.ofText source = .ok m)
    (path : String) (s : Style) :
    ((m.summary path).WarnsOfNothing ↔ m.extensions = []) ∧
    (m.render s = .ok "" ↔ m.imports = [] ∧ m.extensions = []) ∧
    (((m.summary path).WarnsOfNothing ↔ m.render s = .ok "") ↔
      m.imports = [] ∨ m.extensions ≠ []) := by
  have hwarns := Manifest.warnsOfNothing_summary_iff m path
  have hempty := (Manifest.isSound_of_ofText h).render_eq_empty_iff s
  refine ⟨hwarns, hempty, ?_⟩
  rw [hwarns, hempty]
  constructor
  · intro hiff
    by_cases hextensions : m.extensions = []
    · exact .inl (hiff.1 hextensions).1
    · exact .inr hextensions
  · rintro (himports | hextensions)
    · simp [himports]
    · simp [hextensions]

/-- With nothing in the manifest, the warning is right. -/
theorem warning_true_iff_blank : ∃ m, Manifest.ofText "" = .ok m ∧
    (m.summary "lantern.toml").WarnsOfNothing ∧ m.render {} = .ok "" := by
  have heval : ((Manifest.ofText "").toOption.map fun m => (m.imports, m.extensions.isEmpty)) =
      some ([], true) := by decide +kernel
  obtain ⟨m, hload, hm⟩ := Option.map_eq_some_iff.1 heval
  obtain ⟨himports, hnone⟩ := Prod.mk.inj hm
  obtain ⟨hwarns, -, htrue⟩ := warning_true_iff (ok_of_toOption hload) "lantern.toml" {}
  have hwarned := hwarns.2 (List.isEmpty_iff.1 hnone)
  exact ⟨m, ok_of_toOption hload, hwarned, (htrue.2 (.inl himports)).1 hwarned⟩

/-- An import and no extension. -/
def importOnly : String := "imports=['M']"

/-- The warning says that nothing will be emitted, and the import is. -/
theorem import_emitted_despite_warning : ∃ m, Manifest.ofText importOnly = .ok m ∧
    (m.summary "lantern.toml").WarnsOfNothing ∧
    ∀ s : Style, m.render s = .ok "import M\n" := by
  have heval : ((Manifest.ofText importOnly).toOption.map fun m =>
      (m.imports, m.extensions.isEmpty)) = some (["M"], true) := by decide +kernel
  obtain ⟨m, hload, hm⟩ := Option.map_eq_some_iff.1 heval
  obtain ⟨himports, hnone⟩ := Prod.mk.inj hm
  have hextensions := List.isEmpty_iff.1 hnone
  refine ⟨m, ok_of_toOption hload, (Manifest.warnsOfNothing_summary_iff m _).2 hextensions,
    fun s => ?_⟩
  have hsound := Manifest.isSound_of_ofText (ok_of_toOption hload)
  rw [Manifest.render_eq_assembled s hsound.versionsGateable, himports, Manifest.ownTexts,
    hextensions]
  rfl

/-! ## The lines of the report -/

/-- Joined, the conditions of the gates are those of the report: one gate stands for all imports. -/
theorem separated_conditions (e : Extension) :
    Text.separated " && " ((Emit.gatesOf e).map (·.condition)) =
      Text.separated " && " e.gates := by
  unfold Emit.gatesOf Extension.gates
  cases e.requiredImports with
  | nil => cases e.minimumVersion <;> rfl
  | cons name names => cases e.minimumVersion <;> rfl

theorem conditions_eq_nil_iff (e : Extension) :
    (Emit.gatesOf e).map (·.condition) = [] ↔ e.gates = [] := by
  unfold Emit.gatesOf Extension.gates
  cases e.requiredImports with
  | nil => cases e.minimumVersion <;> simp
  | cons name names => cases e.minimumVersion <;> simp

theorem isNamePart_of_mem_marks {c : Char} (h : c ∈ marks) : TypeRef.isNamePart c = false := by
  simp only [marks, List.mem_cons, List.not_mem_nil, or_false] at h
  rcases h with rfl | rfl | rfl | rfl | rfl <;> decide

theorem isPart_of_mem_marks {c : Char} (h : c ∈ marks) : NameFlaw.isPart c = false := by
  simp only [marks, List.mem_cons, List.not_mem_nil, or_false] at h
  rcases h with rfl | rfl | rfl | rfl | rfl <;> decide

theorem unmarked_of_isName {name : String} (h : TypeRef.isName name = true) : Unmarked name := by
  obtain ⟨c, cs, rfl, hc, hcs⟩ := TypeRef.isName_eq_true h
  intro d hd hmem
  rw [String.toList_ofList, List.mem_cons] at hmem
  have hpart : TypeRef.isNamePart d = true := by
    rcases hmem with rfl | hmem
    · exact TypeRef.isNamePart_of_isNameStart hc
    · exact hcs d hmem
  rw [isNamePart_of_mem_marks hd] at hpart
  cases hpart

mutual
theorem TypeRef.unmarked_display : ∀ {t : TypeRef}, wellNamed t = true → Unmarked (display t)
  | .named _, h => unmarked_of_isName h
  | .optional t, h => by
    have ht : wellNamed t = true := h
    exact (unmarked_display ht).append (by decide)
  | .array t, h => by
    have ht : wellNamed t = true := h
    exact (Lacks.append (by decide) (unmarked_display ht)).append (by decide)
  | .dictionary _ _, h => by
    rw [wellNamed, Bool.and_eq_true] at h
    obtain ⟨hkey, hvalue⟩ := h
    exact (((Lacks.append (by decide) (unmarked_display hkey)).append (by decide)).append
      (unmarked_display hvalue)).append (by decide)
  | .generic _ _, h => by
    rw [wellNamed, Bool.and_eq_true] at h
    obtain ⟨hname, harguments⟩ := h
    have hlist := lacks_separated (by decide : Unmarked ", ") (unmarked_displayEach harguments)
    exact (((unmarked_of_isName (Bool.and_eq_true_iff.1 hname).1).append (by decide)).append
      hlist).append (by decide)
  | .tuple [], _ => (by decide : Unmarked "Void")
  | .tuple (t :: ts), h => by
    have hlist : ∀ text ∈ display t :: displayEach ts, Unmarked text := unmarked_displayEach h
    exact (Lacks.append (by decide) (lacks_separated (by decide : Unmarked ", ") hlist)).append
      (by decide)

theorem TypeRef.unmarked_displayEach : ∀ {ts : List TypeRef}, wellNamedEach ts = true →
    ∀ text ∈ displayEach ts, Unmarked text
  | [], _ => List.forall_mem_nil _
  | _ :: _, h => by
    rw [wellNamedEach, Bool.and_eq_true] at h
    obtain ⟨ht, hts⟩ := h
    exact List.forall_mem_cons.2 ⟨unmarked_display ht, unmarked_displayEach hts⟩
end

theorem IsIdentifier.unmarked {name : String} (h : IsIdentifier name) : Unmarked name := by
  intro c hc hmem
  rcases h.isPart_of_mem hmem with hpart | rfl
  · rw [isPart_of_mem_marks hc] at hpart
    cases hpart
  · exact absurd hc (by decide)

namespace Manifest

/-- The types in the headers come from the parser. -/
def HeadersRead (m : Manifest) : Prop :=
  ∀ e ∈ m.extensions, e.extendedType.IsRead ∧ ∀ t ∈ e.conformances, t.IsRead

theorem headersRead_of_setMember {key : String} {d : Data} {m n : Manifest} (hm : m.HeadersRead)
    (h : setMember key d m = .ok n) : n.HeadersRead := by
  unfold setMember at h
  split at h
  case h_3 =>
    obtain ⟨es, hes, rfl⟩ := map_eq_ok_iff.1 h
    exact Model.forall_mem_of_readList hes fun x _ e => Model.header_isRead_of_readExtension
  case h_4 =>
    cases h
    exact hm
  all_goals
    obtain ⟨x, _, rfl⟩ := map_eq_ok_iff.1 h
    exact hm

theorem headersRead_of_ofText {source : String} {m : Manifest}
    (h : Manifest.ofText source = .ok m) : m.HeadersRead := by
  obtain ⟨data, -, hdata⟩ := Option.bind_eq_some_iff.1 (parsed_of_ofText h)
  have hblank : shape.blank.HeadersRead := fun e he => absurd he List.not_mem_nil
  obtain ⟨_, hm, -⟩ := Model.Shape.invariant_of_readWith (I := fun _ m => HeadersRead m)
    (ok_of_toOption hdata) hblank fun key x _ _ m n _ hm => headersRead_of_setMember hm
  exact hm

/-- The report has the gates of the source, and its line begins as the header does, if that is
written with the usual separators. -/
structure Describes (m : Manifest) (indent : Option Indent) (e : Extension) (block : String) :
    Prop where
  source : Emit.sourceOf (m.style indent) (.extension e) = .ok block
  read : ∃ h, Emit.readHeading (Text.pieces '\n' block.toList) = some h ∧
    Text.separated " && " e.gates = Text.separated " && " h.conditions ∧
    (e.gates = [] ↔ h.conditions = []) ∧
    (m.format.conformanceSeparator = none → m.format.listSeparator = none →
      ∃ subject, h.subject = some subject ∧ e.summary = subject ++
        " (" ++ Report.counted e.memberCount "member" ++ ")" ++
        if h.conditions = [] then "" else " [" ++ Text.separated " && " h.conditions ++ "]")

theorem summary_eq {m : Manifest} (hconformance : m.format.conformanceSeparator = none)
    (hlist : m.format.listSeparator = none) (indent : Option Indent) (e : Extension) :
    e.summary = Emit.subjectOf (m.style indent) e ++
      " (" ++ Report.counted e.memberCount "member" ++ ")" ++
      if e.gates = [] then "" else " [" ++ Text.separated " && " e.gates ++ "]" := by
  have hseparator : (m.style indent).conformanceSeparator = " : " := by
    rw [style, hconformance]
    rfl
  have hitems : (m.style indent).listSeparator = ", " := by
    rw [style, hlist]
    rfl
  have hconformances : ∀ t ts, (m.style indent).conformances (t :: ts) =
      " : " ++ Text.separated ", " ((t :: ts).map TypeRef.display) := by
    intro t ts
    rw [Style.conformances, Style.list, hseparator, hitems]
    · rfl
    · exact List.cons_ne_nil t ts
  rw [Extension.summary, Emit.subjectOf]
  -- What the report leaves out is what the header leaves out.
  cases e.conformances with
  | nil => cases e.gates <;> rfl
  | cons t ts =>
    rw [hconformances]
    cases e.gates <;> rfl

/-- With the usual separators there is no mark in what a header says. -/
theorem HeadersRead.unmarked_subjectOf {m : Manifest} (hm : m.HeadersRead) {e : Extension}
    (he : e ∈ m.extensions) (hconformance : m.format.conformanceSeparator = none)
    (hlist : m.format.listSeparator = none) (indent : Option Indent) :
    Unmarked (Emit.subjectOf (m.style indent) e) := by
  have hread : ∀ {t : TypeRef}, t.IsRead → Unmarked ((m.style indent).type t) := by
    rintro t ⟨s, hs⟩
    exact TypeRef.unmarked_display (TypeRef.wellNamed_of_parse hs).1
  obtain ⟨htype, hconformances⟩ := hm e he
  have hseparator : Unmarked (m.style indent).conformanceSeparator := by
    rw [style, hconformance]
    exact (by decide : Unmarked " : ")
  have hitems : Unmarked (m.style indent).listSeparator := by
    rw [style, hlist]
    exact (by decide : Unmarked ", ")
  exact (hread htype).append
    (lacks_conformances hseparator hitems fun t ht => hread (hconformances t ht))

theorem HeadersRead.describes {m : Manifest} (hm : m.HeadersRead) (hsound : m.IsSound)
    (indent : Option Indent) {e : Extension} (he : e ∈ m.extensions) :
    Describes m indent e (Emit.ownText (m.style indent) (.extension e)) where
  source := Emit.sourceOf_eq _ (hsound.versionsGateable e he)
  read := by
    have himports : ∀ name ∈ e.requiredImports, Unmarked name := fun name hname =>
      ((hsound.extensions e he).requiredImports name hname).unmarked
    obtain ⟨header, hheading, hfirst⟩ := Emit.readHeading_ownText (m.style indent) himports
    refine ⟨_, hheading, (separated_conditions e).symm, (conditions_eq_nil_iff e).symm, ?_⟩
    intro hconformance hlist
    have hsubject := hm.unmarked_subjectOf he hconformance hlist indent
    refine ⟨Emit.subjectOf (m.style indent) e, ?_, ?_⟩
    · rw [hfirst (hsubject _ (by decide))]
      exact Emit.subject_firstLine (hsubject _ (by decide)) _
    · simp only [summary_eq hconformance hlist indent e, separated_conditions,
        conditions_eq_nil_iff]

theorem exists_output_summary {m : Manifest} (hne : m.extensions ≠ []) (path : String) :
    ∃ above, (m.summary path).output =
      above ++ "  " ++ Report.counted m.extensions.length "extension" ++ ":\n" ++
        String.join (m.extensions.map fun e => "    " ++ e.summary ++ "\n") := by
  have houtput : ∀ a b : Report, (a ++ b).output = a.output ++ b.output := fun _ _ => rfl
  have hlines : ∀ t ts, (Report.lines (t :: ts)).output =
      t ++ "\n" ++ String.join (ts.map (· ++ "\n")) := fun t ts => String.join_cons
  rw [summary]
  cases hes : m.extensions with
  | nil => exact absurd hes hne
  | cons e es =>
    refine ⟨(Report.line ("✓ " ++ path ++ " is valid")).output ++
      ((Report.line "").output ++ (importSummary m.imports).output), ?_⟩
    simp only [houtput, hlines, List.map_map, Function.comp_def, String.append_assoc]
    rfl

/-- The report on a manifest that is accepted has a line for each extension that is emitted, and it
counts them. A line lists the conditions of the gates that stand above the header in the source of
its extension, and without separators of its own the manifest has that header as well. -/
theorem summary_describes_sources {source : String} {m : Manifest}
    (h : Manifest.ofText source = .ok m) (indent : Option Indent) (path : String) :
    ∃ blocks, m.render (m.style indent) = .ok (assembled m.imports blocks) ∧
      List.Forall₂ (Describes m indent) m.extensions blocks ∧
      (m.extensions ≠ [] → ∃ above, (m.summary path).output =
        above ++ "  " ++ Report.counted blocks.length "extension" ++ ":\n" ++
          String.join (m.extensions.map fun e => "    " ++ e.summary ++ "\n")) := by
  have hsound := isSound_of_ofText h
  have hread := headersRead_of_ofText h
  refine ⟨m.ownTexts (m.style indent), render_eq_assembled _ hsound.versionsGateable, ?_, ?_⟩
  · exact List.forall₂_map_right_iff.2 (List.forall₂_same.2 fun e he =>
      hread.describes hsound indent he)
  · rw [ownTexts, List.length_map]
    exact fun hne => exists_output_summary hne path

/-- An extension with gates, with one import twice, and with conformances. -/
def gatedHeading : String :=
  "[[extension]]\nextended_type='A'\nconformances=['P','()']\n" ++
    "minimum_swift_version='5.5'\nrequired_imports=['M','M']"

theorem summary_describes_sources_gated : ∃ m block, Manifest.ofText gatedHeading = .ok m ∧
    m.extensions.map Extension.summary =
      ["A : P, Void (0 members) [swift(>=5.5) && canImport(M) && canImport(M)]"] ∧
    m.render (m.style none) = .ok (assembled [] [block]) ∧
    ∀ e ∈ m.extensions, Describes m none e block := by
  have heval : ((Manifest.ofText gatedHeading).toOption.map fun m =>
      (m.imports, m.extensions.map Extension.summary)) =
      some ([], ["A : P, Void (0 members) [swift(>=5.5) && canImport(M) && canImport(M)]"]) := by
    decide +kernel
  obtain ⟨m, hload, hm⟩ := Option.map_eq_some_iff.1 heval
  obtain ⟨himports, hsummaries⟩ := Prod.mk.inj hm
  obtain ⟨e, hextensions, -⟩ := List.map_eq_singleton_iff.1 hsummaries
  obtain ⟨blocks, hrender, hblocks, -⟩ :=
    summary_describes_sources (ok_of_toOption hload) none "lantern.toml"
  rw [hextensions] at hblocks
  obtain ⟨block, rest, hblock, hnone, rfl⟩ := List.forall₂_cons_left_iff.1 hblocks
  obtain rfl := List.forall₂_nil_left_iff.1 hnone
  rw [himports] at hrender
  refine ⟨m, block, ok_of_toOption hload, hsummaries, hrender, ?_⟩
  rw [hextensions]
  exact List.forall_mem_singleton.2 hblock

end Manifest
end SwiftDecl
