import SwiftDecl.CommandLine.Run
import SwiftDecl.Proofs.Emit.Batch
import SwiftDecl.Proofs.Manifest.FirstDefect
import SwiftDecl.Storage.FileTree

/-!
# SwiftDecl.Proofs.Manifest.Emission

What becomes of a manifest that was loaded from a text. Validation and emission look at versions
independently of each other; they agree on which versions can be gated.

* `Manifest.IsSound.versionsGateable` — a sound manifest can be written.
* `runCommand_emit_defect` — a text with a defect ends the command before anything is written.
-/

namespace SwiftDecl
namespace Manifest

theorem IsSound.versionsGateable {m : Manifest} (h : m.IsSound) : m.VersionsGateable :=
  fun e he => (h.extensions e he).version

theorem IsSound.render {m : Manifest} (h : m.IsSound) (s : Style) :
    ∃ text, m.render s = .ok text := ⟨_, render_eq s h.versionsGateable⟩

theorem IsSound.sourceFile {m : Manifest} (h : m.IsSound) (options : EmitOptions) :
    ∃ file, m.sourceFile options = .ok file := by
  obtain ⟨text, ht⟩ := h.render (m.style options.indent)
  rw [Manifest.sourceFile, ht]
  exact ⟨_, rfl⟩

/-- Whatever the files are, writing a sound manifest is not aborted. -/
theorem IsSound.emit_ne_aborted {m : Manifest} (h : m.IsSound) (options : EmitOptions)
    (t : FileTree) (a : Abort) :
    ((m.emit FileTree.storage options).run t).1 ≠ .error (.aborted a) := by
  obtain ⟨file, hfile⟩ := h.sourceFile options
  rw [emit, hfile]
  cases options.output with
  | none =>
    intro he
    cases he
  | some path =>
    rw [StateT.run_bind]
    cases (file.write FileTree.storage).run t with
    | mk outcome t' => cases outcome <;> intro he <;> cases he

/-- A manifest that cannot be written does not pass validation. -/
theorem exists_defect_of_render_error {m : Manifest} {s : Style} {a : Abort}
    (h : m.render s = .error a) : ∃ d, m.defect = some d := by
  refine Option.ne_none_iff_exists'.1 fun hnone => ?_
  obtain ⟨text, ht⟩ := ((defect_eq_none_iff m).1 hnone).render s
  rw [ht] at h
  cases h

end Manifest

open CommandLine in
/-- A defect is reported instead of any text, and every file stays as it was. -/
theorem runCommand_emit_defect {t : FileTree} {path source : String} {d : Defect}
    (dumpModel : Bool) (options : Manifest.EmitOptions)
    (hread : (t.read path).bind String.fromUTF8? = some source)
    (hload : Manifest.ofText source = .error (.defect source d)) :
    (runCommand FileTree.storage (.emit path dumpModel options)).run t =
      (ofProblem (.defect source d), t) := by
  have h : (Manifest.load FileTree.storage path).run t = (.error (.defect source d), t) := by
    have hstored : (FileTree.storage.read path).run t = (t.read path, t) := rfl
    rw [Manifest.load, StateT.run_bind, hstored]
    dsimp only [bind, Id.instMonad]
    rw [hread, ← hload]
    rfl
  rw [runCommand, StateT.run_bind, h]
  rfl

/-- An extension for a version below 5 is what aborts rendering, whatever the style and the names.
No text that is loaded has one; a text that has one is reported as a defect, with no text written
and every file left as it was. -/
theorem abort_unreachable :
    (∀ (m : Manifest) (s : Style), (∃ a, m.render s = .error a) ↔
      ∃ e ∈ m.extensions, ∃ v, e.minimumVersion = some v ∧ v.major < 5) ∧
    (∀ source m, Manifest.ofText source = .ok m →
      (∀ s : Style, ∃ text, m.render s = .ok text) ∧
      ∀ options (t : FileTree) a,
        ((m.emit FileTree.storage options).run t).1 ≠ .error (.aborted a)) ∧
    ∀ source m, Manifest.parsed source = some m → (∃ s a, m.render s = .error a) →
      ∃ d, Manifest.ofText source = .error (.defect source d) ∧
        ∀ (t : FileTree) path dumpModel options,
          (t.read path).bind String.fromUTF8? = some source →
          (CommandLine.runCommand FileTree.storage (.emit path dumpModel options)).run t =
            (CommandLine.ofProblem (.defect source d), t) := by
  refine ⟨Manifest.render_error_iff, fun source m h => ?_, fun source m h hold => ?_⟩
  · have hm := Manifest.isSound_of_ofText h
    exact ⟨hm.render, hm.emit_ne_aborted⟩
  · obtain ⟨s, a, ha⟩ := hold
    obtain ⟨d, hd⟩ := Manifest.exists_defect_of_render_error ha
    have hload := (Manifest.ofText_eq_defect_iff h).2 hd
    exact ⟨d, hload, fun t path dumpModel options hread =>
      runCommand_emit_defect dumpModel options hread hload⟩

/-- Two extensions, the second for a version that can be gated. -/
def gatedText : String :=
  "[[extension]]\nextended_type='A'\n[[extension]]\nextended_type='B'\nminimum_swift_version='5.9'"

/-- Two extensions, the second for a version that is too old, and an improper import. -/
def ungatedText : String :=
  "imports=['1']\n[[extension]]\nextended_type='A'\n" ++
    "[[extension]]\nextended_type='B'\nminimum_swift_version='4.2'"

theorem abort_unreachable_second :
    (∃ m, Manifest.ofText gatedText = .ok m ∧ ∃ text, m.render {} = .ok text) ∧
    ∃ m, Manifest.parsed ungatedText = some m ∧ (∃ a, m.render {} = .error a) ∧
      ∃ d, Manifest.ofText ungatedText = .error (.defect ungatedText d) := by
  obtain ⟨habort, hok, herror⟩ := abort_unreachable
  constructor
  · have hload : (Manifest.ofText gatedText).toOption.isSome = true := by decide +kernel
    obtain ⟨m, hm⟩ := Option.isSome_iff_exists.1 hload
    exact ⟨m, ok_of_toOption hm, (hok gatedText m (ok_of_toOption hm)).1 {}⟩
  · have hold : ((Manifest.parsed ungatedText).map fun m => m.extensions.any fun e =>
        e.minimumVersion.any (·.major < 5)) = some true := by decide +kernel
    obtain ⟨m, hm, hany⟩ := Option.map_eq_some_iff.1 hold
    obtain ⟨e, he, hv⟩ := List.any_eq_true.1 hany
    obtain ⟨v, hv, hlt⟩ := (Option.any_eq_true _ _).1 hv
    have hrender := (habort m {}).2 ⟨e, he, v, hv, of_decide_eq_true hlt⟩
    obtain ⟨a, ha⟩ := hrender
    obtain ⟨d, hd, -⟩ := herror ungatedText m hm ⟨{}, a, ha⟩
    exact ⟨m, hm, ⟨a, ha⟩, d, hd⟩

end SwiftDecl
