import SwiftDecl.Emit.Request
import SwiftDecl.Proofs.Emit.Batch
import SwiftDecl.Proofs.Script.Depth

/-!
# SwiftDecl.Proofs.Emit.Recovery

What an aborted request leaves behind. An extension that cannot be gated ends an unfinished line
before it gives up, so that it leaves the buffer alone only where there is no such line. That is so
in every buffer that requests lead to: each of them, completed or aborted, stops at the start of a
line.

* `endsLine_settled_apply`, `endsLine_of_reachable` — one request, and any number of them.
* `moreDeclarations_append`, `declarations_append` — a sequence is written in two goes.
* `abort_keeps_written` — what an abort leaves of an extension and of a sequence.
-/

namespace SwiftDecl

theorem Writes.endsLine {f : Buffer → Buffer} {ls : List Line} (hf : Writes f ls) {b : Buffer}
    (hb : EndsLine b.text) : EndsLine (f b).text := by
  rw [hf b, Buffer.text_append]
  exact hb.append (endsLine_renderAll _ _ _)

namespace Emit

open Line (flat blank renderAll)
open Script (settled run Step Stepwise)

/-- A buffer that requests lead to from an empty one. Each of them may be aborted, the depth may be
assigned, and scopes may be entered and left at any point: an abort that is caught inside a scope
leaves those scopes standing that it did not pass through. -/
inductive Reachable (s : Style) : Buffer → Prop where
  | fresh : Reachable s (Buffer.new s.indent)
  | request {b : Buffer} (r : Request) : Reachable s b → Reachable s (settled (r.apply s b))
  | enter {b : Buffer} : Reachable s b → Reachable s b.enter
  | leave {b : Buffer} : Reachable s b → Reachable s b.leave
  | setDepth {b : Buffer} (depth : Nat) : Reachable s b → Reachable s { b with depth }

/-- Scripts do not lead out of the reachable buffers. -/
theorem Reachable.stepwise (s : Style) :
    Stepwise (Request.apply s) fun b b' => Reachable s b → Reachable s b' where
  refl _ h := h
  trans hab hbc h := hbc (hab h)
  perform r _ h := h.request r
  scope hinner h := (hinner h.enter).leave

theorem Reachable.run {s : Style} {b : Buffer} (h : Reachable s b)
    (steps : List (Step Request)) : Reachable s (run (Request.apply s) steps b).1 :=
  (Reachable.stepwise s).of_run (fun _ _ depth h => h.setDepth depth) b h

theorem appendEolIfMissing_of_endsLine {b : Buffer} (hb : EndsLine b.text) :
    b.appendEolIfMissing = b :=
  appendEolIfMissing_of_atLineStart (b.atLineStart_iff.2 hb)

/-- At the start of a line, an extension that cannot be gated does nothing at all. -/
theorem extension_of_tooOld (s : Style) {e : Extension} {v : SwiftVersion}
    (he : e.minimumVersion = some v) (hv : v.major < 5) {b : Buffer} (hb : EndsLine b.text) :
    extension s e b = .error ⟨versionAbort v, b⟩ := by
  have hold : isTooOld v = true := decide_eq_true hv
  simp only [extension, appendEolIfMissing_of_endsLine hb, he, hold, if_true]

/-- The buffer that an attempt leaves, whether it comes to its end or not. -/
def left : Except Abort Buffer → Buffer
  | .ok b => b
  | .error a => a.buffer

theorem settled_map {α : Type} (r : Except Abort Buffer) (answer : Option α) :
    settled (r.map (·, answer)) = left r := by
  cases r <;> rfl

theorem endsLine_left_extension (s : Style) (e : Extension) {b : Buffer} (hb : EndsLine b.text) :
    EndsLine (left (extension s e b)).text := by
  by_cases he : Gateable (.extension e)
  · rw [extension_eq s b he, appendEolIfMissing_of_endsLine hb]
    exact (writes_gatedExtension s e).endsLine hb
  · obtain ⟨v, hversion, hv⟩ := (not_gateable_extension e).1 he
    rw [extension_of_tooOld s hversion hv hb]
    exact hb

theorem endsLine_left_declaration (s : Style) (d : Declaration) {b : Buffer}
    (hb : EndsLine b.text) : EndsLine (left (declaration s d b)).text := by
  have hmissing := appendEolIfMissing_of_endsLine hb
  cases d with
  | extension e => exact endsLine_left_extension s e hb
  | type d =>
    rw [declaration, hmissing]
    exact (writes_typeDecl s d false).endsLine hb
  | function f =>
    rw [declaration, hmissing]
    exact (writes_function s f false false).endsLine hb
  | «variable» v =>
    rw [declaration, hmissing]
    exact (writes_variableDecl s v false false).endsLine hb
  | constraint c => exact hb

theorem endsLine_left_bind {r : Except Abort Buffer} {f : Buffer → Except Abort Buffer}
    (hr : EndsLine (left r).text) (hf : ∀ b, EndsLine b.text → EndsLine (left (f b)).text) :
    EndsLine (left (r.bind f)).text := by
  cases r with
  | error a => exact hr
  | ok b => exact hf b hr

theorem moreDeclarations_cons (s : Style) (d : Declaration) (ds : List Declaration) (b : Buffer) :
    moreDeclarations s (d :: ds) b =
      (declaration s d b.appendEolIfMissing.blank).bind (moreDeclarations s ds) := by
  rw [moreDeclarations]
  cases declaration s d b.appendEolIfMissing.blank <;> rfl

theorem declarations_cons (s : Style) (d : Declaration) (ds : List Declaration) (b : Buffer) :
    declarations s (d :: ds) b = (declaration s d b).bind (moreDeclarations s ds) := by
  rw [declarations]
  cases declaration s d b <;> rfl

theorem endsLine_left_moreDeclarations (s : Style) (ds : List Declaration) {b : Buffer}
    (hb : EndsLine b.text) : EndsLine (left (moreDeclarations s ds b)).text := by
  induction ds generalizing b with
  | nil => exact hb
  | cons d ds ih =>
    rw [moreDeclarations_cons, appendEolIfMissing_of_endsLine hb]
    exact endsLine_left_bind (endsLine_left_declaration s d (writes_blank.endsLine hb))
      fun _ hb' => ih hb'

theorem endsLine_left_declarations (s : Style) (ds : List Declaration) {b : Buffer}
    (hb : EndsLine b.text) : EndsLine (left (declarations s ds b)).text := by
  cases ds with
  | nil => exact hb
  | cons d ds =>
    rw [declarations_cons]
    exact endsLine_left_bind (endsLine_left_declaration s d hb)
      fun _ hb' => endsLine_left_moreDeclarations s ds hb'

theorem endsLine_settled_apply (s : Style) (r : Request) {b : Buffer} (hb : EndsLine b.text) :
    EndsLine (settled (r.apply s b)).text := by
  cases r with
  | declaration d =>
    rw [Request.apply, settled_map]
    exact endsLine_left_declaration s d hb
  | declarations ds =>
    rw [Request.apply, settled_map]
    exact endsLine_left_declarations s ds hb
  | extension e =>
    rw [Request.apply, settled_map]
    exact endsLine_left_extension s e hb
  | type d omitPublic => exact (writes_typeDecl s d omitPublic).endsLine hb
  | typeAlias a => exact (writes_writeln (s.typeAlias a)).endsLine hb
  | function f omitPublic isStatic => exact (writes_function s f omitPublic isStatic).endsLine hb
  | «variable» v omitPublic isStatic =>
    exact (writes_variableDecl s v omitPublic isStatic).endsLine hb
  | comment text => exact (writes_comment (some text)).endsLine hb
  | typeText t => exact hb

theorem endsLine_of_reachable {s : Style} {b : Buffer} (h : Reachable s b) : EndsLine b.text := by
  induction h with
  | fresh => exact endsLine_empty
  | request r _ ih => exact endsLine_settled_apply s r ih
  | enter _ ih => exact ih
  | leave _ ih => exact ih
  | setDepth depth _ ih => exact ih

/-! ## Sequences that are aborted -/

theorem moreDeclarations_append (s : Style) (xs ys : List Declaration) (b : Buffer) :
    moreDeclarations s (xs ++ ys) b = (moreDeclarations s xs b).bind (moreDeclarations s ys) := by
  induction xs generalizing b with
  | nil => rfl
  | cons x xs ih =>
    rw [List.cons_append, moreDeclarations_cons, moreDeclarations_cons]
    cases declaration s x b.appendEolIfMissing.blank with
    | error a => rfl
    | ok b' => exact ih b'

theorem declarations_append (s : Style) {xs : List Declaration} (hxs : xs ≠ [])
    (ys : List Declaration) (b : Buffer) :
    declarations s (xs ++ ys) b = (declarations s xs b).bind (moreDeclarations s ys) := by
  cases xs with
  | nil => exact absurd rfl hxs
  | cons x xs =>
    rw [List.cons_append, declarations_cons, declarations_cons]
    cases declaration s x b with
    | error a => rfl
    | ok b' => exact moreDeclarations_append s xs ys b'

/-- What was written before the extension that ends the sequence, and the line feed that was to
keep it apart. -/
theorem declarations_of_tooOld (s : Style) {xs : List Declaration} (ys : List Declaration)
    {e : Extension} {v : SwiftVersion} (hxs : ∀ d ∈ xs, Gateable d)
    (he : e.minimumVersion = some v) (hv : v.major < 5) {b : Buffer} (hb : EndsLine b.text) :
    declarations s (xs ++ .extension e :: ys) b = .error ⟨versionAbort v,
      b.append (renderAll b.style.unit b.depth (batchLines s xs) ++
        if xs = [] then "" else "\n")⟩ := by
  by_cases hnil : xs = []
  · have hnone : b.append (renderAll b.style.unit b.depth (batchLines s []) ++ "") = b :=
      b.append_empty
    rw [hnil, List.nil_append, declarations, declaration, extension_of_tooOld s he hv hb,
      if_pos rfl, hnone]
  · have hwritten : EndsLine (b.append (renderAll b.style.unit b.depth (batchLines s xs))).text :=
      hb.append (endsLine_renderAll _ _ _)
    rw [declarations_append s hnil, declarations_eq s hxs (b.atLineStart_iff.2 hb), Except.bind,
      moreDeclarations, appendEolIfMissing_of_endsLine hwritten, declaration,
      extension_of_tooOld s he hv (writes_blank.endsLine hwritten), if_neg hnil,
      ← Buffer.append_append]
    rfl

/-- In every buffer that requests lead to, the text is empty or ends with a line feed. An extension
that cannot be gated is refused there with the buffer as it was, and a sequence that comes to one
stops at the declarations before it, written as they are into an empty buffer of this depth, and
at the line feed after them, if there are any. -/
theorem abort_keeps_written {s : Style} {b : Buffer} (h : Reachable s b) :
    (b.text = "" ∨ b.text.toList.getLast? = some '\n') ∧
    (∀ e v, e.minimumVersion = some v → v.major < 5 →
      Request.apply s (.extension e) b = .error ⟨versionAbort v, b⟩) ∧
    ∀ ds k e v, ds[k]? = some (.extension e) → e.minimumVersion = some v → v.major < 5 →
      (∀ d ∈ ds.take k, Gateable d) →
      ∃ text, declarations s (ds.take k) ⟨b.style, b.depth, ""⟩ = .ok ⟨b.style, b.depth, text⟩ ∧
        Request.apply s (.declarations ds) b = .error ⟨versionAbort v,
          ⟨b.style, b.depth, b.text ++ text ++ if k = 0 then "" else "\n"⟩⟩ := by
  have hb := endsLine_of_reachable h
  refine ⟨hb, fun e v he hv => ?_, fun ds k e v hk he hv hgate => ?_⟩
  · rw [Request.apply, extension_of_tooOld s he hv hb]
    rfl
  · obtain ⟨hlt, hget⟩ := List.getElem?_eq_some_iff.1 hk
    have hsplit : ds = ds.take k ++ .extension e :: ds.drop (k + 1) := by
      rw [← hget, ← List.drop_eq_getElem_cons hlt, List.take_append_drop]
    have hnil : ds.take k = [] ↔ k = 0 := by
      simp [List.take_eq_nil_iff, List.ne_nil_of_length_pos (Nat.zero_lt_of_lt hlt)]
    refine ⟨renderAll b.style.unit b.depth (batchLines s (ds.take k)), ?_, ?_⟩
    · rw [declarations_eq s hgate rfl]
      simp [Buffer.append]
    · have habort := declarations_of_tooOld s (ds.drop (k + 1)) hgate he hv hb
      rw [← hsplit] at habort
      rw [Request.apply, habort]
      simp [Buffer.append, Except.map, hnil, String.append_assoc]

/-- An extension of a version that cannot be gated. -/
def tooOldExtension : Extension := { extendedType := .named "A", minimumVersion := some ⟨4, 2⟩ }

/-- A buffer left by a scope that was aborted after a comment; then the depth was assigned. -/
theorem abort_keeps_written_caught :
    let b : Buffer := ⟨.swift, 1, "  /// a\n"⟩
    Reachable {} b ∧
    Request.apply {} (.extension tooOldExtension) b = .error ⟨versionAbort ⟨4, 2⟩, b⟩ ∧
    Request.apply {} (.declarations [.variable { name := "b" }, .extension tooOldExtension,
      .variable { name := "c" }]) b =
      .error ⟨versionAbort ⟨4, 2⟩, ⟨.swift, 1, "  /// a\n  let b\n\n"⟩⟩ := by
  intro b
  have hb : Reachable {} b := Reachable.fresh.run
    [.scope [.perform (.comment "a"), .perform (.extension tooOldExtension)], .setDepth 1]
  obtain ⟨-, hone, hmany⟩ := abort_keeps_written hb
  obtain ⟨text, htext, hbatch⟩ := hmany
    [.variable { name := "b" }, .extension tooOldExtension, .variable { name := "c" }] 1
    tooOldExtension ⟨4, 2⟩ rfl rfl (by decide) (by simp [Gateable])
  have hwritten : text = "  let b\n" := congrArg Buffer.text (Except.ok.inj htext).symm
  rw [hwritten] at hbatch
  exact ⟨hb, hone tooOldExtension ⟨4, 2⟩ rfl (by decide), hbatch⟩

end Emit
end SwiftDecl
