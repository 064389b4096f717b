import SwiftDecl.Manifest.Rendering
import SwiftDecl.Proofs.Emit.Outline

/-!
# SwiftDecl.Proofs.Emit.Batch

Sequences of declarations, and the text of a manifest. Whether a sequence can be written depends on
the versions alone; what is written is the lines of each declaration, with a blank line between.

* `declarations_error_iff` — a sequence is aborted exactly if one of its declarations asks for a
  version that cannot be gated.
* `declarations_eq` — the lines of a sequence that is not.
* `batchLines_eq_intercalate`, `batch_joins_sources` — these are the lines, and the text, of its
  declarations one by one.
* `render_error_iff`, `render_eq` — the same for the text of a manifest.
-/

namespace SwiftDecl

open Line (flat blank deeper renderAll)

/-- The text is empty or ends with a line feed. -/
def EndsLine (text : String) : Prop := text = "" ∨ text.toList.getLast? = some '\n'

theorem endsLine_empty : EndsLine "" := .inl rfl

theorem EndsLine.append {a b : String} (ha : EndsLine a) (hb : EndsLine b) : EndsLine (a ++ b) := by
  rcases hb with rfl | hb
  · rwa [String.append_empty]
  · exact .inr (by rw [String.toList_append, List.getLast?_append, hb, Option.some_or])

theorem endsLine_line (s : String) : EndsLine (s ++ "\n") :=
  .inr (by rw [String.toList_append]; exact List.getLast?_concat)

theorem endsLine_renderAll (unit : String) (depth : Nat) (ls : List Line) :
    EndsLine (renderAll unit depth ls) := by
  induction ls with
  | nil => exact endsLine_empty
  | cons l ls ih =>
    have hl : EndsLine (l.render unit depth) := by
      unfold Line.render
      split
      · exact endsLine_line ""
      · exact endsLine_line _
    exact hl.append ih

theorem Line.renderAll_isEmpty (unit : String) (depth : Nat) (ls : List Line) :
    (renderAll unit depth ls).isEmpty = ls.isEmpty := by
  cases ls with
  | nil => rfl
  | cons l ls =>
    have hl : l.render unit depth ≠ "" := by
      unfold Line.render
      split
      · decide
      · simp
    simp [renderAll, String.isEmpty_eq_false_iff, hl]

theorem Buffer.atLineStart_iff (b : Buffer) : b.atLineStart = true ↔ EndsLine b.text := by
  rw [atLineStart, EndsLine]
  cases h : b.text.toList.getLast? with
  | none => simpa using h
  | some c =>
    have hne : b.text ≠ "" := by
      intro he
      rw [he] at h
      cases h
    simp [hne]

theorem Buffer.atLineStart_append_renderAll {b : Buffer} (hb : b.atLineStart = true)
    (unit : String) (depth : Nat) (ls : List Line) :
    (b.append (renderAll unit depth ls)).atLineStart = true :=
  (atLineStart_iff _).2 (((atLineStart_iff b).1 hb).append (endsLine_renderAll unit depth ls))

namespace Emit

theorem not_gateable_extension (e : Extension) :
    ¬ Gateable (.extension e) ↔ ∃ v, e.minimumVersion = some v ∧ v.major < 5 := by
  rw [Gateable]
  cases e.minimumVersion with
  | none => simp
  | some v => simp [UInt32.not_le]

theorem extension_error_iff (s : Style) (e : Extension) (b : Buffer) :
    (∃ a, extension s e b = .error a) ↔ ¬ Gateable (.extension e) := by
  rw [not_gateable_extension, extension]
  cases e.minimumVersion with
  | none => simp
  | some v =>
    by_cases hold : v.major < 5
    · simp [isTooOld, hold]
    · simp [isTooOld, hold]

theorem declaration_error_iff (s : Style) (d : Declaration) (b : Buffer) :
    (∃ a, declaration s d b = .error a) ↔ ¬ Gateable d := by
  cases d with
  | extension e => exact extension_error_iff s e b
  | type d => simp [declaration, Gateable]
  | function f => simp [declaration, Gateable]
  | «variable» v => simp [declaration, Gateable]
  | constraint c => simp [declaration, Gateable]

theorem moreDeclarations_error_iff (s : Style) (ds : List Declaration) (b : Buffer) :
    (∃ a, moreDeclarations s ds b = .error a) ↔ ∃ d ∈ ds, ¬ Gateable d := by
  induction ds generalizing b with
  | nil => simp [moreDeclarations]
  | cons d ds ih =>
    have hd := declaration_error_iff s d b.appendEolIfMissing.blank
    simp only [List.mem_cons, exists_eq_or_imp, ← hd, moreDeclarations]
    cases declaration s d b.appendEolIfMissing.blank with
    | error a => simp
    | ok b' => simpa using ih b'

theorem declarations_error_iff (s : Style) (ds : List Declaration) (b : Buffer) :
    (∃ a, declarations s ds b = .error a) ↔ ∃ d ∈ ds, ¬ Gateable d := by
  cases ds with
  | nil => simp [declarations]
  | cons d ds =>
    have hd := declaration_error_iff s d b
    simp only [List.mem_cons, exists_eq_or_imp, ← hd, declarations]
    cases declaration s d b with
    | error a => simp
    | ok b' => simpa using moreDeclarations_error_iff s ds b'

def laterLines (s : Style) (ds : List Declaration) : List Line :=
  ds.flatMap fun d => blank :: declarationLines s d

def batchLines (s : Style) : List Declaration → List Line
  | [] => []
  | d :: ds => declarationLines s d ++ laterLines s ds

theorem moreDeclarations_eq (s : Style) {ds : List Declaration} {b : Buffer}
    (hds : ∀ d ∈ ds, Gateable d) (hb : b.atLineStart = true) :
    moreDeclarations s ds b =
      .ok (b.append (renderAll b.style.unit b.depth (laterLines s ds))) := by
  induction ds generalizing b with
  | nil => exact congrArg _ b.append_empty.symm
  | cons d ds ih =>
    -- One step adds the blank line and the lines of `d`, and stops at the start of a line again.
    have hstep : declaration s d b.blank =
        .ok (b.append (renderAll b.style.unit b.depth (blank :: declarationLines s d))) := by
      have hstart := Buffer.atLineStart_append_renderAll hb b.style.unit b.depth [blank]
      rw [writes_blank b, declaration_eq s (hds d (.head _)) hstart, Buffer.append_append,
        Buffer.style_append, Buffer.depth_append, ← Line.renderAll_append]
      rfl
    have hrest := ih (fun d hd => hds d (.tail _ hd)) (Buffer.atLineStart_append_renderAll hb
      b.style.unit b.depth (blank :: declarationLines s d))
    rw [moreDeclarations, appendEolIfMissing_of_atLineStart hb, hstep]
    simp only [hrest, Buffer.append_append, Buffer.style_append, Buffer.depth_append,
      ← Line.renderAll_append, laterLines, List.flatMap_cons]

theorem declarations_eq (s : Style) {ds : List Declaration} {b : Buffer}
    (hds : ∀ d ∈ ds, Gateable d) (hb : b.atLineStart = true) :
    declarations s ds b = .ok (b.append (renderAll b.style.unit b.depth (batchLines s ds))) := by
  cases ds with
  | nil => exact congrArg _ b.append_empty.symm
  | cons d ds =>
    have hrest := moreDeclarations_eq s (fun d hd => hds d (.tail _ hd))
      (Buffer.atLineStart_append_renderAll hb b.style.unit b.depth (declarationLines s d))
    rw [declarations, declaration_eq s (hds d (.head _)) hb]
    simp only [hrest, Buffer.append_append, Buffer.style_append, Buffer.depth_append,
      ← Line.renderAll_append, batchLines]

theorem laterLines_cons (s : Style) (d : Declaration) (ds : List Declaration) :
    laterLines s (d :: ds) = blank :: batchLines s (d :: ds) := by
  rw [laterLines, List.flatMap_cons]
  rfl

/-- The lines of the declarations, with a blank line between every two of them. -/
theorem batchLines_eq_intercalate (s : Style) (ds : List Declaration) :
    batchLines s ds = [blank].intercalate (ds.map (declarationLines s)) := by
  induction ds with
  | nil => rfl
  | cons d ds ih =>
    cases ds with
    | nil => simp [batchLines, laterLines]
    | cons e es =>
      rw [batchLines, laterLines_cons, ih]
      simp [List.intercalate_cons_cons]

theorem renderAll_batchLines (s : Style) (unit : String) (depth : Nat) (ds : List Declaration) :
    renderAll unit depth (batchLines s ds) =
      "\n".intercalate (ds.map fun d => renderAll unit depth (declarationLines s d)) := by
  induction ds with
  | nil => rfl
  | cons d ds ih =>
    cases ds with
    | nil => simp [batchLines, laterLines]
    | cons e es =>
      have hblank : blank.render unit depth = "\n" := rfl
      rw [batchLines, Line.renderAll_append, laterLines_cons, renderAll, ih, hblank]
      simp [String.append_assoc]

/-- The text of a declaration that is written into an empty buffer. -/
def sourceOf (s : Style) (d : Declaration) : Except Abort String :=
  (declaration s d (Buffer.new s.indent)).map (·.text)

/-- The text of a sequence that is written into an empty buffer. -/
def batchSource (s : Style) (ds : List Declaration) : Except Abort String :=
  (declarations s ds (Buffer.new s.indent)).map (·.text)

theorem sourceOf_eq (s : Style) {d : Declaration} (hd : Gateable d) :
    sourceOf s d = .ok (renderAll s.indent.unit 0 (declarationLines s d)) := by
  rw [sourceOf, declaration_eq s hd (b := Buffer.new s.indent) rfl]
  simp [Except.map, Buffer.new]

/-- The text of a declaration by itself. -/
def ownText (s : Style) (d : Declaration) : String :=
  renderAll s.indent.unit 0 (declarationLines s d)

theorem batchSource_eq (s : Style) {ds : List Declaration} (hds : ∀ d ∈ ds, Gateable d) :
    batchSource s ds = .ok ("\n".intercalate
      (ds.map fun d => renderAll s.indent.unit 0 (declarationLines s d))) := by
  rw [batchSource, declarations_eq s hds (b := Buffer.new s.indent) rfl, ← renderAll_batchLines]
  simp [Except.map, Buffer.new]

theorem batchSource_ownText (s : Style) {ds : List Declaration} (h : ∀ d ∈ ds, Gateable d) :
    batchSource s ds = .ok ("\n".intercalate (ds.map (ownText s))) := batchSource_eq s h

/-- Every declaration has a text of its own, and that of a sequence is these texts with a line feed
between every two of them. So a sequence can be cut in two anywhere. -/
theorem batch_joins_sources (s : Style) : ∃ text : Declaration → String,
    (∀ d, Gateable d → sourceOf s d = .ok (text d)) ∧
    (∀ ds, (∀ d ∈ ds, Gateable d) →
      batchSource s ds = .ok ("\n".intercalate (ds.map text))) ∧
    ∀ xs ys, xs ≠ [] → ys ≠ [] → (∀ d ∈ xs ++ ys, Gateable d) →
      ∃ t u, batchSource s xs = .ok t ∧ batchSource s ys = .ok u ∧
        batchSource s (xs ++ ys) = .ok (t ++ "\n" ++ u) := by
  refine ⟨fun d => renderAll s.indent.unit 0 (declarationLines s d),
    fun d => sourceOf_eq s, fun ds => batchSource_eq s, fun xs ys hxs hys h => ?_⟩
  obtain ⟨hgx, hgy⟩ := List.forall_mem_append.1 h
  refine ⟨_, _, batchSource_eq s hgx, batchSource_eq s hgy, ?_⟩
  rw [batchSource_eq s h, List.map_append]
  exact congrArg _ (String.intercalate_append_of_ne_nil (by simpa using hxs) (by simpa using hys))

/-- A constraint has no text, but the line feeds around it stay. -/
theorem batch_joins_sources_constraint :
    batchSource {} [.variable { name := "a" }, .constraint (.sameType "T" (.named "A")),
      .extension { extendedType := .named "A", minimumVersion := some ⟨5, 9⟩ }] =
      .ok "let a\n\n\n#if swift(>=5.9)\nextension A \x7b\n\x7d\n#endif // swift(>=5.9)\n" := by
  obtain ⟨text, hsource, hbatch, -⟩ := batch_joins_sources {}
  have hvariable := Except.ok.inj (hsource (.variable { name := "a" }) trivial)
  have hconstraint := Except.ok.inj (hsource (.constraint (.sameType "T" (.named "A"))) trivial)
  have hextension := Except.ok.inj (hsource
    (.extension { extendedType := .named "A", minimumVersion := some ⟨5, 9⟩ }) (by simp [Gateable]))
  rw [hbatch _ (by simp [Gateable]), List.map_cons, List.map_cons, List.map_cons,
    ← hvariable, ← hconstraint, ← hextension]
  rfl

end Emit

/-! ## The text of a manifest -/

namespace Manifest

/-- Every version that an extension asks for can be gated. -/
def VersionsGateable (m : Manifest) : Prop :=
  ∀ e ∈ m.extensions, ∀ v, e.minimumVersion = some v → 5 ≤ v.major

theorem gateable_extensions {m : Manifest} (h : m.VersionsGateable) :
    ∀ d ∈ m.extensions.map Declaration.extension, Emit.Gateable d := by
  intro d hd
  obtain ⟨e, he, rfl⟩ := List.mem_map.1 hd
  exact h e he

theorem render_error_iff (m : Manifest) (s : Style) :
    (∃ a, m.render s = .error a) ↔
      ∃ e ∈ m.extensions, ∃ v, e.minimumVersion = some v ∧ v.major < 5 := by
  have h : (∃ a, m.render s = .error a) ↔
      ∃ d ∈ m.extensions.map Declaration.extension, ¬ Emit.Gateable d := by
    rw [← Emit.declarations_error_iff s _ (Buffer.new s.indent), render]
    cases Emit.declarations s (m.extensions.map .extension) (Buffer.new s.indent) <;> simp
  rw [h]
  constructor
  · rintro ⟨d, hd, hold⟩
    obtain ⟨e, he, rfl⟩ := List.mem_map.1 hd
    exact ⟨e, he, (Emit.not_gateable_extension e).1 hold⟩
  · rintro ⟨e, he, hold⟩
    exact ⟨.extension e, List.mem_map_of_mem he, (Emit.not_gateable_extension e).2 hold⟩

theorem ended_of_endsLine {text : String} (h : EndsLine text) : ended text = text := by
  rcases h with rfl | h
  · rfl
  · rw [ended, h]
    exact if_pos rfl

theorem endsLine_apart {a b : String} (ha : EndsLine a) (hb : EndsLine b) :
    EndsLine (apart a b) := by
  unfold Manifest.apart
  split
  · exact ha.append hb
  · exact (endsLine_line a).append hb

/-- The import lines. -/
def importsText (m : Manifest) : String := String.join (m.imports.map importLine)

theorem endsLine_importsText (m : Manifest) : EndsLine m.importsText := by
  unfold importsText
  induction m.imports with
  | nil => exact endsLine_empty
  | cons i is ih =>
    rw [List.map_cons, String.join_cons]
    exact (endsLine_line _).append ih

/-- The lines of the extensions. -/
def extensionsText (m : Manifest) (s : Style) : String :=
  renderAll s.indent.unit 0 (Emit.batchLines s (m.extensions.map .extension))

theorem render_eq {m : Manifest} (s : Style) (h : m.VersionsGateable) :
    m.render s = .ok (apart m.importsText (m.extensionsText s)) := by
  have hends := endsLine_apart m.endsLine_importsText (endsLine_renderAll s.indent.unit 0
    (Emit.batchLines s (m.extensions.map .extension)))
  rw [render, Emit.declarations_eq s (gateable_extensions h) (b := Buffer.new s.indent) rfl]
  simp only [Buffer.text_append, Buffer.new, String.empty_append]
  exact congrArg _ (ended_of_endsLine hends)

end Manifest
end SwiftDecl
