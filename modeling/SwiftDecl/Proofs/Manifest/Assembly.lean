import SwiftDecl.Proofs.Manifest.Emission
import SwiftDecl.Proofs.Manifest.Identifier
import SwiftDecl.Proofs.Storage.FileTree

/-!
# SwiftDecl.Proofs.Manifest.Assembly

The text of a manifest from its parts: the header, the import lines and the texts of the
extensions. The same text goes to the user and to a file.

* `render_eq_assembled` — imports and extensions.
* `endsOnce_assembled` — this text ends with one line feed, if there is any text.
* `emitted_text_assembled` — the above, and the two ways that the text can go.
-/

namespace SwiftDecl

/-- The text ends with a line feed and not with two. -/
def EndsOnce (text : String) : Prop :=
  ∃ front c, text.toList = front ++ [c, '\n'] ∧ c ≠ '\n'

theorem EndsOnce.ne_empty {text : String} (h : EndsOnce text) : text ≠ "" := by
  rintro rfl
  obtain ⟨front, c, h, -⟩ := h
  simp at h

theorem EndsOnce.append {b : String} (h : EndsOnce b) (a : String) : EndsOnce (a ++ b) := by
  obtain ⟨front, c, hb, hc⟩ := h
  exact ⟨a.toList ++ front, c, by rw [String.toList_append, hb, List.append_assoc], hc⟩

theorem getLast?_append (a b : String) :
    (a ++ b).toList.getLast? = b.toList.getLast?.or a.toList.getLast? := by
  rw [String.toList_append, List.getLast?_append]

theorem endsOnce_line {line : String} {c : Char} (hlast : line.toList.getLast? = some c)
    (hc : c ≠ '\n') : EndsOnce (line ++ "\n") := by
  obtain ⟨front, hfront⟩ := List.getLast?_eq_some_iff.1 hlast
  refine ⟨front, c, ?_, hc⟩
  rw [String.toList_append, hfront, List.append_assoc]
  rfl

theorem endsOnce_join {texts : List String} (hne : texts ≠ []) (h : ∀ t ∈ texts, EndsOnce t) :
    EndsOnce (String.join texts) := by
  induction texts with
  | nil => exact absurd rfl hne
  | cons t ts ih =>
    rw [String.join_cons]
    by_cases hts : ts = []
    · simpa [hts] using h t (.head _)
    · exact (ih hts fun u hu => h u (.tail _ hu)).append t

theorem endsOnce_intercalate {sep : String} {texts : List String} (hne : texts ≠ [])
    (h : ∀ t ∈ texts, EndsOnce t) : EndsOnce (sep.intercalate texts) := by
  induction texts with
  | nil => exact absurd rfl hne
  | cons t ts ih =>
    by_cases hts : ts = []
    · simpa [hts] using h t (.head _)
    · rw [String.intercalate_cons_of_ne_nil hts]
      exact (ih hts fun u hu => h u (.tail _ hu)).append (t ++ sep)

/-- The line does not end with a line feed. -/
def Line.IsInked (l : Line) : Prop := ∃ c, l.text.toList.getLast? = some c ∧ c ≠ '\n'

theorem endsOnce_renderAll {l : Line} (h : l.IsInked) (unit : String) (depth : Nat)
    (above : List Line) : EndsOnce (Line.renderAll unit depth (above ++ [l])) := by
  obtain ⟨c, hlast, hc⟩ := h
  rw [Line.renderAll_append, Line.renderAll_singleton, Line.render]
  have hne : l.text.isEmpty = false := by
    rw [String.isEmpty_eq_false_iff]
    intro he
    rw [he] at hlast
    cases hlast
  refine EndsOnce.append ?_ _
  rw [if_neg (by simp [hne])]
  refine endsOnce_line (c := c) ?_ hc
  rw [getLast?_append, hlast, Option.some_or]

namespace Emit

theorem exists_extensionLines_eq_concat (s : Style) (e : Extension) :
    ∃ above l, extensionLines s e = above ++ [l] ∧ l.IsInked := by
  cases hversion : e.minimumVersion with
  | some v =>
    refine ⟨openGateLines e ++ openBlockLines s (s.extensionHeader e) e.constraints ++
      Line.deeper (memberLines s e) ++ Line.flat ["\x7d"] ++
      (if !e.requiredImports.isEmpty then Line.flat ["#endif // required canImports"] else []),
      ⟨0, "#endif // swift(>=" ++ v.display ++ ")"⟩, ?_, ')', ?_, by decide⟩
    · simp [extensionLines, closeGateLines, hversion, Line.flat]
    · exact getLast?_append _ ")"
  | none =>
    by_cases himports : e.requiredImports = []
    · refine ⟨openGateLines e ++ openBlockLines s (s.extensionHeader e) e.constraints ++
        Line.deeper (memberLines s e), ⟨0, "\x7d"⟩, ?_, '\x7d', rfl, by decide⟩
      simp [extensionLines, closeGateLines, hversion, himports, Line.flat]
    · refine ⟨openGateLines e ++ openBlockLines s (s.extensionHeader e) e.constraints ++
        Line.deeper (memberLines s e) ++ Line.flat ["\x7d"],
        ⟨0, "#endif // required canImports"⟩, ?_, 's', rfl, by decide⟩
      simp [extensionLines, closeGateLines, hversion, himports, Line.flat]

theorem endsOnce_extension (s : Style) (e : Extension) : EndsOnce (ownText s (.extension e)) := by
  obtain ⟨above, l, heq, hl⟩ := exists_extensionLines_eq_concat s e
  rw [ownText, declarationLines, heq]
  exact endsOnce_renderAll hl s.indent.unit 0 above

end Emit

namespace Manifest

/-- A line for each import, then the texts of the extensions with a line feed between every two of
them, and between the two parts a blank line, if neither is empty. -/
def assembled (imports texts : List String) : String :=
  let above := String.join (imports.map fun name => "import " ++ name ++ "\n")
  let below := "\n".intercalate texts
  above ++ (if above ≠ "" ∧ below ≠ "" then "\n" else "") ++ below

/-- The text below its header: a comment line for each line of the header, an empty one and a
blank line. -/
def headed (header : Option String) (body : String) : String :=
  match header with
  | none => body
  | some text =>
    String.join ((Text.lines text).map fun line =>
      (if line = "" then "//" else "//  " ++ line) ++ "\n") ++ "//\n" ++ "\n" ++ body

theorem endsOnce_importLine {name : String} (h : '\n' ∉ name.toList) :
    EndsOnce ("import " ++ name ++ "\n") := by
  have happend := getLast?_append "import " name
  cases hlast : name.toList.getLast? with
  | none =>
    rw [hlast] at happend
    exact endsOnce_line (c := ' ') happend (by decide)
  | some c =>
    rw [hlast] at happend
    refine endsOnce_line happend ?_
    rintro rfl
    exact h (List.mem_of_getLast? hlast)

theorem apart_eq (a b : String) :
    apart a b = a ++ (if a ≠ "" ∧ b ≠ "" then "\n" else "") ++ b := by
  unfold Manifest.apart
  by_cases ha : a = ""
  · simp [ha]
  · by_cases hb : b = ""
    · simp [hb]
    · simp [ha, hb, String.isEmpty_iff]

/-- The text of each extension by itself. -/
def ownTexts (m : Manifest) (s : Style) : List String :=
  m.extensions.map fun e => Emit.ownText s (.extension e)

theorem ownTexts_eq_nil_iff {m : Manifest} {s : Style} : m.ownTexts s = [] ↔ m.extensions = [] :=
  List.map_eq_nil_iff

theorem sourceOf_ownTexts {m : Manifest} (s : Style) (h : m.VersionsGateable) :
    m.extensions.map (fun e => Emit.sourceOf s (.extension e)) = (m.ownTexts s).map .ok := by
  rw [ownTexts, List.map_map]
  exact List.map_congr_left fun e he => Emit.sourceOf_eq s (h e he)

theorem render_eq_assembled {m : Manifest} (s : Style) (h : m.VersionsGateable) :
    m.render s = .ok (assembled m.imports (m.ownTexts s)) := by
  have hbelow : m.extensionsText s = "\n".intercalate (m.ownTexts s) := by
    rw [extensionsText, Emit.renderAll_batchLines, ownTexts, List.map_map]
    rfl
  rw [render_eq s h, apart_eq, hbelow]
  rfl

section Assembled

variable {imports texts : List String}

theorem endsOnce_assembled (himports : ∀ name ∈ imports, '\n' ∉ name.toList)
    (htexts : ∀ t ∈ texts, EndsOnce t) (hne : imports ≠ [] ∨ texts ≠ []) :
    EndsOnce (assembled imports texts) := by
  unfold assembled
  by_cases h : texts = []
  · have habove : EndsOnce (String.join (imports.map fun name => "import " ++ name ++ "\n")) := by
      refine endsOnce_join (by simpa [h] using hne) ?_
      intro t ht
      obtain ⟨name, hname, rfl⟩ := List.mem_map.1 ht
      exact endsOnce_importLine (himports name hname)
    simpa [h] using habove
  · exact (endsOnce_intercalate h htexts).append _

theorem assembled_eq_empty_iff (himports : ∀ name ∈ imports, '\n' ∉ name.toList)
    (htexts : ∀ t ∈ texts, EndsOnce t) :
    assembled imports texts = "" ↔ imports = [] ∧ texts = [] := by
  constructor
  · intro h
    by_contra hne
    have hor : imports ≠ [] ∨ texts ≠ [] := by
      by_cases hi : imports = []
      · exact .inr fun ht => hne ⟨hi, ht⟩
      · exact .inl hi
    exact (endsOnce_assembled himports htexts hor).ne_empty h
  · rintro ⟨rfl, rfl⟩
    rfl

end Assembled

theorem endsOnce_ownTexts (m : Manifest) (s : Style) : ∀ t ∈ m.ownTexts s, EndsOnce t := by
  intro t ht
  obtain ⟨e, -, rfl⟩ := List.mem_map.1 ht
  exact Emit.endsOnce_extension s e

theorem IsSound.lf_not_mem_imports {m : Manifest} (h : m.IsSound) :
    ∀ name ∈ m.imports, '\n' ∉ name.toList :=
  fun name hname => (h.imports name hname).lf_not_mem

theorem IsSound.assembled_eq_empty_iff {m : Manifest} (h : m.IsSound) (s : Style) :
    assembled m.imports (m.ownTexts s) = "" ↔ m.imports = [] ∧ m.extensions = [] := by
  rw [Manifest.assembled_eq_empty_iff h.lf_not_mem_imports (endsOnce_ownTexts m s),
    ownTexts_eq_nil_iff]

theorem IsSound.endsOnce_assembled {m : Manifest} (h : m.IsSound) {s : Style}
    (hne : assembled m.imports (m.ownTexts s) ≠ "") :
    EndsOnce (assembled m.imports (m.ownTexts s)) := by
  refine Manifest.endsOnce_assembled h.lf_not_mem_imports (endsOnce_ownTexts m s) ?_
  by_contra hnone
  rw [not_or, not_not, not_not, ownTexts_eq_nil_iff] at hnone
  exact hne ((h.assembled_eq_empty_iff s).2 hnone)

/-! ## Where the text goes -/

theorem render_sourceFile (path content : String) (header : Option String)
    (keepsExisting : Bool) :
    SourceFile.render { path, content, header, keepsExisting } = headed header content := by
  cases header with
  | none => rfl
  | some text =>
    have hline : SourceFile.commentLine =
        fun line => (if line = "" then "//" else "//  " ++ line) ++ "\n" := by
      funext line
      rw [SourceFile.commentLine]
      by_cases h : line = "" <;> simp [h]
    have hend : "//\n\n" = "//\n" ++ "\n" := rfl
    show SourceFile.commentBlock text ++ content = headed (some text) content
    rw [SourceFile.commentBlock, hline, hend, ← String.append_assoc]
    rfl

theorem sourceFile_eq {m : Manifest} (options : EmitOptions) {content : String}
    (h : m.render (m.style options.indent) = .ok content) :
    m.sourceFile options = .ok {
      path := options.output.getD "-"
      content
      header := m.format.header
      keepsExisting := options.keepsExisting } := by
  rw [sourceFile, h]

theorem emit_printed {m : Manifest} {indent : Option Indent} {content : String}
    (h : m.render (m.style indent) = .ok content) {μ : Type → Type} [Monad μ]
    (storage : Storage μ) (keepsExisting : Bool) :
    m.emit storage { indent, keepsExisting } =
      pure (.ok (.printed (headed m.format.header content))) := by
  have hfile := sourceFile_eq { indent, keepsExisting } h
  rw [emit, hfile, ← render_sourceFile]

theorem read_of_emit_written {m : Manifest} {indent : Option Indent} {content : String}
    (h : m.render (m.style indent) = .ok content) {path reported : String} {keepsExisting : Bool}
    {t t' : FileTree}
    (hemit : (m.emit FileTree.storage { output := some path, indent, keepsExisting }).run t =
      (.ok (.written reported), t')) :
    reported = path ∧ t'.read path = some (headed m.format.header content).toUTF8 := by
  have hfile := sourceFile_eq { output := some path, indent, keepsExisting } h
  rw [emit, hfile, StateT.run_bind] at hemit
  cases hwrite : (SourceFile.write FileTree.storage {
      path, content, header := m.format.header, keepsExisting }).run t with
  | mk outcome tree =>
    rw [Option.getD_some, hwrite] at hemit
    cases outcome with
    | written =>
      have hpair : (Except.ok (Emission.written path), tree) = (.ok (.written reported), t') :=
        hemit
      obtain ⟨hwritten, rfl⟩ := Prod.mk.inj hpair
      have hread := SourceFile.read_of_written hwrite
      rw [render_sourceFile] at hread
      exact ⟨(Emission.written.inj (Except.ok.inj hwritten)).symm, hread⟩
    | skipped => cases hemit
    | failed => cases hemit

/-- The text of a manifest consists of the import lines and of the texts that its extensions have
by themselves, and it is empty or ends with one line feed. Under the header, the same text is
printed and written. -/
theorem emitted_text_assembled {source : String} {m : Manifest}
    (h : Manifest.ofText source = .ok m) (indent : Option Indent) :
    ∃ texts : List String,
      m.extensions.map (fun e => Emit.sourceOf (m.style indent) (.extension e)) =
        texts.map .ok ∧
      let body := assembled m.imports texts
      m.render (m.style indent) = .ok body ∧
      (body = "" ↔ m.imports = [] ∧ m.extensions = []) ∧
      (body ≠ "" → EndsOnce body) ∧
      (∀ {μ : Type → Type} [Monad μ] (storage : Storage μ) keepsExisting,
        m.emit storage { indent, keepsExisting } =
          pure (.ok (.printed (headed m.format.header body)))) ∧
      ∀ path reported keepsExisting (t t' : FileTree),
        (m.emit FileTree.storage { output := some path, indent, keepsExisting }).run t =
          (.ok (.written reported), t') →
        reported = path ∧ t'.read path = some (headed m.format.header body).toUTF8 := by
  have hm := isSound_of_ofText h
  have hrender := render_eq_assembled (m.style indent) hm.versionsGateable
  exact ⟨m.ownTexts (m.style indent), sourceOf_ownTexts _ hm.versionsGateable, hrender,
    hm.assembled_eq_empty_iff _, hm.endsOnce_assembled, emit_printed hrender,
    fun path reported keepsExisting t t' hemit => read_of_emit_written hrender hemit⟩

/-- A header, an import and two extensions. -/
def headedText : String :=
  "imports=['M']\nformat=\x7bheader='H'\x7d\n" ++
    "extension=[\x7bextended_type='A'\x7d,\x7bextended_type='B'\x7d]"

def headedBody : String := "import M\n\nextension A \x7b\n\x7d\n\nextension B \x7b\n\x7d\n"

/-- The file did not exist, nor did the directory that it is in. -/
theorem emitted_text_assembled_headed : ∃ m t', Manifest.ofText headedText = .ok m ∧
    m.render (m.style none) = .ok headedBody ∧ EndsOnce headedBody ∧
    (m.emit FileTree.storage { output := some "out/M.swift" }).run .empty =
      (.ok (.written "out/M.swift"), t') ∧
    t'.read "out/M.swift" = some ("//  H\n//\n\n" ++ headedBody).toUTF8 := by
  have heval : ((Manifest.ofText headedText).toOption.map fun m =>
      (m.format.header, (m.render (m.style none)).toOption,
        ((m.emit FileTree.storage { output := some "out/M.swift" }).run .empty).1 matches
          .ok (.written "out/M.swift"))) =
      some (some "H", some headedBody, true) := by decide +kernel
  obtain ⟨m, hload, hm⟩ := Option.map_eq_some_iff.1 heval
  simp only [Prod.mk.injEq] at hm
  obtain ⟨hheader, hbody, hrun⟩ := hm
  obtain ⟨texts, -, hrender, -, hends, -, hfile⟩ :=
    emitted_text_assembled (ok_of_toOption hload) none
  have htext : assembled m.imports texts = headedBody :=
    Except.ok.inj (hrender.symm.trans (ok_of_toOption hbody))
  rw [htext] at hends hfile
  have hheaded : headed (some "H") headedBody = "//  H\n//\n\n" ++ headedBody := by
    decide +kernel
  rw [hheader, hheaded] at hfile
  cases hemit : (m.emit FileTree.storage { output := some "out/M.swift" }).run .empty with
  | mk outcome t' =>
    have hwritten : outcome = .ok (.written "out/M.swift") := by
      rw [hemit] at hrun
      split at hrun
      · assumption
      · cases hrun
    rw [hwritten] at hemit
    exact ⟨m, t', ok_of_toOption hload, ok_of_toOption hbody, hends (by decide), hemit,
      (hfile "out/M.swift" "out/M.swift" false .empty t' hemit).2⟩

end Manifest
end SwiftDecl
