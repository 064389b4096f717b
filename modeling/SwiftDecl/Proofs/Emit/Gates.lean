import SwiftDecl.Proofs.Emit.Batch
import SwiftDecl.Proofs.Emit.Nesting
import SwiftDecl.Proofs.Emit.Visibility
import SwiftDecl.Proofs.Version

/-!
# SwiftDecl.Proofs.Emit.Gates

The gates of an extension and what they enclose. The outermost one asks for a version and the next
one for modules, and they are closed the other way round.

* `leads_openingLines`, `leads_closingLines` — what the gates do to the stack.
* `closed_extensionLines` — an extension with its gates, which may restrict platforms.
* `gates_and_braces_nest` — every declaration closes what it opens, and the availability line
  stands inside the gates, right above the header.
-/

namespace SwiftDecl

open Line (flat blank deeper renderAll)
open Nesting (readLine readLines unindented)

namespace Emit

theorem lacks_importChecks {cs : List Char} (hcs : cs ⊆ marks) {names : List String}
    (h : ∀ name ∈ names, Lacks cs name) : Lacks cs (importChecks names) := by
  refine lacks_separated ((by decide : Unmarked " && ").mono hcs)
    (List.forall_mem_map.2 fun name hname => ?_)
  exact (((by decide : Unmarked "canImport(").mono hcs).append (h name hname)).append
    ((by decide : Unmarked ")").mono hcs)

theorem unmarked_display (v : SwiftVersion) : Unmarked v.display := by
  intro c hc hmem
  have hmarks : marks.all (fun c => !c.isDigit && c != '.') = true := by decide
  have hmark := List.all_eq_true.1 hmarks c hc
  have hnumber : ∀ n : Nat, c ∉ Nat.toDigits 10 n := fun n h => by
    rw [Number.isDigit_of_mem_decimal h] at hmark
    cases hmark
  rw [SwiftVersion.toList_display, List.mem_append, List.mem_cons] at hmem
  rcases hmem with h | h | h
  · exact hnumber _ h
  · rw [h] at hmark
    cases hmark
  · exact hnumber _ h

/-- The condition of a version gate. -/
def versionCheck (v : SwiftVersion) : String := "swift(>=" ++ v.display ++ ")"

theorem unmarked_versionCheck (v : SwiftVersion) : Unmarked (versionCheck v) :=
  ((by decide : Unmarked "swift(>=").append (unmarked_display v)).append (by decide)

theorem readLine_if {condition : String} (h : Unmarked condition) (n : Nesting) :
    readLine n ("#if " ++ condition).toList =
      some { n with gates := condition.toList :: n.gates } := by
  have hgate : Nesting.readGate ("#if " ++ condition).toList n.gates =
      some (condition.toList :: n.gates) := by
    rw [String.toList_append]
    rfl
  have hbraces : Lacks ['\x7b', '\x7d'] ("#if " ++ condition) :=
    .append (by decide) (h.mono (by decide))
  rw [readLine, hgate, Nesting.readBraces_of_lacks hbraces]

theorem readLine_endif {label : String} (h : Unmarked label) {condition : List Char}
    (hc : Nesting.closes label.toList condition = true) (n : Nesting) :
    readLine { n with gates := condition :: n.gates } ("#endif // " ++ label).toList = some n := by
  have hgate : Nesting.readGate ("#endif // " ++ label).toList (condition :: n.gates) =
      some n.gates := by
    rw [String.toList_append]
    exact if_pos hc
  have hbraces : Lacks ['\x7b', '\x7d'] ("#endif // " ++ label) :=
    .append (by decide) (h.mono (by decide))
  rw [readLine, hgate, Nesting.readBraces_of_lacks hbraces]

/-- A gate, by what stands after `#if ` and after `#endif // `. -/
structure Gate where
  condition : String
  label : String

structure Gate.Sound (g : Gate) : Prop where
  condition : Unmarked g.condition
  label : Unmarked g.label
  closes : Nesting.closes g.label.toList g.condition.toList = true

def versionGate (v : SwiftVersion) : Gate := ⟨versionCheck v, versionCheck v⟩

def importGate (names : List String) : Gate := ⟨importChecks names, "required canImports"⟩

/-- The gates of an extension, the outermost first. -/
def gatesOf (e : Extension) : List Gate :=
  e.minimumVersion.toList.map versionGate ++
  if e.requiredImports.isEmpty then [] else [importGate e.requiredImports]

def openingLines (gs : List Gate) : List Line := flat (gs.map fun g => "#if " ++ g.condition)

def closingLines (gs : List Gate) : List Line := flat (gs.map fun g => "#endif // " ++ g.label)

def restrictionLines (e : Extension) : List Line :=
  if e.requiredImports.contains concurrencyModule then flat [concurrencyAvailability] else []

theorem openGateLines_eq (e : Extension) :
    openGateLines e = openingLines (gatesOf e) ++ restrictionLines e := by
  have hcheck : ∀ v : SwiftVersion,
      "#if swift(>=" ++ v.display ++ ")" = "#if " ++ versionCheck v := fun v => by
    simp [versionCheck, ← String.toList_inj]
  unfold openGateLines gatesOf restrictionLines
  cases e.minimumVersion with
  | none => cases e.requiredImports.isEmpty <;> rfl
  | some v =>
    simp only [hcheck]
    cases e.requiredImports.isEmpty <;> rfl

theorem closeGateLines_eq (e : Extension) :
    closeGateLines e = closingLines (gatesOf e).reverse := by
  have hcheck : ∀ v : SwiftVersion,
      "#endif // swift(>=" ++ v.display ++ ")" = "#endif // " ++ versionCheck v := fun v => by
    simp [versionCheck, ← String.toList_inj]
  unfold closeGateLines gatesOf
  cases e.minimumVersion with
  | none => cases e.requiredImports.isEmpty <;> rfl
  | some v =>
    simp only [hcheck]
    cases e.requiredImports.isEmpty <;> rfl

theorem sound_versionGate (v : SwiftVersion) : (versionGate v).Sound where
  condition := unmarked_versionCheck v
  label := unmarked_versionCheck v
  closes := by
    have hcheck : (versionCheck v).toList = "swift(>=".toList ++ (v.display ++ ")").toList := by
      simp [versionCheck]
    show Nesting.closes (versionCheck v).toList (versionCheck v).toList = true
    rw [hcheck]
    exact beq_self_eq_true _

theorem sound_importGate {names : List String} (hne : names ≠ [])
    (h : ∀ name ∈ names, Unmarked name) : (importGate names).Sound where
  condition := lacks_importChecks (List.Subset.refl _) h
  label := (by decide : Unmarked "required canImports")
  closes := by
    obtain ⟨rest, hrest⟩ : ∃ rest, importChecks names = "canImport(" ++ rest := by
      cases names with
      | nil => exact absurd rfl hne
      | cons a names =>
        cases names with
        | nil => exact ⟨a ++ ")", by simp [importChecks, Text.separated, String.append_assoc]⟩
        | cons b names =>
          exact ⟨_, by
            simp only [importChecks, List.map_cons, Text.separated, String.append_assoc]; rfl⟩
    have hprefix : "canImport(".toList.isPrefixOf (importChecks names).toList = true := by
      rw [hrest, String.toList_append, List.isPrefixOf_iff_prefix]
      exact List.prefix_append _ _
    exact (if_pos rfl).trans hprefix

theorem sound_gatesOf {e : Extension} (h : ∀ name ∈ e.requiredImports, Unmarked name) :
    ∀ g ∈ gatesOf e, g.Sound := by
  refine List.forall_mem_append.2 ⟨List.forall_mem_map.2 fun v _ => sound_versionGate v, ?_⟩
  split
  · exact List.forall_mem_nil _
  · rename_i hne
    exact List.forall_mem_singleton.2 (sound_importGate (fun he => hne (by rw [he]; rfl)) h)

theorem lacks_gatesOf {cs : List Char} (hcs : cs ⊆ marks) {e : Extension}
    (h : ∀ name ∈ e.requiredImports, Lacks cs name) :
    ∀ g ∈ gatesOf e, Lacks cs g.condition ∧ Lacks cs g.label := by
  refine List.forall_mem_append.2 ⟨List.forall_mem_map.2 fun v _ => ?_, ?_⟩
  · have hcheck : Lacks cs (versionCheck v) := (unmarked_versionCheck v).mono hcs
    exact ⟨hcheck, hcheck⟩
  · split
    · exact List.forall_mem_nil _
    · exact List.forall_mem_singleton.2 ⟨lacks_importChecks hcs h,
        (by decide : Unmarked "required canImports").mono hcs⟩

/-- The conditions of gates that are open at once, as they stand on the stack. -/
def conditions (gs : List Gate) : List (List Char) := gs.reverse.map (·.condition.toList)

theorem whole_openingLines {gs : List Gate} (h : ∀ g ∈ gs, g.Sound) : Whole 0 (openingLines gs) :=
  whole_flat (List.forall_mem_map.2 fun g hg =>
    (by decide : Lacks ['@', '\n'] "#if ").append ((h g hg).condition.mono (by decide)))

theorem whole_closingLines {gs : List Gate} (h : ∀ g ∈ gs, g.Sound) : Whole 0 (closingLines gs) :=
  whole_flat (List.forall_mem_map.2 fun g hg =>
    (by decide : Lacks ['@', '\n'] "#endif // ").append ((h g hg).label.mono (by decide)))

theorem leads_openingLines {gs : List Gate} (h : ∀ g ∈ gs, g.Sound) (n : Nesting) :
    Leads (openingLines gs) n { n with gates := conditions gs ++ n.gates } := by
  induction gs generalizing n with
  | nil => rfl
  | cons g gs ih =>
    obtain ⟨hg, hgs⟩ := List.forall_mem_cons.1 h
    have hopen := leads_flat_singleton (readLine_if hg.condition n)
    have hstack : conditions (g :: gs) ++ n.gates =
        conditions gs ++ g.condition.toList :: n.gates := by
      simp [conditions]
    rw [hstack]
    exact hopen.append (ih hgs _)

/-- Here the gates come the innermost first, as they are closed. -/
theorem leads_closingLines {gs : List Gate} (h : ∀ g ∈ gs, g.Sound) (n : Nesting) :
    Leads (closingLines gs) { n with gates := gs.map (·.condition.toList) ++ n.gates } n := by
  induction gs with
  | nil => rfl
  | cons g gs ih =>
    obtain ⟨hg, hgs⟩ := List.forall_mem_cons.1 h
    exact (leads_flat_singleton (readLine_endif hg.label hg.closes
      { n with gates := gs.map (·.condition.toList) ++ n.gates })).append (ih hgs)

/-- Gates around lines that leave the nesting as it is. -/
theorem closed_gated {k : Nat} {ls : List Line} (h : Closed k ls) {gs : List Gate}
    (hgs : ∀ g ∈ gs, g.Sound) : Closed k (openingLines gs ++ ls ++ closingLines gs.reverse) := by
  have hreverse : ∀ g ∈ gs.reverse, g.Sound := fun g hg => hgs g (List.mem_reverse.1 hg)
  -- The last gate that was opened is on top of the stack, so the reverse order fits.
  have hwhole := ((whole_openingLines hgs).append h.toWhole).append (whole_closingLines hreverse)
  rw [Nat.zero_add, Nat.add_zero] at hwhole
  exact ⟨hwhole, fun n => ((leads_openingLines hgs n).append (h.leads _)).append
    (leads_closingLines hreverse n)⟩

/-- The extension is restricted to certain platforms. -/
def restrictsPlatforms : Declaration → Bool
  | .extension e => e.requiredImports.contains concurrencyModule
  | _ => false

theorem closed_restrictionLines (e : Extension) :
    Closed (if restrictsPlatforms (.extension e) then 1 else 0) (restrictionLines e) := by
  have hline : Closed 1 (flat [concurrencyAvailability]) :=
    ⟨⟨List.forall_mem_singleton.2 (by decide), rfl⟩, leads_of_lacks (by decide)⟩
  rw [restrictionLines, restrictsPlatforms]
  cases e.requiredImports.contains concurrencyModule with
  | true => exact hline
  | false => exact quiet_nil

theorem extensionLines_eq (s : Style) (e : Extension) : extensionLines s e =
    openingLines (gatesOf e) ++ (restrictionLines e ++
      blockLines s (s.extensionHeader e) e.constraints (memberLines s e)) ++
      closingLines (gatesOf e).reverse := by
  simp only [extensionLines, blockLines, openGateLines_eq, closeGateLines_eq, List.append_assoc]

theorem closed_extensionLines {s : Style} (hs : s.Unmarked) {e : Extension}
    (h : ∀ x ∈ e.fillings s, x.Unmarked) :
    Closed (if restrictsPlatforms (.extension e) then 1 else 0) (extensionLines s e) := by
  obtain ⟨-, -, hconstraints, himports, -⟩ := (forall_mem_extension_iff e).1 h
  have hblock := quiet_block (lacks_extensionHeader (List.Subset.refl _) hs.lacks h)
    (lacks_whereClause (List.Subset.refl _) hs.lacks hconstraints) ((quiet_layout hs).members h)
  rw [extensionLines_eq]
  exact closed_gated ((closed_restrictionLines e).append hblock) (sound_gatesOf himports)

theorem closed_declarationLines {s : Style} (hs : s.Unmarked) {d : Declaration}
    (h : ∀ x ∈ d.fillings s, x.Unmarked) :
    Closed (if restrictsPlatforms d then 1 else 0) (declarationLines s d) := by
  cases d with
  | extension e => exact closed_extensionLines hs h
  | type d => exact (quiet_layout hs).typeDecl d false h
  | function f => exact (quiet_layout hs).function h false false
  | «variable» v => exact (quiet_layout hs).variable h false false
  | constraint c => exact quiet_nil

/-- The availability line stands inside all gates, and the header follows it. -/
theorem extensionLines_of_restricted (s : Style) {e : Extension}
    (h : restrictsPlatforms (.extension e) = true) : ∃ rest, extensionLines s e =
      openingLines (gatesOf e) ++ ⟨0, concurrencyAvailability⟩ ::
        ⟨0, firstLine (s.extensionHeader e) e.constraints⟩ :: rest := by
  obtain ⟨rest, hrest⟩ := openBlockLines_eq s (s.extensionHeader e) e.constraints
  have hrestriction : restrictionLines e = [⟨0, concurrencyAvailability⟩] := if_pos h
  rw [extensionLines_eq, blockLines, hrest, hrestriction]
  exact ⟨_, by simp only [List.append_assoc, List.cons_append, List.nil_append]; rfl⟩

/-! ## Sources -/

theorem closed_laterLines {s : Style} (hs : s.Unmarked) {ds : List Declaration}
    (h : ∀ d ∈ ds, ∀ x ∈ d.fillings s, x.Unmarked) :
    Closed (ds.countP restrictsPlatforms) (laterLines s ds) := by
  induction ds with
  | nil => exact quiet_nil
  | cons d ds ih =>
    obtain ⟨hd, hrest⟩ := List.forall_mem_cons.1 h
    -- The blank line, the lines of `d`, and the rest.
    have hcount : 0 + (if restrictsPlatforms d then 1 else 0) + ds.countP restrictsPlatforms =
        (d :: ds).countP restrictsPlatforms := by
      rw [List.countP_cons]
      omega
    rw [← hcount]
    exact (Closed.append quiet_blank (closed_declarationLines hs hd)).append (ih hrest)

theorem closed_batchLines {s : Style} (hs : s.Unmarked) {ds : List Declaration}
    (h : ∀ d ∈ ds, ∀ x ∈ d.fillings s, x.Unmarked) :
    Closed (ds.countP restrictsPlatforms) (batchLines s ds) := by
  cases ds with
  | nil => exact quiet_nil
  | cons d ds =>
    obtain ⟨hd, hrest⟩ := List.forall_mem_cons.1 h
    rw [List.countP_cons, Nat.add_comm]
    exact (closed_declarationLines hs hd).append (closed_laterLines hs hrest)

theorem map_chars_batchLines (s : Style) (unit : String) (depth : Nat) (ds : List Declaration) :
    (batchLines s ds).map (Line.chars unit depth) =
      [[]].intercalate (ds.map fun d => (declarationLines s d).map (Line.chars unit depth)) := by
  induction ds with
  | nil => rfl
  | cons d ds ih =>
    cases ds with
    | nil => simp [batchLines, laterLines]
    | cons e es =>
      have hblank : blank.chars unit depth = [] := rfl
      rw [batchLines, List.map_append, laterLines_cons, List.map_cons, ih, hblank]
      simp [List.intercalate_cons_cons]

theorem firstLine_isEmpty {header : String} (h : header.isEmpty = false)
    (cs : List GenericConstraint) : (firstLine header cs).isEmpty = false := by
  unfold firstLine
  split
  · simp [String.isEmpty_eq_false_iff]
  · exact h

/-- What is read from the lines of one declaration. -/
structure WellGated (s : Style) (d : Declaration) (block : List (List Char)) : Prop where
  closed : readLines block {} = some {}
  restricted : block.countP isAvailability = if restrictsPlatforms d then 1 else 0
  /-- Before the availability line all gates are open, after it comes the header. -/
  placed : ∀ e, d = .extension e → restrictsPlatforms d = true →
    ∃ indentation before after, Nesting.IsIndentation indentation ∧
      block = before ++ (indentation ++ concurrencyAvailability.toList) ::
        (indentation ++ (firstLine (s.extensionHeader e) e.constraints).toList) :: after ∧
      readLines before {} = some { gates := conditions (gatesOf e) }

theorem wellGated_declarationLines {s : Style} (hs : s.Unmarked) {d : Declaration}
    (h : ∀ x ∈ d.fillings s, x.Unmarked) (i : Indent) (depth : Nat) :
    WellGated s d ((declarationLines s d).map (Line.chars i.unit depth)) := by
  have hclosed := closed_declarationLines hs h
  refine ⟨?_, ?_, ?_⟩
  · rw [Line.readLines_chars]
    exact hclosed.leads {}
  · rw [Line.countP_chars]
    exact hclosed.restricted
  · rintro e rfl hr
    obtain ⟨-, -, -, himports, -⟩ := (forall_mem_extension_iff e).1 h
    obtain ⟨rest, hrest⟩ := extensionLines_of_restricted s hr
    refine ⟨(Buffer.indentation i.unit depth).toList,
      (openingLines (gatesOf e)).map (Line.chars i.unit depth), rest.map (Line.chars i.unit depth),
      Nesting.isIndentation_indentation i depth, ?_, ?_⟩
    · have havailability := Line.chars_of_not_isEmpty i.unit depth
        (by decide : concurrencyAvailability.isEmpty = false)
      have hheader := Line.chars_of_not_isEmpty i.unit depth
        (firstLine_isEmpty (extensionHeader_isEmpty s e) e.constraints)
      rw [declarationLines, hrest, List.map_append, List.map_cons, List.map_cons, havailability,
        hheader]
    · rw [Line.readLines_chars, leads_openingLines (sound_gatesOf himports) {}, List.append_nil]

/-- In the source of a sequence every declaration closes the gates and braces that it opens, each
gate by a line that names it, and no brace is closed before it is opened. Platforms are restricted
once by every extension that needs it, inside its gates and right above its header, and by nothing
else. -/
theorem gates_and_braces_nest (s : Style) (ds : List Declaration) {b : Buffer}
    (hb : b.atLineStart = true) (hds : ∀ d ∈ ds, Gateable d) (hs : s.Unmarked)
    (h : ∀ d ∈ ds, ∀ x ∈ d.fillings s, x.Unmarked) :
    ∃ block : Declaration → List (List Char),
      (∀ d ∈ ds, WellGated s d (block d) ∧ ∃ text, declaration s d b = .ok (b.append text) ∧
        Text.pieces '\n' text.toList = block d ++ [[]]) ∧
      (∃ text, declarations s ds b = .ok (b.append text) ∧
        Text.pieces '\n' text.toList = [[]].intercalate (ds.map block) ++ [[]]) ∧
      ∀ k, readLines ([[]].intercalate ((ds.take k).map block)) {} = some {} := by
  refine ⟨fun d => (declarationLines s d).map (Line.chars b.style.unit b.depth), ?_, ?_, ?_⟩
  · intro d hd
    exact ⟨wellGated_declarationLines hs (h d hd) b.style b.depth, _,
      declaration_eq s (hds d hd) hb,
      Line.pieces_renderAll _ _ (closed_declarationLines hs (h d hd)).unbroken⟩
  · refine ⟨_, declarations_eq s hds hb, ?_⟩
    rw [Line.pieces_renderAll _ _ (closed_batchLines hs h).unbroken, map_chars_batchLines]
  · intro k
    rw [← map_chars_batchLines, Line.readLines_chars]
    exact (closed_batchLines hs fun d hd => h d (List.mem_of_mem_take hd)).leads {}

/-- It has all gates, and blocks within blocks, with constraints and without. -/
def restrictedExtension : Extension where
  extendedType := .named "A"
  minimumVersion := some ⟨5, 9⟩
  requiredImports := ["Foundation", "_Concurrency"]
  constraints := [.sameType "T" (.named "Int")]
  typeDecls := [{ name := "B", kind := .struct,
                  nestedTypes := [{ name := "C", kind := .enum, comment := some "one\ntwo" }] }]
  functions := [{ name := "f", constraints := [.conformance "U" (.named "P")],
                  body := ["g()", "", "h()\ni()"], isInlinable := true }]

theorem gates_and_braces_nest_restricted :
    ∃ text, declarations {} [.extension restrictedExtension, .variable { name := "x" }]
        (Buffer.new .swift) = .ok ((Buffer.new .swift).append text) ∧
      readLines (Text.pieces '\n' text.toList) {} = some {} ∧
      (Text.pieces '\n' text.toList).countP isAvailability = 1 := by
  obtain ⟨block, hblocks, ⟨text, htext, hpieces⟩, hprefix⟩ := gates_and_braces_nest {}
    [.extension restrictedExtension, .variable { name := "x" }] (b := Buffer.new .swift) rfl
    (by simp [Gateable, restrictedExtension]) ⟨by decide, by decide, by decide⟩ (by decide +kernel)
  have hall : readLines ([[]].intercalate [block (.extension restrictedExtension),
      block (.variable { name := "x" })]) {} = some {} := hprefix 2
  have hextension := (hblocks (.extension restrictedExtension) (.head _)).1.restricted
  have hvariable := (hblocks (.variable { name := "x" }) (.tail _ (.head _))).1.restricted
  refine ⟨text, htext, ?_, ?_⟩
  · rw [hpieces, Nesting.readLines_append, List.map_cons, List.map_singleton, hall]
    rfl
  · have hempty : [[]].countP isAvailability = 0 := rfl
    simp only [hpieces, List.map_cons, List.map_nil, List.intercalate_cons_cons,
      List.intercalate_singleton, List.countP_append, hextension, hvariable, hempty]
    rfl

end Emit
end SwiftDecl
