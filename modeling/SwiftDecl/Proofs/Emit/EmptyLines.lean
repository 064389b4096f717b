import SwiftDecl.Proofs.Emit.Constraints
import SwiftDecl.Proofs.Emit.Gates
import SwiftDecl.Proofs.Emit.Members
import SwiftDecl.Proofs.Emit.Spacing
import SwiftDecl.Proofs.Text.Lines

/-!
# SwiftDecl.Proofs.Emit.EmptyLines

Empty lines in a source. What fills the lines of a declaration does not break them, and a body has
no empty line, so that every empty line is one between members or between declarations.

* `begun_layout`, `begun_extension`, `begun_batch` — members, declarations and sequences.
* `Begun.wellSpaced` — the lines as they are indented.
* `blank_lines_part_declarations` — where the empty lines of a source are.
-/

namespace SwiftDecl

open Line (bare flat blank renderAll)

/-- There is no line break within a line, and no empty line in a body. -/
def Filling.Tidy : Filling → Prop
  | .inline text => '\n' ∉ text.toList
  | .comment _ => True
  | .body item => item ≠ "" ∧ "" ∉ Text.lines item

instance : DecidablePred Filling.Tidy
  | .inline text => inferInstanceAs (Decidable ('\n' ∉ text.toList))
  | .comment _ => .isTrue trivial
  | .body item => inferInstanceAs (Decidable (item ≠ "" ∧ "" ∉ Text.lines item))

/-- Moreover, all lines of a body are in `B`. -/
def Filling.TidyIn (B : List Char → Prop) (x : Filling) : Prop :=
  x.Tidy ∧ ∀ item, x = .body item → ∀ l ∈ Text.lines item, B l.toList

theorem Filling.TidyIn.lacks {B : List Char → Prop} {x : Filling} (h : x.TidyIn B) :
    x.Lacks ['\n'] := by
  cases x with
  | inline text => exact lacks_lf_iff.2 h.1
  | comment text => exact fun l hl => lacks_lf_iff.2 (Text.lf_not_mem_of_mem_lines hl)
  | body item => exact fun l hl => lacks_lf_iff.2 (Text.lf_not_mem_of_mem_lines hl)

theorem lacks_of_tidyIn {B : List Char → Prop} {xs : List Filling} (h : ∀ x ∈ xs, x.TidyIn B) :
    ∀ x ∈ xs, x.Lacks ['\n'] :=
  fun x hx => (h x hx).lacks

namespace Emit

section

variable {s : Style} {B : List Char → Prop}

/-- Lines with their comment, if there is one. -/
theorem begun_commented (c : Option String) {ms : List Line} (h : Begun B ms) :
    Begun B (commentLines c ++ ms) := by
  cases c with
  | none => exact h
  | some text =>
    refine h.prepend (List.forall_mem_map.2 fun l hl => (begins_commentLine l).firm ?_)
    exact lacks_commentLine (by decide) (lacks_lf_iff.2 (Text.lf_not_mem_of_mem_lines hl))

theorem spaced_bodyItem {item : String} (h : (Filling.body item).TidyIn B) :
    Spaced B (bodyItemLines item) := by
  obtain ⟨⟨hne, hlines⟩, hB⟩ := h
  rw [bodyItemLines, if_neg (by rwa [String.isEmpty_iff]), flat, List.map_eq_flatMap]
  refine spaced_flatMap fun l hl => ?_
  have hl' : l ≠ "" := fun he => hlines (he ▸ hl)
  exact spaced_line (Text.lf_not_mem_of_mem_lines hl) hl' (.inr (hB item rfl l hl))

theorem begun_layout (hs : s.Lacks ['\n']) :
    Layout s (Filling.TidyIn B) (Spaced B) (Begun B) where
  nil := spaced_nil
  append := Spaced.append
  plain := Begun.toSpaced
  append_plain := Begun.append
  blank_cons := Begun.blank_cons
  commented _ h := begun_commented _ h
  attributeLine t ht := by
    have hline : ∀ t ∈ ["@inlinable", "@discardableResult"], Begins t ∧ Lacks ['\n'] t := by
      decide
    obtain ⟨hbegins, hlf⟩ := hline t ht
    exact (hbegins.firm hlf).begun
  bodyItem := spaced_bodyItem
  variableLine h omitPublic isStatic :=
    ((begins_variableLine s _ omitPublic isStatic).firm
      (lacks_variableLine (by decide) hs (lacks_of_tidyIn h) omitPublic isStatic)).begun
  typeAlias h :=
    ((begins_typeAlias s _).firm (lacks_typeAlias (by decide) (lacks_of_tidyIn h))).begun
  functionBlock h omitPublic isStatic _ hbody := by
    have hlacks := lacks_of_tidyIn h
    obtain ⟨-, -, -, -, -, hconstraints, -⟩ := (forall_mem_function_iff _).1 hlacks
    exact begun_block (begins_signature s _ omitPublic isStatic)
      (lacks_signature (by decide) hs hlacks omitPublic isStatic)
      (lacks_whereClause (by decide) hs hconstraints) hbody
  typeBlock h omitPublic _ hbody :=
    begun_block (begins_typeHeader s _ omitPublic)
      (lacks_typeHeader (by decide) hs (lacks_of_tidyIn h) omitPublic)
      (lacks_whereClause (by decide) hs (List.forall_mem_nil _)) hbody

theorem begun_openingLines {gs : List Gate} (h : ∀ g ∈ gs, Lacks ['\n'] g.condition)
    {ms : List Line} (hm : Begun B ms) : Begun B (openingLines gs ++ ms) :=
  hm.prepend (List.forall_mem_map.2 fun g hg => firm_if (lacks_lf_iff.1 (h g hg)))

theorem spaced_closingLines {gs : List Gate} (h : ∀ g ∈ gs, Lacks ['\n'] g.label) :
    Spaced B (closingLines gs) := by
  rw [closingLines, flat, List.map_map, List.map_eq_flatMap]
  refine spaced_flatMap fun g hg => ?_
  have hlf : Lacks ['\n'] ("#endif // " ++ g.label) := .append (by decide) (h g hg)
  refine spaced_line (lacks_lf_iff.1 hlf) (by simp) (.inl ⟨'#', ?_, by decide⟩)
  rw [String.toList_append]
  exact .head _

theorem begun_extension (hs : s.Lacks ['\n']) {e : Extension}
    (h : ∀ x ∈ e.fillings s, x.TidyIn B) : Begun B (extensionLines s e) := by
  have hlacks := lacks_of_tidyIn h
  obtain ⟨-, -, hconstraints, himports, -⟩ := (forall_mem_extension_iff e).1 hlacks
  have hgates := lacks_gatesOf (by decide) himports
  have hblock := begun_block (begins_extensionHeader s e)
    (lacks_extensionHeader (by decide) hs hlacks) (lacks_whereClause (by decide) hs hconstraints)
    ((begun_layout hs).members h)
  have havailability : Firm concurrencyAvailability := Begins.firm (by decide) (by decide)
  rw [extensionLines_eq]
  have hopen := begun_openingLines (fun g hg => (hgates g hg).1)
    (hblock.prepend_if (e.requiredImports.contains concurrencyModule) havailability)
  exact hopen.append (spaced_closingLines fun g hg => (hgates g (List.mem_reverse.1 hg)).2)

theorem begun_declaration (hs : s.Lacks ['\n']) {d : Declaration} (hd : d.isWritten = true)
    (h : ∀ x ∈ d.fillings s, x.TidyIn B) : Begun B (declarationLines s d) := by
  cases d with
  | extension e => exact begun_extension hs h
  | type d => exact (begun_layout hs).typeDecl d false h
  | function f => exact (begun_layout hs).function h false false
  | «variable» v => exact (begun_layout hs).variable h false false
  | constraint c => cases hd

theorem begun_batch (hs : s.Lacks ['\n']) {ds : List Declaration} (hne : ds ≠ [])
    (hds : ∀ d ∈ ds, d.isWritten = true) (h : ∀ d ∈ ds, ∀ x ∈ d.fillings s, x.TidyIn B) :
    Begun B (batchLines s ds) := by
  have heach : ∀ d ∈ ds, Begun B (declarationLines s d) := fun d hd =>
    begun_declaration hs (hds d hd) (h d hd)
  cases ds with
  | nil => exact absurd rfl hne
  | cons d ds =>
    obtain ⟨hd, hrest⟩ := List.forall_mem_cons.1 heach
    exact hd.append (spaced_flatMap fun e he => (hrest e he).blank_cons)

end

end Emit

/-! ## Sources -/

section

variable (i : Indent) (depth : Nat)

theorem Line.chars_eq_nil_iff (l : Line) : l.chars i.unit depth = [] ↔ l.text.toList = [] := by
  rw [chars]
  split
  · rename_i h
    simp [String.isEmpty_iff.1 h]
  · rename_i h
    rw [String.isEmpty_iff] at h
    simp [String.toList_eq_nil_iff, h]

theorem Opening.chars {l : Line} (h : Opening l.text.toList) : Opening (l.chars i.unit depth) where
  ne_nil hnil := h.ne_nil ((l.chars_eq_nil_iff i depth).1 hnil)
  noBrace := by
    rw [Line.unindented_chars]
    exact h.noBrace
  noGate := by
    rw [Line.unindented_chars]
    exact h.noGate

theorem Parted.chars {l m : Line} (h : Parted l.text.toList m.text.toList) :
    Parted (l.chars i.unit depth) (m.chars i.unit depth) :=
  fun hnil => (h ((l.chars_eq_nil_iff i depth).1 hnil)).chars i depth

theorem Visible.chars {l : Line} (h : Visible l.text.toList) : Visible (l.chars i.unit depth) := by
  obtain ⟨a, -, hl⟩ := Line.chars_eq i depth l
  obtain ⟨c, hc, hblank⟩ := h
  exact ⟨c, by rw [hl]; exact List.mem_append_right a hc, hblank⟩

end

/-- Empty lines are where they belong in lines that hold these fillings. -/
structure WellSpaced (unit : String) (xs : List Filling) (ls : List (List Char)) : Prop where
  starts : ∃ l ∈ ls.head?, l ≠ []
  ends : ∃ l ∈ ls.getLast?, l ≠ []
  /-- An empty line has a line after it that is not empty and closes no block and no gate. -/
  parted : ls.IsChain Parted
  /-- A line of nothing but blanks is from a body, indented as the other lines are. -/
  seen : ∀ l ∈ ls, l ≠ [] → (∀ c ∈ l, Text.isBlank c = true) →
    ∃ item, .body item ∈ xs ∧ ∃ line ∈ Text.lines item, ∃ n,
      l = (Buffer.indentation unit n).toList ++ line.toList

/-- The line is from one of the bodies. -/
def IsBodyLine (xs : List Filling) (l : List Char) : Prop :=
  ∃ item, .body item ∈ xs ∧ ∃ line ∈ Text.lines item, line.toList = l

theorem Begun.wellSpaced {xs : List Filling} {ls : List Line} (h : Begun (IsBodyLine xs) ls)
    (i : Indent) (depth : Nat) : WellSpaced i.unit xs (ls.map (Line.chars i.unit depth)) where
  starts := by
    obtain ⟨l, hhead, hopening⟩ := h.opens
    rw [bare, List.head?_map] at hhead
    obtain ⟨l, hl, rfl⟩ := Option.map_eq_some_iff.1 hhead
    exact ⟨_, by rw [List.head?_map, hl]; rfl, (hopening.chars i depth).ne_nil⟩
  ends := by
    have hne : ls ≠ [] := by
      rintro rfl
      obtain ⟨l, hhead, -⟩ := h.opens
      cases hhead
    have hlast := List.getLast?_eq_some_getLast hne
    refine ⟨_, by rw [List.getLast?_map, hlast]; rfl, fun hnil => ?_⟩
    refine h.ends _ ?_ (((ls.getLast hne).chars_eq_nil_iff i depth).1 hnil)
    rw [bare, List.getLast?_map, hlast]
    rfl
  parted := by
    have hbare := h.parted
    rw [bare, List.isChain_map] at hbare
    rw [List.isChain_map]
    exact hbare.imp fun l m hlm => Parted.chars i depth hlm
  seen := by
    intro l hl hne hblank
    obtain ⟨l, hmem, rfl⟩ := List.mem_map.1 hl
    rcases h.seen _ (List.mem_map_of_mem hmem) with hnil | hvisible | hbody
    · exact absurd ((l.chars_eq_nil_iff i depth).2 hnil) hne
    · obtain ⟨c, hc, hc'⟩ := hvisible.chars i depth
      rw [hblank c hc] at hc'
      cases hc'
    · obtain ⟨item, hitem, line, hline, htext⟩ := hbody
      refine ⟨item, hitem, line, hline, depth + l.depth, ?_⟩
      have hempty : l.text.isEmpty = false := by
        rw [String.isEmpty_eq_false_iff]
        intro he
        exact hne ((l.chars_eq_nil_iff i depth).2 (by rw [he]; rfl))
      rw [Line.chars, if_neg (by simp [hempty]), htext]

theorem Filling.Tidy.tidyIn {x : Filling} (h : x.Tidy) {xs : List Filling} (hx : x ∈ xs) :
    x.TidyIn (IsBodyLine xs) :=
  ⟨h, fun item hitem l hl => ⟨item, hitem ▸ hx, l, hl, rfl⟩⟩

namespace Emit

/-- In the source of a sequence empty lines stand only between lines of text, never two of them
together, and never right before a line that closes a block or a gate. There is none at the
beginning and none at the end, and no other line is blank but one of a body. -/
theorem blank_lines_part_declarations {s : Style} (hs : s.Lacks ['\n']) {ds : List Declaration}
    (hne : ds ≠ []) (hwritten : ∀ d ∈ ds, d.isWritten = true) (hds : ∀ d ∈ ds, Gateable d)
    (h : ∀ d ∈ ds, ∀ x ∈ d.fillings s, x.Tidy) {b : Buffer} (hb : b.atLineStart = true) :
    ∃ text ls, declarations s ds b = .ok (b.append text) ∧
      Text.pieces '\n' text.toList = ls ++ [[]] ∧
      WellSpaced b.style.unit (ds.flatMap (·.fillings s)) ls := by
  have htidy : ∀ d ∈ ds, ∀ x ∈ d.fillings s, x.TidyIn (IsBodyLine (ds.flatMap (·.fillings s))) :=
    fun d hd x hx => (h d hd x hx).tidyIn (List.mem_flatMap.2 ⟨d, hd, hx⟩)
  have hbatch := begun_batch hs hne hwritten htidy
  have hunbroken : ∀ l ∈ batchLines s ds, '\n' ∉ l.text.toList := fun l hl =>
    hbatch.unbroken _ (List.mem_map_of_mem hl)
  exact ⟨_, _, declarations_eq s hds hb, Line.pieces_renderAll b.style b.depth hunbroken,
    hbatch.wellSpaced b.style b.depth⟩

/-- Two variables have a comment, and one body has a blank line and an item of two lines. -/
theorem blank_lines_part_declarations_crowded : ∃ text ls,
    declarations {} [.extension crowdedExtension,
        .function { name := "f", comment := some "", body := ["g()", "  ", "h()\ni()"] }]
      (Buffer.new .swift) = .ok ((Buffer.new .swift).append text) ∧
    Text.pieces '\n' text.toList = ls ++ [[]] ∧
    WellSpaced "  " [.inline "A", .inline "B", .inline "T", .inline "Int", .inline "U", .inline "T",
      .inline "c", .comment "Two\nlines.", .inline "d", .inline "e", .inline "C", .inline "f",
      .inline "g", .body "h()", .body "i()", .inline "h", .comment "First.", .inline "a", .inline "b",
      .inline "j", .inline "k", .body "j()", .comment "", .inline "f", .body "g()", .body "  ",
      .body "h()\ni()"] ls :=
  blank_lines_part_declarations ⟨by decide, by decide, by decide⟩ (List.cons_ne_nil _ _)
    (by decide) (by simp [Gateable, crowdedExtension]) (by decide +kernel) rfl

end Emit
end SwiftDecl
