import SwiftDecl.Proofs.Emit.Gates
import SwiftDecl.Proofs.Text.Search

/-!
# SwiftDecl.Proofs.Emit.Headings

How the source of an extension begins: with the conditions of its gates, perhaps a line that
restricts platforms, and the header, which may go on to the next line with its constraints.

* `Heading`, `readHeading` — what is read from the first lines of a source.
* `subject_firstLine` — the type and the conformances are found between two marks of the header.
* `readHeading_ownText` — the conditions and the header that are read from a source.
-/

namespace SwiftDecl

open Line (bare flat renderAll)

namespace Text

/-- What follows the first occurrence of `mark`. -/
def behind (mark : List Char) : List Char → Option (List Char)
  | [] => afterStart mark []
  | c :: cs =>
    match afterStart mark (c :: cs) with
    | some rest => some rest
    | none => behind mark cs

/-- What comes before the first occurrence of `mark`, or all of the text. -/
def upTo (mark : List Char) : List Char → List Char
  | [] => []
  | c :: cs => if mark.isPrefixOf (c :: cs) then [] else c :: upTo mark cs

theorem upTo_of_not_mem {mark cs : List Char} {c : Char} (hmark : c ∈ mark) (h : c ∉ cs) :
    upTo mark cs = cs := by
  induction cs with
  | nil => rfl
  | cons d cs ih =>
    have hprefix : ¬ mark.isPrefixOf (d :: cs) = true := fun hp =>
      h ((List.isPrefixOf_iff_prefix.1 hp).subset hmark)
    rw [upTo, if_neg hprefix, ih fun hmem => h (.tail _ hmem)]

/-- With no brace before it, the first occurrence is where it should be. -/
theorem upTo_brace {cs : List Char} (h : '\x7b' ∉ cs) :
    upTo [' ', '\x7b'] (cs ++ [' ', '\x7b']) = cs := by
  induction cs with
  | nil => rfl
  | cons c cs ih =>
    rw [List.mem_cons, not_or] at h
    have hprefix : ¬ [' ', '\x7b'].isPrefixOf (c :: (cs ++ [' ', '\x7b'])) = true := by
      intro hp
      obtain ⟨-, hrest⟩ := List.cons_prefix_cons.1 (List.isPrefixOf_iff_prefix.1 hp)
      cases cs with
      | nil => exact absurd (List.cons_prefix_cons.1 hrest).1 (by decide)
      | cons d cs =>
        obtain ⟨rfl, -⟩ := List.cons_prefix_cons.1 hrest
        exact h.2 (.head _)
    rw [List.cons_append, upTo, if_neg hprefix, ih h.2]

theorem exists_pieces_cons {separator c : Char} (h : c ≠ separator) (cs : List Char) :
    ∃ piece rest, pieces separator (c :: cs) = (c :: piece) :: rest := by
  rw [pieces, if_neg h]
  split
  · exact ⟨_, _, rfl⟩
  · exact ⟨_, _, rfl⟩

end Text

namespace Emit

/-- How an extension begins: the conditions of its gates, the outermost first, and its header. -/
structure Heading where
  conditions : List String
  header : String

/-- The gates come first, then perhaps a line that restricts platforms, then the header. -/
def readHeading : List (List Char) → Option Heading
  | [] => none
  | l :: ls =>
    match Text.afterStart "#if ".toList l with
    | some condition => (readHeading ls).map fun h =>
        { h with conditions := String.ofList condition :: h.conditions }
    | none =>
      if isAvailability l then ls.head?.map fun header => ⟨[], String.ofList header⟩
      else some ⟨[], String.ofList l⟩

/-- The type and the conformances in a header. -/
def Heading.subject (h : Heading) : Option String :=
  (Text.behind "extension ".toList h.header.toList).map fun rest =>
    String.ofList (Text.upTo " \x7b".toList rest)

theorem readHeading_if (condition : String) (ls : List (List Char)) :
    readHeading (("#if " ++ condition).toList :: ls) =
      (readHeading ls).map fun h => { h with conditions := condition :: h.conditions } := by
  have hstart : Text.afterStart "#if ".toList ("#if " ++ condition).toList =
      some condition.toList := Text.afterStart_eq_some_iff.2 String.toList_append
  simp only [readHeading, hstart, String.ofList_toList]

theorem readHeading_openingLines (gs : List Gate) (ls : List (List Char)) :
    readHeading (bare (openingLines gs) ++ ls) = (readHeading ls).map fun h =>
      { h with conditions := gs.map (·.condition) ++ h.conditions } := by
  induction gs with
  | nil => exact Option.map_id'.symm
  | cons g gs ih =>
    have hcons : bare (openingLines (g :: gs)) ++ ls =
        ("#if " ++ g.condition).toList :: (bare (openingLines gs) ++ ls) := rfl
    rw [hcons, readHeading_if, ih, Option.map_map]
    rfl

/-- A header starts with one of two words. -/
theorem readHeading_header {c : Char} (hc : c = 'e' ∨ c = 'p') (cs : List Char)
    (ls : List (List Char)) :
    readHeading ((c :: cs) :: ls) = some ⟨[], String.ofList (c :: cs)⟩ := by
  rcases hc with rfl | rfl
  · rfl
  · rfl

theorem readHeading_restrictionLines (e : Extension) {c : Char} (hc : c = 'e' ∨ c = 'p')
    (cs : List Char) (ls : List (List Char)) :
    readHeading (bare (restrictionLines e) ++ (c :: cs) :: ls) =
      some ⟨[], String.ofList (c :: cs)⟩ := by
  rw [restrictionLines]
  split
  · rfl
  · exact readHeading_header hc cs ls

/-- What stands in a header behind its keyword. -/
def subjectOf (s : Style) (e : Extension) : String :=
  s.type e.extendedType ++ s.conformances e.conformances

theorem extensionHeader_eq (s : Style) (e : Extension) : s.extensionHeader e =
    Style.word (e.isPublic && e.conformances.isEmpty) "public " ++
      ("extension " ++ subjectOf s e) := by
  simp only [Style.extensionHeader, subjectOf, String.append_assoc]

/-- The first line is the header, and a brace unless there are constraints. -/
theorem exists_firstLine_eq (header : String) (cs : List GenericConstraint) :
    ∃ ending, firstLine header cs = header ++ ending ∧ (ending = "" ∨ ending = " \x7b") := by
  unfold firstLine
  split
  · exact ⟨" \x7b", rfl, .inr rfl⟩
  · exact ⟨"", String.append_empty.symm, .inl rfl⟩

theorem exists_extensionHeader_cons (s : Style) (e : Extension) :
    ∃ c cs, (c = 'e' ∨ c = 'p') ∧ (s.extensionHeader e).toList = c :: cs := by
  rw [extensionHeader_eq, String.toList_append, String.toList_append]
  cases e.isPublic && e.conformances.isEmpty with
  | true => exact ⟨'p', _, .inr rfl, rfl⟩
  | false => exact ⟨'e', _, .inl rfl, rfl⟩

theorem behind_extension (isWritten : Bool) (rest : List Char) :
    Text.behind "extension ".toList
      ((Style.word isWritten "public ").toList ++ ("extension ".toList ++ rest)) = some rest := by
  cases isWritten with
  | true => rfl
  | false => rfl

/-- No brace in the subject can be taken for that of the block. -/
theorem subject_firstLine {s : Style} {e : Extension} (h : '\x7b' ∉ (subjectOf s e).toList)
    (conditions : List String) :
    Heading.subject ⟨conditions, firstLine (s.extensionHeader e) e.constraints⟩ =
      some (subjectOf s e) := by
  obtain ⟨ending, hfirst, hending⟩ := exists_firstLine_eq (s.extensionHeader e) e.constraints
  have hbehind : Text.behind "extension ".toList
      (firstLine (s.extensionHeader e) e.constraints).toList =
      some ((subjectOf s e).toList ++ ending.toList) := by
    rw [hfirst, extensionHeader_eq]
    simp only [String.toList_append, List.append_assoc]
    exact behind_extension _ _
  have hupTo : Text.upTo " \x7b".toList ((subjectOf s e).toList ++ ending.toList) =
      (subjectOf s e).toList := by
    rcases hending with rfl | rfl
    · rw [String.toList_empty, List.append_nil]
      exact Text.upTo_of_not_mem (by decide) h
    · exact Text.upTo_brace h
  rw [Heading.subject, hbehind, Option.map_some, hupTo, String.ofList_toList]

theorem exists_firstLine_cons (s : Style) (e : Extension) : ∃ c cs, (c = 'e' ∨ c = 'p') ∧
    (firstLine (s.extensionHeader e) e.constraints).toList = c :: cs := by
  obtain ⟨c, cs, hc, hheader⟩ := exists_extensionHeader_cons s e
  obtain ⟨ending, hfirst, -⟩ := exists_firstLine_eq (s.extensionHeader e) e.constraints
  refine ⟨c, cs ++ ending.toList, hc, ?_⟩
  rw [hfirst, String.toList_append, hheader, List.cons_append]

theorem lf_not_mem_firstLine {s : Style} {e : Extension} (h : '\n' ∉ (subjectOf s e).toList) :
    '\n' ∉ (firstLine (s.extensionHeader e) e.constraints).toList := by
  obtain ⟨ending, hfirst, hending⟩ := exists_firstLine_eq (s.extensionHeader e) e.constraints
  have hword : Lacks ['\n'] (Style.word (e.isPublic && e.conformances.isEmpty) "public ") :=
    lacks_word _ (by decide)
  have hheader : Lacks ['\n'] (s.extensionHeader e) := by
    rw [extensionHeader_eq]
    exact hword.append (.append (by decide) (lacks_lf_iff.2 h))
  have hend : Lacks ['\n'] ending := by
    rcases hending with rfl | rfl <;> decide
  rw [hfirst]
  exact lacks_lf_iff.1 (hheader.append hend)

/-! ## The source -/

theorem map_chars_flat (unit : String) (texts : List String) :
    (flat texts).map (Line.chars unit 0) = bare (flat texts) := by
  have hchars : ∀ t : String, Line.chars unit 0 ⟨0, t⟩ = t.toList := by
    intro t
    by_cases ht : t = ""
    · rw [ht]
      rfl
    · rw [Line.chars_of_not_isEmpty unit 0 (by rwa [String.isEmpty_eq_false_iff])]
      rfl
  simp only [bare, flat, List.map_map, Function.comp_def, hchars]

theorem map_chars_above (unit : String) (e : Extension) :
    (openingLines (gatesOf e) ++ restrictionLines e).map (Line.chars unit 0) =
      bare (openingLines (gatesOf e)) ++ bare (restrictionLines e) := by
  rw [List.map_append, openingLines, map_chars_flat, restrictionLines]
  split
  · rw [map_chars_flat]
  · rfl

/-- Gates, availability, and the first line of the block with what follows it. -/
theorem exists_ownText_eq (s : Style) (e : Extension) : ∃ more, ownText s (.extension e) =
    renderAll s.indent.unit 0 (openingLines (gatesOf e) ++ restrictionLines e) ++
      (firstLine (s.extensionHeader e) e.constraints ++ "\n" ++ more) := by
  obtain ⟨rest, hopen⟩ := openBlockLines_eq s (s.extensionHeader e) e.constraints
  obtain ⟨ls, hlines⟩ : ∃ ls, extensionLines s e =
      (openingLines (gatesOf e) ++ restrictionLines e) ++
        ⟨0, firstLine (s.extensionHeader e) e.constraints⟩ :: ls := by
    rw [extensionLines_eq, blockLines, hopen]
    exact ⟨_, by simp only [List.append_assoc, List.cons_append]; rfl⟩
  have hrender : (⟨0, firstLine (s.extensionHeader e) e.constraints⟩ : Line).render
      s.indent.unit 0 = firstLine (s.extensionHeader e) e.constraints ++ "\n" := by
    have hne := firstLine_isEmpty (extensionHeader_isEmpty s e) e.constraints
    have hindent : Buffer.indentation s.indent.unit (0 + 0) = "" := rfl
    rw [Line.render, if_neg (by simp [hne]), hindent, String.empty_append]
  refine ⟨renderAll s.indent.unit 0 ls, ?_⟩
  rw [ownText, declarationLines, hlines, Line.renderAll_append, renderAll, hrender]

/-- A separator may break the header, but no line above it. -/
theorem readHeading_ownText (s : Style) {e : Extension}
    (himports : ∀ name ∈ e.requiredImports, Unmarked name) :
    ∃ header, readHeading (Text.pieces '\n' (ownText s (.extension e)).toList) =
        some ⟨(gatesOf e).map (·.condition), header⟩ ∧
      ('\n' ∉ (subjectOf s e).toList →
        header = firstLine (s.extensionHeader e) e.constraints) := by
  obtain ⟨more, htext⟩ := exists_ownText_eq s e
  obtain ⟨c, cs, hc, hfirst⟩ := exists_firstLine_cons s e
  have habove := (whole_openingLines (sound_gatesOf himports)).append
    (closed_restrictionLines e).toWhole
  have hread : ∀ piece rest, readHeading ((openingLines (gatesOf e) ++ restrictionLines e).map
      (Line.chars s.indent.unit 0) ++ (c :: piece) :: rest) =
      some ⟨(gatesOf e).map (·.condition), String.ofList (c :: piece)⟩ := by
    intro piece rest
    rw [map_chars_above, List.append_assoc, readHeading_openingLines,
      readHeading_restrictionLines e hc, Option.map_some, List.append_nil]
  have hpieces : ∀ t : String, (firstLine (s.extensionHeader e) e.constraints ++ "\n" ++ t).toList =
      (c :: cs) ++ '\n' :: t.toList := by
    intro t
    rw [String.toList_append, String.toList_append, hfirst, List.append_assoc]
    rfl
  rw [htext, Line.pieces_renderAll_append s.indent 0 habove.unbroken, hpieces]
  by_cases hlf : '\n' ∈ (firstLine (s.extensionHeader e) e.constraints).toList
  · have hne : c ≠ '\n' := by
      rcases hc with rfl | rfl <;> decide
    obtain ⟨piece, rest, hbroken⟩ := Text.exists_pieces_cons hne (cs ++ '\n' :: more.toList)
    refine ⟨_, by rw [List.cons_append, hbroken, hread], fun h => ?_⟩
    exact absurd hlf (lf_not_mem_firstLine h)
  · rw [hfirst] at hlf
    refine ⟨firstLine (s.extensionHeader e) e.constraints, ?_, fun _ => rfl⟩
    rw [Text.pieces_append _ hlf, hread, ← hfirst, String.ofList_toList]

example : (readHeading (Text.pieces '\n' "#if a\n#if b\npublic extension A \x7b\n".toList)).map
    (fun h => (h.conditions, h.subject)) = some (["a", "b"], some "A") := by decide

end Emit

end SwiftDecl
