import SwiftDecl.Proofs.Emit.Nesting
import SwiftDecl.Proofs.Text.Lines
import SwiftDecl.Proofs.Text.SourceLines
import SwiftDecl.SourceFile

/-!
# SwiftDecl.Proofs.Emit.Comments

Comments as a Swift compiler reads them. The text of a comment is cut into lines at line feeds, so a
carriage return may be left in a line, and for a compiler it ends the comment.

* `isMarked_chars`, `SourceFile.isMarked_commentLine` — a line of a comment behind its slashes.
* `comments_stay_comments_iff` — when all that is written for a comment is a comment.
-/

namespace SwiftDecl

open Line (flat renderAll)

namespace Text

/-- The line begins with the two slashes of a comment. -/
def IsComment (l : List Char) : Prop := ['/', '/'] <+: l

/-- The line begins, after its indentation, with the three slashes of documentation. -/
def IsDocumentation (l : List Char) : Prop := ['/', '/', '/'] <+: Nesting.unindented l

instance : DecidablePred IsComment := fun l => inferInstanceAs (Decidable (_ <+: l))

instance : DecidablePred IsDocumentation :=
  fun l => inferInstanceAs (Decidable (_ <+: Nesting.unindented l))

theorem looksUpTo_isComment : LooksUpTo '\r' IsComment := looksUpTo_prefix (by decide)

theorem looksUpTo_isDocumentation : LooksUpTo '\r' IsDocumentation := by
  intro xs ys
  have hdrop : Nesting.unindented (xs ++ '\r' :: ys) = Nesting.unindented xs ++ '\r' :: ys := by
    rw [Nesting.unindented, Nesting.unindented, List.dropWhile_append]
    split
    · rename_i hnone
      rw [List.isEmpty_iff.1 hnone, List.nil_append, List.dropWhile_cons_of_neg (by decide)]
    · rfl
  rw [IsDocumentation, IsDocumentation, hdrop]
  exact looksUpTo_prefix (by decide) _ ys

end Text

open Text (Followed IsComment IsDocumentation IsMarked lf_not_mem_of_mem_lines sourceLines)

namespace Emit

/-- Three slashes, perhaps a gap, and the line without the blanks at its end. -/
theorem toList_commentLine (l : String) : ∃ gap, '\r' ∉ gap ∧ '\n' ∉ gap ∧
    (commentLine l).toList = ['/', '/', '/'] ++ gap ++ (Text.trimEnd l).toList := by
  unfold commentLine
  split
  · rename_i h
    rw [Text.trim, String.isEmpty_iff, String.ofList_eq_empty_iff] at h
    refine ⟨[], List.not_mem_nil, List.not_mem_nil, ?_⟩
    rw [Text.trimEnd, Text.dropBlanksEnd_dropBlanks_eq_nil h]
    rfl
  · exact ⟨[' '], by decide, by decide, by simp⟩

theorem commentLine_isEmpty (l : String) : (commentLine l).isEmpty = false := by
  obtain ⟨gap, -, -, hl⟩ := toList_commentLine l
  rw [String.isEmpty_eq_false_iff]
  rintro hempty
  rw [hempty] at hl
  cases hl

theorem isMarked_chars (i : Indent) (depth : Nat) {l : String} (hlf : '\n' ∉ l.toList) :
    IsMarked IsDocumentation (Text.trimEnd l).toList
      (Line.chars i.unit depth ⟨0, commentLine l⟩ ++ ['\n']) := by
  obtain ⟨gap, hcr, hgap, hl⟩ := toList_commentLine l
  have hindent := Nesting.isIndentation_indentation i depth
  have hout : ∀ {c : Char}, c ≠ ' ' → c ≠ '\t' →
      c ∉ (Buffer.indentation i.unit depth).toList := fun hspace htab hmem =>
    (hindent _ hmem).elim hspace htab
  have htrim : '\n' ∉ (Text.trimEnd l).toList := by
    obtain ⟨blanks, hblanks, -⟩ := Text.exists_dropBlanksEnd_append l.toList
    rw [Text.trimEnd, String.toList_ofList]
    rw [hblanks, List.mem_append, not_or] at hlf
    exact hlf.1
  refine ⟨(Buffer.indentation i.unit depth).toList ++ (['/', '/', '/'] ++ gap), fun more => ?_,
    ?_, ?_, ?_⟩
  · rw [IsDocumentation, List.append_assoc, Nesting.unindented_append hindent, List.append_assoc]
    exact List.prefix_append ['/', '/', '/'] (gap ++ more)
  · simp [hcr, hout]
  · simp [hgap, htrim, hout]
  · rw [Line.chars_of_not_isEmpty _ _ (commentLine_isEmpty l), hl]
    simp only [List.append_assoc]

/-- No carriage return stands at the end of what is left of a line. -/
theorem followed_trimEnd_iff {P : List Char → Prop} (l : String) :
    Followed '\r' (fun after => after = [] ∨ P after) (Text.trimEnd l).toList ↔
      Followed '\r' P (Text.trimEnd l).toList := by
  refine forall_congr' fun before => forall_congr' fun after => forall_congr' fun hl => ?_
  refine or_iff_right ?_
  rintro rfl
  rw [Text.trimEnd, String.toList_ofList] at hl
  exact absurd (Text.isBlank_of_dropBlanksEnd hl) (by decide)

theorem forall_sourceLines_comment_iff (i : Indent) (depth : Nat) (text : String) :
    (∀ l ∈ sourceLines (renderAll i.unit depth (commentLines (some text))).toList,
        IsDocumentation l) ↔
      ∀ l ∈ Text.lines text, Followed '\r' IsDocumentation (Text.trimEnd l).toList := by
  have hlines : (renderAll i.unit depth (commentLines (some text))).toList =
      (Text.lines text).flatMap fun l =>
        Line.chars i.unit depth ⟨0, commentLine l⟩ ++ ['\n'] := by
    rw [Line.toList_renderAll, commentLines, flat, List.flatMap_map, List.flatMap_map,
      List.flatMap_map]
  obtain ⟨ls, hls, hiff⟩ := Text.exists_sourceLines_eq Text.looksUpTo_isDocumentation
    (fun l hl => isMarked_chars i depth (lf_not_mem_of_mem_lines hl)) []
  rw [hlines, ← List.append_nil (List.flatMap _ _), hls, sourceLines, List.append_nil, hiff]
  simp only [followed_trimEnd_iff]

end Emit

namespace SourceFile

theorem isMarked_commentLine {l : String} (hlf : '\n' ∉ l.toList) :
    IsMarked IsComment l.toList (commentLine l).toList := by
  unfold commentLine
  split
  · rename_i hl
    rw [String.isEmpty_iff] at hl
    refine ⟨['/', '/'], fun more => List.prefix_append _ more, by decide, ?_, ?_⟩
    · rw [hl]
      decide
    · rw [hl]
      rfl
  · refine ⟨['/', '/', ' ', ' '], fun more => ⟨' ' :: ' ' :: more, rfl⟩, by decide, ?_, ?_⟩
    · simpa using hlf
    · simp

theorem exists_sourceLines_render (f : SourceFile) (header : String) :
    ∃ block, sourceLines ({ f with header := some header } : SourceFile).render.toList =
        block ++ [] :: sourceLines f.content.toList ∧
      ((∀ l ∈ block, IsComment l) ↔ ∀ l ∈ Text.lines header,
        Followed '\r' (fun after => after = [] ∨ IsComment after) l.toList) := by
  obtain ⟨ls, hls, hiff⟩ := Text.exists_sourceLines_eq Text.looksUpTo_isComment
    (fun l hl => isMarked_commentLine (lf_not_mem_of_mem_lines hl))
    ('/' :: '/' :: '\n' :: '\n' :: f.content.toList)
  refine ⟨ls ++ [['/', '/']], ?_, ?_⟩
  · have hrender : ({ f with header := some header } : SourceFile).render.toList =
        (Text.lines header).flatMap (fun l => (commentLine l).toList) ++
          '/' :: '/' :: '\n' :: '\n' :: f.content.toList := by
      simp [render, commentBlock, String.toList_join, List.flatMap_map]
    rw [hrender, hls, List.append_assoc]
    rfl
  · rw [List.forall_mem_append, List.forall_mem_singleton, hiff]
    exact and_iff_left List.prefix_rfl

end SourceFile

/-! ## Comments of a source -/

/-- For a compiler all that is written for a comment is documentation exactly if, in each line of
the comment, what follows a carriage return is marked as documentation itself. For a comment block
the same holds with two slashes, but there a carriage return may end the line. -/
theorem comments_stay_comments_iff (text header : String) (b : Buffer) (f : SourceFile) :
    (∃ added, (Emit.comment text b).text = b.text ++ added ∧
      ((∀ l ∈ sourceLines added.toList, IsDocumentation l) ↔
        ∀ l ∈ Text.lines text, Followed '\r' IsDocumentation (Text.trimEnd l).toList)) ∧
    ∃ block, sourceLines ({ f with header := some header } : SourceFile).render.toList =
        block ++ [] :: sourceLines f.content.toList ∧
      ((∀ l ∈ block, IsComment l) ↔ ∀ l ∈ Text.lines header,
        Followed '\r' (fun after => after = [] ∨ IsComment after) l.toList) := by
  refine ⟨⟨_, ?_, Emit.forall_sourceLines_comment_iff b.style b.depth text⟩,
    f.exists_sourceLines_render header⟩
  exact congrArg Buffer.text (Emit.writes_comment (some text) b)

/-- The text after a carriage return is code, under a declaration and at the top of a file. -/
theorem comment_text_becomes_code :
    (Emit.comment "a\rlet b = 1" (Buffer.new .swift)).text = "/// a\rlet b = 1\n" ∧
    sourceLines "/// a\rlet b = 1\n".toList = ["/// a".toList, "let b = 1".toList] ∧
    ¬ IsDocumentation "let b = 1".toList ∧
    (SourceFile.render { path := "A.swift", content := "", header := some "a\rlet b = 1" }) =
      "//  a\rlet b = 1\n//\n\n" ∧
    sourceLines "//  a\rlet b = 1\n//\n\n".toList =
      ["//  a".toList, "let b = 1".toList, "//".toList, []] ∧
    ¬ IsComment "let b = 1".toList := by
  decide +kernel

end SwiftDecl
