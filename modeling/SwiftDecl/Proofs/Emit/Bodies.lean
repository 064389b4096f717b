import Mathlib.Data.List.Basic
import SwiftDecl.Proofs.Emit.Members
import SwiftDecl.Proofs.Text.Lines

/-!
# SwiftDecl.Proofs.Emit.Bodies

Text that is added to the body of a function. It can be added as one item, which the writer splits
into lines, or as its lines, each of which the writer takes for an item of its own.

* `flatMap_bodyItemLines` — lines that become items are written as they are.
* `functionLines_addText`, `functionLines_addItem` — the lines of the function with the text.
* `body_split_early_or_late` — both ways give the same source, unless the text is empty.
-/

namespace SwiftDecl
namespace Emit

open Line (flat blank deeper renderAll)

theorem bodyItemLines_of_ne {item : String} (h : item ≠ "") :
    bodyItemLines item = flat (Text.lines item) := by
  rw [bodyItemLines, if_neg (by rwa [String.isEmpty_iff])]

/-- An empty line becomes an empty item, any other line an item of one line. -/
theorem bodyItemLines_of_mem_lines {text line : String} (h : line ∈ Text.lines text) :
    bodyItemLines line = [⟨0, line⟩] := by
  by_cases hline : line = ""
  · rw [hline]
    rfl
  · rw [bodyItemLines_of_ne hline, Text.lines_of_mem_lines h hline]
    rfl

theorem flatMap_bodyItemLines (text : String) :
    (Text.lines text).flatMap bodyItemLines = flat (Text.lines text) := by
  rw [flat, List.map_eq_flatMap]
  exact List.flatMap_congr fun line h => bodyItemLines_of_mem_lines h

section

variable (s : Style) (f : FunctionDecl) (omitPublic isStatic : Bool)

/-- The lines of a function without that of its closing brace. -/
def unclosedLines : List Line :=
  commentLines f.comment ++
  (if f.isInlinable then flat ["@inlinable"] else []) ++
  (if f.hasDiscardableResult then flat ["@discardableResult"] else []) ++
  openBlockLines s (s.signature f omitPublic isStatic) f.constraints ++
  deeper (f.body.flatMap bodyItemLines)

/-- Items at the end of the body come right before the closing brace. -/
theorem functionLines_append_body (items : List String) :
    functionLines s { f with body := f.body ++ items } omitPublic isStatic =
      unclosedLines s f omitPublic isStatic ++ deeper (items.flatMap bodyItemLines) ++
        flat ["\x7d"] := by
  have hbody : deeper ((f.body ++ items).flatMap bodyItemLines) =
      deeper (f.body.flatMap bodyItemLines) ++ deeper (items.flatMap bodyItemLines) := by
    rw [List.flatMap_append, deeper, List.map_append]
    rfl
  rw [unclosedLines, List.append_assoc _ (deeper _) (deeper _), ← hbody]
  rfl

theorem functionLines_addItem (item : String) :
    functionLines s (f.addItem item) omitPublic isStatic =
      unclosedLines s f omitPublic isStatic ++ deeper (bodyItemLines item) ++ flat ["\x7d"] := by
  rw [FunctionDecl.addItem, functionLines_append_body, List.flatMap_singleton]

theorem functionLines_addText (text : String) :
    functionLines s (f.addText text) omitPublic isStatic =
      unclosedLines s f omitPublic isStatic ++ deeper (flat (Text.lines text)) ++
        flat ["\x7d"] := by
  rw [FunctionDecl.addText, functionLines_append_body, flatMap_bodyItemLines]

end

/-! ## The source of the function -/

/-- The lines of a text at this depth, the empty ones without indentation. -/
def bodyText (unit : String) (depth : Nat) (text : String) : String :=
  String.join ((Text.lines text).map fun l =>
    if l = "" then "\n" else Buffer.indentation unit depth ++ l ++ "\n")

theorem renderAll_flat_lines (unit : String) (depth : Nat) (text : String) :
    renderAll unit depth (flat (Text.lines text)) = bodyText unit depth text := by
  rw [flat, List.map_eq_flatMap, renderAll_flatMap, bodyText]
  simp only [Line.renderAll_singleton, Line.render, String.isEmpty_iff, Nat.add_zero]

/-- A text is added to the body of a function as a whole or line by line, and the source is the
same: the lines of the text, one level deeper than the function, come between what was there and
the closing brace. The empty text is the exception, since as a whole it is an empty line. -/
theorem body_split_early_or_late (s : Style) (f : FunctionDecl) (omitPublic isStatic : Bool)
    (b : Buffer) : ∃ above,
      function s f omitPublic isStatic b =
        b.append (above ++ (Buffer.indentation b.style.unit b.depth ++ "\x7d\n")) ∧
      ∀ text,
        function s (f.addText text) omitPublic isStatic b =
          b.append (above ++ bodyText b.style.unit (b.depth + 1) text ++
            (Buffer.indentation b.style.unit b.depth ++ "\x7d\n")) ∧
        (function s (f.addItem text) omitPublic isStatic b =
          function s (f.addText text) omitPublic isStatic b ↔ text ≠ "") := by
  refine ⟨renderAll b.style.unit b.depth (unclosedLines s f omitPublic isStatic), ?_, fun text =>
    ⟨?_, ?_⟩⟩
  · rw [writes_function s f omitPublic isStatic b, ← renderAll_closeBlock, ← Line.renderAll_append]
    rfl
  · rw [writes_function, functionLines_addText, Line.renderAll_append, Line.renderAll_append,
      Line.renderAll_deeper, renderAll_flat_lines, renderAll_closeBlock]
  · constructor
    · rintro hsame rfl
      -- The item writes one line feed, and the text without lines nothing.
      have hitem : renderAll b.style.unit b.depth (deeper (bodyItemLines "")) = "\n" := rfl
      have htext : renderAll b.style.unit b.depth (deeper (flat (Text.lines ""))) = "" := rfl
      rw [writes_function, writes_function, functionLines_addItem, functionLines_addText] at hsame
      have hlength := congrArg (fun b => b.text.length) hsame
      simp only [Buffer.text_append, Line.renderAll_append, hitem, htext, String.length_append,
        String.length_empty] at hlength
      have hlf : "\n".length = 1 := rfl
      omega
    · intro hne
      rw [writes_function, writes_function, functionLines_addItem, functionLines_addText,
        bodyItemLines_of_ne hne]

/-- One carriage return belongs to the line end, and blanks are no empty line. -/
example : (function {} (({ name := "f" } : FunctionDecl).addItem "a\r\r\n\n  ") false false
    (Buffer.new .swift)).text = "func f() \x7b\n  a\r\n\n    \n\x7d\n" := by decide +kernel

end Emit
end SwiftDecl
