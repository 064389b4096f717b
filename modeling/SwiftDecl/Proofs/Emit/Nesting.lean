import SwiftDecl.Proofs.Emit.Layout
import SwiftDecl.Proofs.Text.Pieces

/-!
# SwiftDecl.Proofs.Emit.Nesting

Compilation gates and braces. A source is read line by line with a stack of the gates that are open
and a count of the open braces; a line that closes a gate has to name the innermost one.

* `pieces_renderAll` — the lines of a rendered text are those it is rendered from.
* `Closed`, `Quiet` — lines that leave the stack and the count as they are, whatever these are.
* `quiet_layout` — this goes along with concatenation and blocks, so that no member has to look at
  gates.
-/

namespace SwiftDecl

open Line (flat blank deeper renderAll)

/-- The conditions of the open gates, the innermost first, and the number of open braces. -/
structure Nesting where
  gates : List (List Char) := []
  braces : Nat := 0
  deriving DecidableEq

namespace Nesting

/-- A closing brace needs an open one. -/
def readBrace (n : Nat) (c : Char) : Option Nat :=
  if c = '\x7b' then some (n + 1)
  else if c = '\x7d' then (if n = 0 then none else some (n - 1))
  else some n

def unindented (l : List Char) : List Char := l.dropWhile fun c => c == ' ' || c == '\t'

/-- The comment after `#endif` fits the condition of the gate: the same version, or imports. -/
def closes (label condition : List Char) : Bool :=
  if label = "required canImports".toList then "canImport(".toList.isPrefixOf condition
  else "swift(>=".toList.isPrefixOf label && label == condition

/-- A line with a number sign opens a gate or closes the innermost one. -/
def readGate (l : List Char) (gates : List (List Char)) : Option (List (List Char)) :=
  if '#' ∉ l then some gates
  else
    match Text.afterStart "#if ".toList (unindented l) with
    | some condition => some (condition :: gates)
    | none =>
      match Text.afterStart "#endif // ".toList (unindented l), gates with
      | some label, condition :: gates => if closes label condition then some gates else none
      | _, _ => none

def readLine (n : Nesting) (l : List Char) : Option Nesting :=
  match readGate l n.gates, l.foldlM readBrace n.braces with
  | some gates, some braces => some ⟨gates, braces⟩
  | _, _ => none

def readLines (ls : List (List Char)) (n : Nesting) : Option Nesting := ls.foldlM readLine n

theorem readLines_append (ls ms : List (List Char)) (n : Nesting) :
    readLines (ls ++ ms) n = (readLines ls n).bind (readLines ms) :=
  List.foldlM_append

theorem readLines_cons (l : List Char) (ls : List (List Char)) (n : Nesting) :
    readLines (l :: ls) n = (readLine n l).bind (readLines ls) :=
  List.foldlM_cons

theorem readBraces_of_not_mem {l : List Char} (hopen : '\x7b' ∉ l) (hclose : '\x7d' ∉ l) (n : Nat) :
    l.foldlM readBrace n = some n := by
  induction l with
  | nil => rfl
  | cons c cs ih =>
    rw [List.mem_cons, not_or] at hopen hclose
    have hc : readBrace n c = some n := by
      rw [readBrace, if_neg (Ne.symm hopen.1), if_neg (Ne.symm hclose.1)]
    rw [List.foldlM_cons, hc]
    exact ih hopen.2 hclose.2

theorem readBraces_of_lacks {t : String} (h : Lacks ['\x7b', '\x7d'] t) (n : Nat) :
    t.toList.foldlM readBrace n = some n :=
  readBraces_of_not_mem (h _ (by decide)) (h _ (by decide)) n

/-- Nothing but spaces and tabs. -/
def IsIndentation (cs : List Char) : Prop := ∀ c ∈ cs, c = ' ' ∨ c = '\t'

theorem isIndentation_unit (i : Indent) : IsIndentation i.unit.toList := by
  intro c hc
  cases i with
  | spaces width =>
    rw [Indent.unit, String.toList_ofList] at hc
    exact .inl (List.eq_of_mem_replicate hc)
  | tab => exact .inr (List.mem_singleton.1 hc)

theorem isIndentation_indentation (i : Indent) (depth : Nat) :
    IsIndentation (Buffer.indentation i.unit depth).toList := by
  induction depth with
  | zero => exact fun c hc => nomatch hc
  | succ depth ih =>
    intro c hc
    rw [Buffer.indentation, String.toList_append, List.mem_append] at hc
    rcases hc with hc | hc
    · exact isIndentation_unit i c hc
    · exact ih c hc

theorem IsIndentation.not_mem {a : List Char} (ha : IsIndentation a) {c : Char}
    (hc : c ∈ marks) : c ∉ a := by
  intro hmem
  rcases ha c hmem with rfl | rfl <;> revert hc <;> decide

theorem unindented_append {a : List Char} (ha : IsIndentation a) (l : List Char) :
    unindented (a ++ l) = unindented l :=
  List.dropWhile_append_of_pos fun c hc => by
    rcases ha c hc with rfl | rfl <;> rfl

theorem readLine_append {a : List Char} (ha : IsIndentation a) (l : List Char) (n : Nesting) :
    readLine n (a ++ l) = readLine n l := by
  have hgate : readGate (a ++ l) n.gates = readGate l n.gates := by
    simp only [readGate, unindented_append ha, List.mem_append,
      ha.not_mem (by decide : '#' ∈ marks), false_or]
  have hbraces : (a ++ l).foldlM readBrace n.braces = l.foldlM readBrace n.braces := by
    rw [List.foldlM_append, readBraces_of_not_mem (ha.not_mem (by decide)) (ha.not_mem (by decide))]
    rfl
  rw [readLine, readLine, hgate, hbraces]

end Nesting

open Nesting (readLine readLines unindented)

namespace Line

/-- The characters of a line, indentation included, without its line feed. -/
def chars (unit : String) (depth : Nat) (l : Line) : List Char :=
  if l.text.isEmpty then []
  else (Buffer.indentation unit (depth + l.depth)).toList ++ l.text.toList

/-- The lines without indentation. -/
def bare (ls : List Line) : List (List Char) := ls.map (·.text.toList)

theorem chars_eq (i : Indent) (depth : Nat) (l : Line) :
    ∃ a, Nesting.IsIndentation a ∧ l.chars i.unit depth = a ++ l.text.toList := by
  unfold chars
  split
  · rename_i h
    exact ⟨[], List.forall_mem_nil _, by rw [String.isEmpty_iff.1 h]; rfl⟩
  · exact ⟨_, Nesting.isIndentation_indentation i _, rfl⟩

theorem chars_of_not_isEmpty (unit : String) (depth : Nat) {text : String}
    (h : text.isEmpty = false) :
    chars unit depth ⟨0, text⟩ = (Buffer.indentation unit depth).toList ++ text.toList :=
  if_neg (by simp [h])

theorem unindented_chars (i : Indent) (depth : Nat) (l : Line) :
    unindented (l.chars i.unit depth) = unindented l.text.toList := by
  obtain ⟨a, ha, hl⟩ := chars_eq i depth l
  rw [hl, Nesting.unindented_append ha]

/-- Indentation does not matter. -/
theorem readLines_chars (i : Indent) (depth : Nat) (ls : List Line) (n : Nesting) :
    readLines (ls.map (chars i.unit depth)) n = readLines (bare ls) n := by
  induction ls generalizing n with
  | nil => rfl
  | cons l ls ih =>
    obtain ⟨a, ha, hl⟩ := chars_eq i depth l
    rw [List.map_cons, bare, List.map_cons, Nesting.readLines_cons, Nesting.readLines_cons, hl,
      Nesting.readLine_append ha]
    exact congrArg _ (funext ih)

theorem toList_render (unit : String) (depth : Nat) (l : Line) :
    (l.render unit depth).toList = l.chars unit depth ++ ['\n'] := by
  unfold render chars
  split <;> simp

theorem toList_renderAll (unit : String) (depth : Nat) (ls : List Line) :
    (renderAll unit depth ls).toList = (ls.map (chars unit depth)).flatMap (· ++ ['\n']) := by
  induction ls with
  | nil => rfl
  | cons l ls ih =>
    rw [renderAll, String.toList_append, toList_render, ih, List.map_cons, List.flatMap_cons]

/-- Every line of the text is the line that was written, if none of them is broken. -/
theorem pieces_renderAll_append (i : Indent) (depth : Nat) {ls : List Line}
    (h : ∀ l ∈ ls, '\n' ∉ l.text.toList) (t : String) :
    Text.pieces '\n' (renderAll i.unit depth ls ++ t).toList =
      ls.map (chars i.unit depth) ++ Text.pieces '\n' t.toList := by
  induction ls with
  | nil => rw [renderAll, String.empty_append, List.map_nil, List.nil_append]
  | cons l ls ih =>
    obtain ⟨hl, hrest⟩ := List.forall_mem_cons.1 h
    obtain ⟨a, ha, hchars⟩ := chars_eq i depth l
    have hwhole : '\n' ∉ l.chars i.unit depth := by
      rw [hchars, List.mem_append, not_or]
      exact ⟨ha.not_mem (by decide), hl⟩
    rw [renderAll, String.append_assoc, String.toList_append, toList_render, List.append_assoc,
      List.singleton_append, Text.pieces_append _ hwhole, ih hrest]
    rfl

theorem pieces_renderAll (i : Indent) (depth : Nat) {ls : List Line}
    (h : ∀ l ∈ ls, '\n' ∉ l.text.toList) :
    Text.pieces '\n' (renderAll i.unit depth ls).toList = ls.map (chars i.unit depth) ++ [[]] := by
  have hpieces := pieces_renderAll_append i depth h ""
  rwa [String.append_empty] at hpieces

theorem bare_append (ls ms : List Line) : bare (ls ++ ms) = bare ls ++ bare ms := List.map_append

theorem bare_deeper (ls : List Line) : bare (deeper ls) = bare ls := by
  simp [bare, deeper]

theorem bare_flat (texts : List String) : bare (flat texts) = texts.map String.toList := by
  simp [bare, flat]

end Line

/-! ## Lines that keep the nesting -/

/-- Reading the lines leads from one nesting to another. -/
def Leads (ls : List Line) (n m : Nesting) : Prop := readLines (Line.bare ls) n = some m

theorem Leads.append {ls ms : List Line} {n m k : Nesting} (hl : Leads ls n m)
    (hm : Leads ms m k) : Leads (ls ++ ms) n k := by
  rw [Leads, Line.bare_append, Nesting.readLines_append, hl]
  exact hm

theorem Leads.deeper {ls : List Line} {n m : Nesting} (h : Leads ls n m) :
    Leads (Line.deeper ls) n m := by
  rwa [Leads, Line.bare_deeper]

theorem leads_flat_singleton {t : String} {n m : Nesting} (h : readLine n t.toList = some m) :
    Leads (flat [t]) n m := by
  rw [Leads, Line.bare_flat, List.map_singleton, Nesting.readLines_cons, h]
  rfl

/-- The line restricts what follows it to certain platforms. -/
def isAvailability (l : List Char) : Bool := "@available".toList.isPrefixOf (unindented l)

/-- No line is broken, and `k` of them restrict platforms. -/
structure Whole (k : Nat) (ls : List Line) : Prop where
  unbroken : ∀ l ∈ ls, '\n' ∉ l.text.toList
  restricted : (Line.bare ls).countP isAvailability = k

theorem whole_nil : Whole 0 [] := ⟨List.forall_mem_nil _, rfl⟩

theorem Whole.append {j k : Nat} {ls ms : List Line} (hl : Whole j ls) (hm : Whole k ms) :
    Whole (j + k) (ls ++ ms) where
  unbroken := List.forall_mem_append.2 ⟨hl.unbroken, hm.unbroken⟩
  restricted := by rw [Line.bare_append, List.countP_append, hl.restricted, hm.restricted]

theorem Whole.deeper {k : Nat} {ls : List Line} (h : Whole k ls) : Whole k (Line.deeper ls) where
  unbroken := List.forall_mem_map.2 h.unbroken
  restricted := by rw [Line.bare_deeper, h.restricted]

theorem isAvailability_of_not_mem {l : List Char} (h : '@' ∉ l) : isAvailability l = false := by
  rw [isAvailability, Bool.eq_false_iff]
  intro hprefix
  have hat := (List.isPrefixOf_iff_prefix.1 hprefix).subset (by decide : '@' ∈ "@available".toList)
  exact h ((List.dropWhile_sublist _).subset hat)

theorem whole_line {t : String} (h : '\n' ∉ t.toList) (ha : isAvailability t.toList = false) :
    Whole 0 (flat [t]) where
  unbroken := by
    intro l hl
    rw [flat, List.map_singleton, List.mem_singleton] at hl
    subst hl
    exact h
  restricted := by
    rw [Line.bare_flat, List.map_singleton, List.countP_singleton, ha]
    rfl

theorem Lacks.whole {t : String} (h : Lacks ['@', '\n'] t) : Whole 0 (flat [t]) :=
  whole_line (h _ (by decide)) (isAvailability_of_not_mem (h _ (by decide)))

theorem whole_flat {texts : List String} (h : ∀ t ∈ texts, Lacks ['@', '\n'] t) :
    Whole 0 (flat texts) := by
  induction texts with
  | nil => exact whole_nil
  | cons t texts ih =>
    obtain ⟨ht, hrest⟩ := List.forall_mem_cons.1 h
    exact ht.whole.append (ih hrest)

/-- Moreover, the lines leave every nesting as it is. -/
structure Closed (k : Nat) (ls : List Line) : Prop extends Whole k ls where
  leads : ∀ n, Leads ls n n

theorem Closed.append {j k : Nat} {ls ms : List Line} (hl : Closed j ls) (hm : Closed k ms) :
    Closed (j + k) (ls ++ ms) :=
  ⟨hl.toWhole.append hm.toWhole, fun n => (hl.leads n).append (hm.leads n)⟩

abbrev Quiet (ls : List Line) : Prop := Closed 0 ls

theorem quiet_nil : Quiet [] := ⟨whole_nil, fun _ => rfl⟩

theorem Quiet.append {ls ms : List Line} (hl : Quiet ls) (hm : Quiet ms) : Quiet (ls ++ ms) :=
  Closed.append hl hm

theorem quiet_flatMap {α : Type} {f : α → List Line} {xs : List α} (h : ∀ x ∈ xs, Quiet (f x)) :
    Quiet (xs.flatMap f) := by
  induction xs with
  | nil => exact quiet_nil
  | cons x xs ih =>
    rw [List.flatMap_cons]
    exact (h x (.head _)).append (ih fun y hy => h y (.tail _ hy))

theorem readGate_of_not_mem {l : List Char} (h : '#' ∉ l) (gates : List (List Char)) :
    Nesting.readGate l gates = some gates := if_pos h

theorem leads_of_lacks {t : String} (h : Lacks ['#', '\x7b', '\x7d'] t) (n : Nesting) :
    Leads (flat [t]) n n :=
  leads_flat_singleton <| by
    rw [readLine, readGate_of_not_mem (h _ (by decide)),
      Nesting.readBraces_of_lacks (h.mono (by decide))]

theorem Whole.quiet {t : String} (h : Whole 0 (flat [t])) (hn : Lacks ['#', '\x7b', '\x7d'] t) :
    Quiet (flat [t]) :=
  ⟨h, leads_of_lacks hn⟩

theorem quiet_line {t : String} (h : Unmarked t) : Quiet (flat [t]) :=
  (h.mono (by decide)).whole.quiet (h.mono (by decide))

theorem quiet_flat {texts : List String} (h : ∀ t ∈ texts, Unmarked t) : Quiet (flat texts) := by
  have hflat : flat texts = texts.flatMap fun t => flat [t] := List.map_eq_flatMap
  rw [hflat]
  exact quiet_flatMap fun t ht => quiet_line (h t ht)

theorem quiet_blank : Quiet [blank] := quiet_line (by decide : Unmarked "")

theorem Quiet.blank_cons {ls : List Line} (h : Quiet ls) : Quiet (blank :: ls) :=
  quiet_blank.append h

theorem Line.countP_chars (i : Indent) (depth : Nat) (ls : List Line) :
    (ls.map (chars i.unit depth)).countP isAvailability = (bare ls).countP isAvailability := by
  rw [bare, List.countP_map, List.countP_map]
  refine List.countP_congr fun l _ => ?_
  simp only [Function.comp_apply, isAvailability, unindented_chars]

section

variable {s : Style} {header : String} {cs : List GenericConstraint}

theorem whole_openBlockLines (hheader : Unmarked header) (hwhere : Unmarked (s.whereClause cs)) :
    Whole 0 (openBlockLines s header cs) := by
  have hheaderLine : Lacks ['@', '\n'] header := hheader.mono (by decide)
  unfold openBlockLines
  split
  · exact (hheaderLine.append (by decide)).whole
  · exact (hheaderLine.whole.append (hwhere.mono (by decide)).whole.deeper).append
      (Lacks.whole (by decide))

theorem leads_openBlockLines (hheader : Unmarked header) (hwhere : Unmarked (s.whereClause cs))
    (n : Nesting) : Leads (openBlockLines s header cs) n { n with braces := n.braces + 1 } := by
  have hbrace : Leads (flat ["\x7b"]) n { n with braces := n.braces + 1 } :=
    leads_flat_singleton rfl
  unfold openBlockLines
  split
  · apply leads_flat_singleton
    have hgate : Lacks ['#'] (header ++ " \x7b") := (hheader.mono (by decide)).append (by decide)
    rw [readLine, readGate_of_not_mem (hgate _ (.head _)), String.toList_append, List.foldlM_append,
      Nesting.readBraces_of_lacks (hheader.mono (by decide))]
    rfl
  · exact (((quiet_line hheader).leads n).append ((quiet_line hwhere).leads n).deeper).append hbrace

/-- A block closes the brace that it opens, be it on the first line or after the constraints. -/
theorem quiet_block (hheader : Unmarked header) (hwhere : Unmarked (s.whereClause cs))
    {body : List Line} (hbody : Quiet body) : Quiet (Emit.blockLines s header cs body) where
  toWhole := ((whole_openBlockLines hheader hwhere).append hbody.toWhole.deeper).append
    (Lacks.whole (by decide))
  leads n := ((leads_openBlockLines hheader hwhere n).append (hbody.leads _).deeper).append
    (leads_flat_singleton rfl)

end

namespace Emit

section

variable {s : Style}

theorem quiet_comment {c : Option String} (h : ∀ t ∈ c, (Filling.comment t).Unmarked) :
    Quiet (commentLines c) := by
  cases c with
  | none => exact quiet_nil
  | some text =>
    exact quiet_flat (List.forall_mem_map.2 fun l hl =>
      lacks_commentLine (List.Subset.refl _) (h text rfl l hl))

theorem quiet_bodyItem {item : String} (h : (Filling.body item).Unmarked) :
    Quiet (bodyItemLines item) := by
  unfold bodyItemLines
  split
  · exact quiet_blank
  · exact quiet_flat h

theorem quiet_layout (hs : s.Unmarked) : Layout s Filling.Unmarked Quiet Quiet where
  nil := quiet_nil
  append := Quiet.append
  plain h := h
  append_plain := Quiet.append
  blank_cons := Quiet.blank_cons
  commented hcomment h := (quiet_comment hcomment).append h
  attributeLine := by
    have hline : ∀ t ∈ ["@inlinable", "@discardableResult"], '\n' ∉ t.toList ∧
        isAvailability t.toList = false ∧ Lacks ['#', '\x7b', '\x7d'] t := by
      decide
    intro t ht
    obtain ⟨hunbroken, havailability, hlacks⟩ := hline t ht
    exact (whole_line hunbroken havailability).quiet hlacks
  bodyItem := quiet_bodyItem
  variableLine h omitPublic isStatic :=
    quiet_line (lacks_variableLine (List.Subset.refl _) hs.lacks h omitPublic isStatic)
  typeAlias h := quiet_line (lacks_typeAlias (List.Subset.refl _) h)
  functionBlock h omitPublic isStatic _ hbody := by
    obtain ⟨-, -, -, -, -, hconstraints, -⟩ := (forall_mem_function_iff _).1 h
    exact quiet_block (lacks_signature (List.Subset.refl _) hs.lacks h omitPublic isStatic)
      (lacks_whereClause (List.Subset.refl _) hs.lacks hconstraints) hbody
  typeBlock h omitPublic _ hbody :=
    quiet_block (lacks_typeHeader (List.Subset.refl _) hs.lacks h omitPublic)
      (lacks_whereClause (List.Subset.refl _) hs.lacks (List.forall_mem_nil _)) hbody

end

end Emit
end SwiftDecl
