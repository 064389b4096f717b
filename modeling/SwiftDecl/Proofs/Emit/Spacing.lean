import Mathlib.Data.List.Chain
import SwiftDecl.Proofs.Emit.Nesting

/-!
# SwiftDecl.Proofs.Emit.Spacing

Lines with empty ones among them. An empty line is written between members and between
declarations, so it has to come right before the first line of one.

* `Spaced`, `Begun` — lines that can come one after another, and lines that can come after an empty
  one as well.
* `begins_signature`, `begins_extensionHeader` and so on — no member starts like a line that closes.
* `begun_block` — a block can come after an empty line, whatever spaced lines are in it.
-/

namespace SwiftDecl

open Line (bare flat blank renderAll)
open Nesting (unindented)

/-- A line that can come after an empty one. It is not empty and closes no block and no gate. -/
structure Opening (l : List Char) : Prop where
  ne_nil : l ≠ []
  noBrace : unindented l ≠ ['\x7d']
  noGate : ¬ "#endif".toList <+: unindented l

/-- The second line can come after the first. -/
def Parted (l m : List Char) : Prop := l = [] → Opening m

def Visible (l : List Char) : Prop := ∃ c ∈ l, Text.isBlank c = false

/-- No line is broken, each is seen, is empty or is one of those in `B`, and all empty lines have
their place between others. -/
structure Spaced (B : List Char → Prop) (ls : List Line) : Prop where
  unbroken : ∀ l ∈ bare ls, '\n' ∉ l
  seen : ∀ l ∈ bare ls, l = [] ∨ Visible l ∨ B l
  parted : (bare ls).IsChain Parted
  ends : ∀ l ∈ (bare ls).getLast?, l ≠ []

/-- Moreover, an empty line can come before them. -/
structure Begun (B : List Char → Prop) (ls : List Line) : Prop extends Spaced B ls where
  opens : ∃ l ∈ (bare ls).head?, Opening l

section

variable {B : List Char → Prop} {ls ms : List Line}

theorem spaced_nil : Spaced B [] where
  unbroken := List.forall_mem_nil _
  seen := List.forall_mem_nil _
  parted := List.isChain_nil
  ends _ h := nomatch h

/-- Where the lines meet there is no empty line before. -/
theorem Spaced.append (hl : Spaced B ls) (hm : Spaced B ms) : Spaced B (ls ++ ms) where
  unbroken := by
    rw [Line.bare_append]
    exact List.forall_mem_append.2 ⟨hl.unbroken, hm.unbroken⟩
  seen := by
    rw [Line.bare_append]
    exact List.forall_mem_append.2 ⟨hl.seen, hm.seen⟩
  parted := by
    rw [Line.bare_append]
    exact hl.parted.append hm.parted fun l hlast _ _ hnil => absurd hnil (hl.ends l hlast)
  ends := by
    intro l hlast
    rw [Line.bare_append, List.getLast?_append] at hlast
    rcases Option.or_eq_some_iff.1 hlast with hlast | ⟨-, hlast⟩
    · exact hm.ends l hlast
    · exact hl.ends l hlast

theorem Spaced.deeper (h : Spaced B ls) : Spaced B (Line.deeper ls) := by
  constructor <;> rw [Line.bare_deeper]
  · exact h.unbroken
  · exact h.seen
  · exact h.parted
  · exact h.ends

theorem spaced_flatMap {α : Type} {f : α → List Line} {xs : List α}
    (h : ∀ x ∈ xs, Spaced B (f x)) : Spaced B (xs.flatMap f) := by
  induction xs with
  | nil => exact spaced_nil
  | cons x xs ih =>
    rw [List.flatMap_cons]
    exact (h x (.head _)).append (ih fun y hy => h y (.tail _ hy))

theorem spaced_line {t : String} (hlf : '\n' ∉ t.toList) (hne : t ≠ "")
    (h : Visible t.toList ∨ B t.toList) : Spaced B (flat [t]) where
  unbroken := List.forall_mem_singleton.2 hlf
  seen := List.forall_mem_singleton.2 (.inr h)
  parted := List.isChain_singleton _
  ends := by
    rintro _ ⟨⟩
    exact fun hnil => hne (String.toList_eq_nil_iff.1 hnil)

theorem Begun.append (hl : Begun B ls) (hm : Spaced B ms) : Begun B (ls ++ ms) where
  toSpaced := hl.toSpaced.append hm
  opens := by
    obtain ⟨l, hhead, hopening⟩ := hl.opens
    refine ⟨l, ?_, hopening⟩
    rw [Line.bare_append, List.head?_append]
    exact Option.or_eq_some_iff.2 (.inl hhead)

theorem Begun.blank_cons (h : Begun B ls) : Spaced B (blank :: ls) where
  unbroken := List.forall_mem_cons.2 ⟨List.not_mem_nil, h.unbroken⟩
  seen := List.forall_mem_cons.2 ⟨.inl rfl, h.seen⟩
  parted := by
    obtain ⟨l, hhead, hopening⟩ := h.opens
    refine List.isChain_cons.2 ⟨fun m hm _ => ?_, h.parted⟩
    obtain rfl := Option.some.inj (hhead.symm.trans hm)
    exact hopening
  ends := by
    obtain ⟨l, hhead, -⟩ := h.opens
    obtain ⟨rest, hrest⟩ := List.head?_eq_some_iff.1 hhead
    intro m hm
    have hlast : bare (blank :: ls) = [] :: l :: rest := congrArg _ hrest
    rw [hlast, List.getLast?_cons_cons, ← hrest] at hm
    exact h.ends m hm

end

/-- A line that can stand anywhere. -/
structure Firm (t : String) : Prop where
  unbroken : '\n' ∉ t.toList
  visible : Visible t.toList
  opening : Opening t.toList

/-- The first character is no blank and none that closing lines start with. -/
def Begins (t : String) : Prop :=
  (t.toList.head?.any fun c => !Text.isBlank c && c != '\x7d' && c != '#') = true

instance : DecidablePred Begins := fun _ => inferInstanceAs (Decidable (_ = true))

theorem Begins.append {a : String} (h : Begins a) (b : String) : Begins (a ++ b) := by
  unfold Begins at h ⊢
  rw [String.toList_append]
  cases ha : a.toList with
  | nil =>
    rw [ha] at h
    cases h
  | cons c cs =>
    rw [ha] at h
    exact h

theorem begins_word_append (present : Bool) {word t : String} (hword : Begins word)
    (ht : Begins t) : Begins (Style.word present word ++ t) := by
  cases present with
  | true => exact hword.append t
  | false =>
    rw [Style.word, if_neg Bool.false_ne_true, String.empty_append]
    exact ht

theorem Begins.firm {t : String} (h : Begins t) (hlf : Lacks ['\n'] t) : Firm t := by
  unfold Begins at h
  cases ht : t.toList with
  | nil =>
    rw [ht] at h
    cases h
  | cons c cs =>
    rw [ht, List.head?_cons, Option.any_some] at h
    simp only [Bool.and_eq_true, Bool.not_eq_true', bne_iff_ne] at h
    obtain ⟨⟨hblank, hbrace⟩, hsign⟩ := h
    have hindent : unindented (c :: cs) = c :: cs := by
      refine List.dropWhile_cons_of_neg ?_
      rw [Bool.or_eq_true, beq_iff_eq, beq_iff_eq]
      rintro (rfl | rfl) <;> revert hblank <;> decide
    refine ⟨hlf _ (.head _), ⟨c, by rw [ht]; exact .head _, hblank⟩, ?_⟩
    rw [ht]
    refine ⟨List.cons_ne_nil c cs, ?_, ?_⟩
    · rw [hindent]
      rintro ⟨⟩
      exact hbrace rfl
    · rw [hindent]
      intro hprefix
      exact hsign (List.cons_prefix_cons.1 hprefix).1.symm

theorem firm_if {condition : String} (h : '\n' ∉ condition.toList) :
    Firm ("#if " ++ condition) := by
  have ht : ("#if " ++ condition).toList = '#' :: 'i' :: 'f' :: ' ' :: condition.toList :=
    String.toList_append
  constructor <;> rw [ht]
  · simpa using h
  · exact ⟨'#', .head _, by decide⟩
  · refine ⟨List.cons_ne_nil _ _, (fun hbrace => nomatch hbrace), fun hprefix => ?_⟩
    have hletters := List.isPrefixOf_iff_prefix.2 hprefix
    cases hletters

section

variable {B : List Char → Prop} {texts : List String} {ls ms : List Line}

theorem Firm.begun {t : String} (h : Firm t) : Begun B (flat [t]) where
  toSpaced := spaced_line h.unbroken (fun he => h.opening.ne_nil (he ▸ rfl)) (.inl h.visible)
  opens := ⟨t.toList, rfl, h.opening⟩

theorem spaced_firm (h : ∀ t ∈ texts, Firm t) : Spaced B (flat texts) := by
  rw [flat, List.map_eq_flatMap]
  exact spaced_flatMap fun t ht => (h t ht).begun.toSpaced

/-- Lines before the first one, if there are any. -/
theorem Begun.prepend (h : ∀ t ∈ texts, Firm t) (hm : Begun B ms) : Begun B (flat texts ++ ms) := by
  cases texts with
  | nil => exact hm
  | cons t texts =>
    obtain ⟨ht, hrest⟩ := List.forall_mem_cons.1 h
    exact ht.begun.append ((spaced_firm hrest).append hm.toSpaced)

theorem Begun.prepend_if (present : Bool) {t : String} (h : Firm t) (hm : Begun B ms) :
    Begun B ((if present then flat [t] else []) ++ ms) := by
  cases present with
  | true => exact h.begun.append hm.toSpaced
  | false => exact hm

theorem spaced_closeBlock : Spaced B (flat ["\x7d"]) :=
  spaced_line (by decide) (by decide) (.inl ⟨'\x7d', .head _, by decide⟩)

/-- A block with its header. Whatever is in it, the lines around it are those of its braces. -/
theorem begun_block {s : Style} {header : String} {cs : List GenericConstraint}
    (hheader : Begins header) (hlf : Lacks ['\n'] header) (hwhere : Lacks ['\n'] (s.whereClause cs))
    {body : List Line} (hbody : Spaced B body) :
    Begun B (Emit.blockLines s header cs body) := by
  have hopen : Begun B (openBlockLines s header cs) := by
    unfold openBlockLines
    split
    · exact ((hheader.append " \x7b").firm (hlf.append (by decide))).begun
    · have hclause : Begins (s.whereClause cs) :=
        (by decide : Begins "where ").append _
      have hbrace : Firm "\x7b" := Begins.firm (by decide) (by decide)
      exact ((hheader.firm hlf).begun.append (hclause.firm hwhere).begun.toSpaced.deeper).append
        hbrace.begun.toSpaced
  exact (hopen.append hbody.deeper).append spaced_closeBlock

end

/-! ## How members begin -/

section

variable (s : Style)

theorem begins_commentLine (l : String) : Begins (Emit.commentLine l) := by
  unfold Emit.commentLine
  split
  · decide
  · exact (by decide : Begins "/// ").append _

theorem begins_signature (f : FunctionDecl) (omitPublic isStatic : Bool) :
    Begins (s.signature f omitPublic isStatic) := by
  have hintro : Begins (Style.word (f.isPublic && !omitPublic) "public " ++
      Style.word isStatic "static " ++ "func ") := by
    rw [String.append_assoc]
    exact begins_word_append _ (by decide) (begins_word_append _ (by decide) (by decide))
  unfold Style.signature
  exact (((((((hintro.append _).append _).append _).append _).append _).append _).append _).append _

theorem begins_variableLine (v : Variable) (omitPublic isStatic : Bool) :
    Begins (s.variableLine v omitPublic isStatic) := by
  have hkeyword : Begins (if v.isReadonly then "let " else "var ") := by
    split
    · decide
    · decide
  have hintro : Begins (Style.word (v.isPublic && !omitPublic) "public " ++
      Style.word isStatic "static " ++ if v.isReadonly then "let " else "var ") := by
    rw [String.append_assoc]
    exact begins_word_append _ (by decide) (begins_word_append _ (by decide) hkeyword)
  unfold Style.variableLine
  exact ((hintro.append _).append _).append _

theorem begins_typeAlias (a : TypeAlias) : Begins (s.typeAlias a) := by
  have hintro := begins_word_append a.isPublic (by decide : Begins "public ")
    (by decide : Begins "typealias ")
  exact ((hintro.append _).append _).append _

theorem begins_typeHeader (d : TypeDecl) (omitPublic : Bool) :
    Begins (s.typeHeader d omitPublic) := by
  have hkeyword : Begins d.kind.keyword := by
    cases d.kind <;> decide
  have hintro := begins_word_append (d.isPublic && !omitPublic) (by decide : Begins "public ")
    hkeyword
  exact ((hintro.append _).append _).append _

theorem begins_extensionHeader (e : Extension) : Begins (s.extensionHeader e) := by
  have hintro := begins_word_append (e.isPublic && e.conformances.isEmpty)
    (by decide : Begins "public ") (by decide : Begins "extension ")
  exact (hintro.append _).append _

end

end SwiftDecl
