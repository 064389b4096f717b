import SwiftDecl.Proofs.Emit.Fillings

/-!
# SwiftDecl.Proofs.Emit.Layout

How the lines of members are put together, for any property that goes along with it: comments and
attributes above a block, members in a block, and an empty line before a group.

* `Layout` — what has to be shown of a property, once for each kind of line.
* `Layout.function`, `Layout.typeDecl`, `Layout.members` — what then holds of the members.
-/

namespace SwiftDecl
namespace Emit

open Line (flat blank deeper)

/-- A block with its header, and what is in it. -/
def blockLines (s : Style) (header : String) (cs : List GenericConstraint) (body : List Line) :
    List Line :=
  openBlockLines s header cs ++ deeper body ++ flat ["\x7d"]

/-- What the parts of members have to satisfy. `P` is for lines that come one after another, `Q` for
those that an empty line can come before as well, and `F` for the fillings. -/
structure Layout (s : Style) (F : Filling → Prop) (P Q : List Line → Prop) : Prop where
  nil : P []
  append : ∀ {ls ms}, P ls → P ms → P (ls ++ ms)
  plain : ∀ {ls}, Q ls → P ls
  append_plain : ∀ {ls ms}, Q ls → P ms → Q (ls ++ ms)
  blank_cons : ∀ {ls}, Q ls → P (blank :: ls)
  commented : ∀ {c ls}, (∀ t ∈ c, F (.comment t)) → Q ls → Q (commentLines c ++ ls)
  attributeLine : ∀ t ∈ ["@inlinable", "@discardableResult"], Q (flat [t])
  bodyItem : ∀ {item}, F (.body item) → P (bodyItemLines item)
  variableLine : ∀ {v : Variable}, (∀ x ∈ v.fillings s, F x) → ∀ omitPublic isStatic,
    Q (flat [s.variableLine v omitPublic isStatic])
  typeAlias : ∀ {a : TypeAlias}, (∀ x ∈ a.fillings s, F x) → Q (flat [s.typeAlias a])
  functionBlock : ∀ {f : FunctionDecl}, (∀ x ∈ f.fillings s, F x) → ∀ omitPublic isStatic {body},
    P body → Q (blockLines s (s.signature f omitPublic isStatic) f.constraints body)
  typeBlock : ∀ {d : TypeDecl}, (∀ x ∈ d.fillings s, F x) → ∀ omitPublic {body},
    P body → Q (blockLines s (s.typeHeader d omitPublic) [] body)

namespace Layout

variable {s : Style} {F : Filling → Prop} {P Q : List Line → Prop} (L : Layout s F P Q)

include L

theorem flatMap {α : Type} {f : α → List Line} {xs : List α} (h : ∀ x ∈ xs, P (f x)) :
    P (xs.flatMap f) := by
  induction xs with
  | nil => exact L.nil
  | cons x xs ih =>
    rw [List.flatMap_cons]
    exact L.append (h x (.head _)) (ih fun y hy => h y (.tail _ hy))

theorem attribute_if (present : Bool) {t : String} (ht : t ∈ ["@inlinable", "@discardableResult"])
    {ls : List Line} (h : Q ls) : Q ((if present then flat [t] else []) ++ ls) := by
  cases present with
  | true => exact L.append_plain (L.attributeLine t ht) (L.plain h)
  | false => exact h

theorem function {f : FunctionDecl} (h : ∀ x ∈ f.fillings s, F x) (omitPublic isStatic : Bool) :
    Q (functionLines s f omitPublic isStatic) := by
  obtain ⟨hcomment, -, -, -, -, -, hbody⟩ := (forall_mem_function_iff f).1 h
  have hblock := L.functionBlock h omitPublic isStatic
    (L.flatMap fun item hitem => L.bodyItem (hbody item hitem))
  have hattributes := L.attribute_if f.isInlinable (.head _)
    (L.attribute_if f.hasDiscardableResult (.tail _ (.head _)) hblock)
  simpa only [functionLines, blockLines, List.append_assoc] using L.commented hcomment hattributes

theorem functions {fs : List FunctionDecl} (h : ∀ f ∈ fs, ∀ x ∈ f.fillings s, F x)
    (omitPublic isStatic : Bool) : P (functionsLines s fs omitPublic isStatic) :=
  L.flatMap fun f hf => L.blank_cons (L.function (h f hf) omitPublic isStatic)

theorem «variable» {v : Variable} (h : ∀ x ∈ v.fillings s, F x) (omitPublic isStatic : Bool) :
    Q (variableLines s v omitPublic isStatic) :=
  L.commented ((forall_mem_variable_iff v).1 h).1 (L.variableLine h omitPublic isStatic)

/-- After a variable with a comment the next one has an empty line before it. -/
theorem variablesAfter {vs : List Variable} (h : ∀ v ∈ vs, ∀ x ∈ v.fillings s, F x)
    (isStatic afterComment : Bool) : P (variablesAfterLines s isStatic afterComment vs) := by
  induction vs generalizing afterComment with
  | nil => exact L.nil
  | cons v vs ih =>
    obtain ⟨hv, hrest⟩ := List.forall_mem_cons.1 h
    have hlines := L.variable hv false isStatic
    have hlater := ih hrest v.comment.isSome
    cases afterComment with
    | true => exact L.append (L.blank_cons hlines) hlater
    | false => exact L.append (L.plain hlines) hlater

theorem variableGroup {vs : List Variable} (h : ∀ v ∈ vs, ∀ x ∈ v.fillings s, F x)
    (isStatic : Bool) : P (variableGroupLines s vs isStatic) := by
  cases vs with
  | nil => exact L.nil
  | cons v vs =>
    obtain ⟨hv, hrest⟩ := List.forall_mem_cons.1 h
    exact L.blank_cons (L.append_plain (L.variable hv false isStatic)
      (L.variablesAfter hrest isStatic v.comment.isSome))

theorem aliasGroup {as : List TypeAlias} (h : ∀ a ∈ as, ∀ x ∈ a.fillings s, F x) :
    P (aliasGroupLines s as) := by
  cases as with
  | nil => exact L.nil
  | cons a as =>
    obtain ⟨ha, hrest⟩ := List.forall_mem_cons.1 h
    exact L.blank_cons (L.append_plain (L.typeAlias ha)
      (L.flatMap fun b hb => L.plain (L.typeAlias (hrest b hb))))

mutual
theorem typeDecl : ∀ (d : TypeDecl) (omitPublic : Bool),
    (∀ x ∈ d.fillings s, F x) → Q (typeDeclLines s d omitPublic)
  | ⟨name, kind, isPublic, conformances, comment, aliases, typeVariables, instanceVariables,
      nested, typeFunctions, fs⟩, omitPublic, h => by
    obtain ⟨hcomment, -, -, haliases, htypeVariables, hvariables, hnested, htypeFunctions,
      hfunctions⟩ := (forall_mem_typeDecl_iff _).1 h
    have hvars := L.append (L.append (L.aliasGroup haliases) (L.variableGroup htypeVariables true))
      (L.variableGroup hvariables false)
    have hmembers := L.append (L.append (L.append hvars (nestedTypes nested hnested))
      (L.functions htypeFunctions false true)) (L.functions hfunctions false false)
    simpa only [typeDeclLines, blockLines, List.append_assoc] using
      L.commented hcomment (L.typeBlock h omitPublic hmembers)

theorem nestedTypes : ∀ ds : List TypeDecl,
    (∀ d ∈ ds, ∀ x ∈ d.fillings s, F x) → P (nestedLines s ds)
  | [], _ => L.nil
  | d :: ds, h =>
    L.append (L.blank_cons (typeDecl d false (h d (.head _))))
      (nestedTypes ds fun e he => h e (.tail _ he))
end

theorem members {e : Extension} (h : ∀ x ∈ e.fillings s, F x) : P (memberLines s e) := by
  obtain ⟨-, -, -, -, htypes, hvariables, htypeFunctions, hfunctions⟩ :=
    (forall_mem_extension_iff e).1 h
  have htypeDecls : P (typeDeclsLines s e.typeDecls e.isPublic) :=
    L.flatMap fun d hd => L.blank_cons (L.typeDecl d e.isPublic (htypes d hd))
  exact L.append (L.append (L.append htypeDecls (L.variableGroup hvariables true))
    (L.functions htypeFunctions e.isPublic true)) (L.functions hfunctions e.isPublic false)

end Layout

end Emit
end SwiftDecl
