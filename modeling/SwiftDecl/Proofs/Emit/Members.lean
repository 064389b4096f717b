import SwiftDecl.Proofs.Emit.Outline

/-!
# SwiftDecl.Proofs.Emit.Members

What stands between the braces of an extension or of a type: the text of each member as it is
written alone, one level deeper, in a fixed order and with the blank lines that its kind has.

* `alone_of_writes` — what a writer adds to an empty buffer.
* `renderAll_extensionMembers`, `renderAll_typeMembers` — the lines of the members are these texts.
* `members_written_alone` — the text of an extension and of a type around them.
-/

namespace SwiftDecl
namespace Emit

open Line (flat blank deeper renderAll)

/-- What is written into an empty buffer at this depth. -/
def alone (i : Indent) (depth : Nat) (write : Buffer → Buffer) : String :=
  (write { style := i, depth }).text

/-- A blank line before each. -/
def spaced {α : Type} (text : α → String) (xs : List α) : String :=
  String.join (xs.map fun x => "\n" ++ text x)

/-- A blank line before all of them together. -/
def blockText {α : Type} (text : α → String) : List α → String
  | [] => ""
  | x :: xs => "\n" ++ String.join ((x :: xs).map text)

/-- A blank line before the first, and one more before each whose predecessor has a comment. -/
def groupText (text : Variable → String) : List Variable → String
  | [] => ""
  | v :: vs => "\n" ++ text v ++ String.join (List.zipWith
      (fun before v => (if before.comment.isSome then "\n" else "") ++ text v) (v :: vs) vs)

/-- The members of an extension, each written alone at this depth. -/
def extensionBody (s : Style) (i : Indent) (depth : Nat) (e : Extension) : String :=
  spaced (fun d => alone i depth (typeDecl s d e.isPublic)) e.typeDecls ++
  groupText (fun v => alone i depth (variableDecl s v false true)) e.typeVariables ++
  spaced (fun f => alone i depth (function s f e.isPublic true)) e.typeFunctions ++
  spaced (fun f => alone i depth (function s f e.isPublic false)) e.functions

/-- The members of a type, each written alone at this depth. -/
def typeBody (s : Style) (i : Indent) (depth : Nat) (d : TypeDecl) : String :=
  blockText (fun a => alone i depth (typeAlias s a)) d.aliases ++
  groupText (fun v => alone i depth (variableDecl s v false true)) d.typeVariables ++
  groupText (fun v => alone i depth (variableDecl s v false false)) d.instanceVariables ++
  spaced (fun n => alone i depth (typeDecl s n false)) d.nestedTypes ++
  spaced (fun f => alone i depth (function s f false true)) d.typeFunctions ++
  spaced (fun f => alone i depth (function s f false false)) d.functions

section

variable {i : Indent} {unit : String} {depth : Nat}

theorem alone_of_writes {write : Buffer → Buffer} {ls : List Line} (h : Writes write ls) :
    alone i depth write = renderAll i.unit depth ls := by
  rw [alone, h, Buffer.text_append, String.empty_append]

theorem renderAll_flatMap {α : Type} (lines : α → List Line) (xs : List α) :
    renderAll unit depth (xs.flatMap lines) =
      String.join (xs.map fun x => renderAll unit depth (lines x)) := by
  induction xs with
  | nil => rfl
  | cons x xs ih =>
    rw [List.flatMap_cons, Line.renderAll_append, ih, List.map_cons, String.join_cons]

theorem renderAll_blank_cons (ls : List Line) :
    renderAll unit depth (blank :: ls) = "\n" ++ renderAll unit depth ls := rfl

theorem renderAll_spaced {α : Type} (lines : α → List Line) (xs : List α) :
    renderAll unit depth (xs.flatMap fun x => blank :: lines x) =
      spaced (fun x => renderAll unit depth (lines x)) xs :=
  renderAll_flatMap (fun x => blank :: lines x) xs

/-- By induction on the variables that are left, with the one written last. -/
theorem renderAll_variablesAfter (s : Style) (isStatic : Bool) (last : Variable)
    (vs : List Variable) :
    renderAll unit depth (variablesAfterLines s isStatic last.comment.isSome vs) =
      String.join (List.zipWith (fun before v => (if before.comment.isSome then "\n" else "") ++
        renderAll unit depth (variableLines s v false isStatic)) (last :: vs) vs) := by
  induction vs generalizing last with
  | nil => rfl
  | cons v vs ih =>
    have hblank : renderAll unit depth (if last.comment.isSome then [blank] else []) =
        if last.comment.isSome then "\n" else "" := by
      split <;> rfl
    rw [variablesAfterLines, Line.renderAll_append, Line.renderAll_append, ih, hblank,
      List.zipWith_cons_cons, String.join_cons]

theorem renderAll_variableGroup (s : Style) (isStatic : Bool) (vs : List Variable) :
    renderAll unit depth (variableGroupLines s vs isStatic) =
      groupText (fun v => renderAll unit depth (variableLines s v false isStatic)) vs := by
  cases vs with
  | nil => rfl
  | cons v vs =>
    rw [variableGroupLines, if_neg (by simp), renderAll_blank_cons, variablesAfterLines,
      Line.renderAll_append, renderAll_variablesAfter, groupText, String.append_assoc]
    rfl

theorem renderAll_aliasGroup (s : Style) (as : List TypeAlias) :
    renderAll unit depth (aliasGroupLines s as) =
      blockText (fun a => renderAll unit depth (flat [s.typeAlias a])) as := by
  cases as with
  | nil => rfl
  | cons a as =>
    rw [aliasGroupLines, if_neg (by simp), renderAll_blank_cons, renderAll_flatMap, blockText]

theorem nestedLines_eq_flatMap (s : Style) (ds : List TypeDecl) :
    nestedLines s ds = ds.flatMap fun d => blank :: typeDeclLines s d false := by
  induction ds with
  | nil => rfl
  | cons d ds ih => rw [nestedLines, ih, List.flatMap_cons]

theorem renderAll_extensionMembers (s : Style) (e : Extension) :
    renderAll i.unit depth (memberLines s e) = extensionBody s i depth e := by
  simp only [memberLines, typeDeclsLines, functionsLines, Line.renderAll_append, renderAll_spaced,
    renderAll_variableGroup, extensionBody, alone_of_writes (writes_typeDecl s _ _),
    alone_of_writes (writes_variableDecl s _ _ _), alone_of_writes (writes_function s _ _ _)]

/-- The lines between the braces of a type. -/
def typeMemberLines (s : Style) (d : TypeDecl) : List Line :=
  aliasGroupLines s d.aliases ++ variableGroupLines s d.typeVariables true ++
  variableGroupLines s d.instanceVariables false ++ nestedLines s d.nestedTypes ++
  functionsLines s d.typeFunctions false true ++ functionsLines s d.functions false false

theorem renderAll_typeMembers (s : Style) (d : TypeDecl) :
    renderAll i.unit depth (typeMemberLines s d) = typeBody s i depth d := by
  have halias : ∀ a, Writes (typeAlias s a) (flat [s.typeAlias a]) := fun a => writes_writeln _
  simp only [typeMemberLines, functionsLines, nestedLines_eq_flatMap, Line.renderAll_append,
    renderAll_spaced, renderAll_variableGroup, renderAll_aliasGroup, typeBody,
    alone_of_writes (halias _), alone_of_writes (writes_typeDecl s _ _),
    alone_of_writes (writes_variableDecl s _ _ _), alone_of_writes (writes_function s _ _ _)]

/-! ## Around the members -/

/-- The last line of the beginning of a block is that of its brace. -/
theorem openBlockLines_eq_concat (s : Style) (header : String) (cs : List GenericConstraint) :
    ∃ ls t, openBlockLines s header cs = ls ++ flat [t ++ "\x7b"] := by
  unfold openBlockLines
  split
  · refine ⟨[], header ++ " ", ?_⟩
    rw [String.append_assoc]
    rfl
  · exact ⟨flat [header] ++ deeper (flat [s.whereClause cs]), "", rfl⟩

theorem exists_renderAll_openBlock (unit : String) (depth : Nat) (above : List Line) (s : Style)
    (header : String) (cs : List GenericConstraint) : ∃ opening,
      renderAll unit depth (above ++ openBlockLines s header cs) = opening ++ "\x7b\n" := by
  obtain ⟨ls, t, h⟩ := openBlockLines_eq_concat s header cs
  refine ⟨renderAll unit depth (above ++ ls) ++ (Buffer.indentation unit depth ++ t), ?_⟩
  have hlast : renderAll unit depth (flat [t ++ "\x7b"]) =
      Buffer.indentation unit depth ++ t ++ "\x7b\n" := by
    simp [flat, renderAll, Line.render, String.append_assoc]
  rw [h, ← List.append_assoc, Line.renderAll_append, hlast]
  exact String.append_assoc.symm

theorem renderAll_closeBlock :
    renderAll unit depth (flat ["\x7d"]) = Buffer.indentation unit depth ++ "\x7d\n" := by
  simp [flat, renderAll, Line.render, String.append_assoc]

theorem typeDeclLines_eq_members (s : Style) (d : TypeDecl) (omitPublic : Bool) :
    typeDeclLines s d omitPublic = commentLines d.comment ++
      openBlockLines s (s.typeHeader d omitPublic) [] ++ deeper (typeMemberLines s d) ++
      flat ["\x7d"] := by
  cases d with
  | mk => rfl

end

/-- An extension is its gates and its header, up to the line with the brace, then every member as
it is written alone one level deeper, then the closing brace and what closes the gates. A type is
its comment and its header, its members, and the closing brace. -/
theorem members_written_alone (s : Style) :
    (∀ (e : Extension) (b : Buffer), (∀ v, e.minimumVersion = some v → 5 ≤ v.major) →
      ∃ opening,
        alone b.style b.depth
          (fun b => openBlock s (s.extensionHeader e) e.constraints (openGates e b)) =
          opening ++ "\x7b\n" ∧
        extension s e b = .ok (b.appendEolIfMissing.append (opening ++ "\x7b\n" ++
          extensionBody s b.style (b.depth + 1) e ++
          (Buffer.indentation b.style.unit b.depth ++ "\x7d\n") ++
          alone b.style b.depth (closeGates e)))) ∧
    ∀ (d : TypeDecl) (omitPublic : Bool) (b : Buffer), ∃ opening,
      alone b.style b.depth
        (fun b => openBlock s (s.typeHeader d omitPublic) [] (optionalComment d.comment b)) =
        opening ++ "\x7b\n" ∧
      typeDecl s d omitPublic b = b.append (opening ++ "\x7b\n" ++
        typeBody s b.style (b.depth + 1) d ++
        (Buffer.indentation b.style.unit b.depth ++ "\x7d\n")) := by
  constructor
  · intro e b he
    obtain ⟨opening, hopening⟩ := exists_renderAll_openBlock b.style.unit b.depth
      (openGateLines e) s (s.extensionHeader e) e.constraints
    have hopens := (writes_openGates e).comp
      (writes_openBlock s e.constraints (extensionHeader_isEmpty s e))
    refine ⟨opening, by rw [alone_of_writes hopens, hopening], ?_⟩
    rw [extension_eq s b he, writes_gatedExtension s e, extensionLines,
      alone_of_writes (writes_closeGates e)]
    simp only [style_appendEolIfMissing, depth_appendEolIfMissing, Line.renderAll_append,
      ← hopening, Line.renderAll_deeper, renderAll_extensionMembers, renderAll_closeBlock]
  · intro d omitPublic b
    obtain ⟨opening, hopening⟩ := exists_renderAll_openBlock b.style.unit b.depth
      (commentLines d.comment) s (s.typeHeader d omitPublic) []
    have hopens := (writes_comment d.comment).comp
      (writes_openBlock s [] (typeHeader_isEmpty s d omitPublic))
    refine ⟨opening, by rw [alone_of_writes hopens, hopening], ?_⟩
    rw [writes_typeDecl s d omitPublic b, typeDeclLines_eq_members]
    simp only [Line.renderAll_append, ← hopening, Line.renderAll_deeper, renderAll_typeMembers,
      renderAll_closeBlock]

/-- An extension with members of each kind, and in it a type with members of each kind. It is
public, and so is one function of it, one of the type, and the type. -/
def crowdedExtension : Extension where
  extendedType := .named "A"
  isPublic := true
  minimumVersion := some ⟨5, 9⟩
  typeDecls := [{
    name := "B"
    isPublic := true
    aliases := [{ name := "T", type := .named "Int" }, { name := "U", type := .named "T" }]
    typeVariables := [{ name := "c" }]
    instanceVariables := [
      { name := "d", isReadonly := false, comment := some "Two\nlines." },
      { name := "e", isPublic := true }]
    nestedTypes := [{ name := "C", kind := .enum, functions := [{ name := "f" }] }]
    typeFunctions := [{ name := "g", body := ["h()", "i()"] }]
    functions := [{ name := "h", isPublic := true }] }]
  typeVariables := [{ name := "a", comment := some "First." }, { name := "b" }]
  typeFunctions := [{ name := "j", isPublic := true }]
  functions := [{ name := "k", body := ["j()"] }]

theorem members_written_alone_crowded :
    extension {} crowdedExtension ⟨.tab, 1, ""⟩ = .ok ⟨.tab, 1,
      "\t#if swift(>=5.9)\n\tpublic extension A \x7b\n" ++
      ("\n\t\tstruct B \x7b\n" ++
        ("\n\t\t\ttypealias T = Int\n\t\t\ttypealias U = T\n" ++
          "\n\t\t\tstatic let c\n" ++
          "\n\t\t\t/// Two\n\t\t\t/// lines.\n\t\t\tvar d\n\n\t\t\tpublic let e\n" ++
          "\n\t\t\tenum C \x7b\n\n\t\t\t\tfunc f() \x7b\n\t\t\t\t\x7d\n\t\t\t\x7d\n" ++
          "\n\t\t\tstatic func g() \x7b\n\t\t\t\th()\n\t\t\t\ti()\n\t\t\t\x7d\n" ++
          "\n\t\t\tpublic func h() \x7b\n\t\t\t\x7d\n") ++ "\t\t\x7d\n" ++
        "\n\t\t/// First.\n\t\tstatic let a\n\n\t\tstatic let b\n" ++
        "\n\t\tstatic func j() \x7b\n\t\t\x7d\n" ++
        "\n\t\tfunc k() \x7b\n\t\t\tj()\n\t\t\x7d\n") ++
      "\t\x7d\n\t#endif // swift(>=5.9)\n"⟩ := by
  obtain ⟨opening, hopening, htext⟩ := (members_written_alone {}).1 crowdedExtension ⟨.tab, 1, ""⟩
    (by simp [crowdedExtension])
  rw [htext, ← hopening]
  refine congrArg (fun text => Except.ok (Buffer.mk .tab 1 text)) ?_
  decide +kernel

end Emit
end SwiftDecl
