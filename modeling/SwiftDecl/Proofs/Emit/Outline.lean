import SwiftDecl.Emit.Toplevel
import SwiftDecl.Proofs.Emit.Lines

/-!
# SwiftDecl.Proofs.Emit.Outline

The lines of every kind of declaration, computed without a buffer, and the proof that the writers
add exactly these.

* `writes_function`, `writes_typeDecl`, `writes_gatedExtension` — the writers, one by one.
* `declaration_eq` — a declaration at the start of a line.
-/

namespace SwiftDecl
namespace Emit

open Line (flat blank deeper)

def commentLines : Option String → List Line
  | none => []
  | some text => flat ((Text.lines text).map commentLine)

def bodyItemLines (item : String) : List Line :=
  if item.isEmpty then [blank] else flat (Text.lines item)

def functionLines (s : Style) (f : FunctionDecl) (omitPublic isStatic : Bool) : List Line :=
  commentLines f.comment ++
  (if f.isInlinable then flat ["@inlinable"] else []) ++
  (if f.hasDiscardableResult then flat ["@discardableResult"] else []) ++
  openBlockLines s (s.signature f omitPublic isStatic) f.constraints ++
  deeper (f.body.flatMap bodyItemLines) ++ flat ["\x7d"]

def functionsLines (s : Style) (fs : List FunctionDecl) (omitPublic isStatic : Bool) :
    List Line :=
  fs.flatMap fun f => blank :: functionLines s f omitPublic isStatic

def variableLines (s : Style) (v : Variable) (omitPublic isStatic : Bool) : List Line :=
  commentLines v.comment ++ flat [s.variableLine v omitPublic isStatic]

def variablesAfterLines (s : Style) (isStatic afterComment : Bool) : List Variable → List Line
  | [] => []
  | v :: vs =>
    (if afterComment then [blank] else []) ++ variableLines s v false isStatic ++
    variablesAfterLines s isStatic v.comment.isSome vs

def variableGroupLines (s : Style) (vs : List Variable) (isStatic : Bool) : List Line :=
  if vs.isEmpty then [] else blank :: variablesAfterLines s isStatic false vs

def aliasGroupLines (s : Style) (as : List TypeAlias) : List Line :=
  if as.isEmpty then [] else blank :: as.flatMap fun a => flat [s.typeAlias a]

mutual
def typeDeclLines (s : Style) : TypeDecl → Bool → List Line
  | d@⟨_, _, _, _, _, _, _, _, nested, _, _⟩, omitPublic =>
    commentLines d.comment ++ openBlockLines s (s.typeHeader d omitPublic) [] ++
    deeper (aliasGroupLines s d.aliases ++
      variableGroupLines s d.typeVariables true ++
      variableGroupLines s d.instanceVariables false ++
      nestedLines s nested ++
      functionsLines s d.typeFunctions false true ++
      functionsLines s d.functions false false) ++
    flat ["\x7d"]

def nestedLines (s : Style) : List TypeDecl → List Line
  | [] => []
  | d :: ds => (blank :: typeDeclLines s d false) ++ nestedLines s ds
end

def typeDeclsLines (s : Style) (ds : List TypeDecl) (omitPublic : Bool) : List Line :=
  ds.flatMap fun d => blank :: typeDeclLines s d omitPublic

def memberLines (s : Style) (e : Extension) : List Line :=
  typeDeclsLines s e.typeDecls e.isPublic ++ variableGroupLines s e.typeVariables true ++
  functionsLines s e.typeFunctions e.isPublic true ++ functionsLines s e.functions e.isPublic false

def openGateLines (e : Extension) : List Line :=
  (match e.minimumVersion with
    | none => []
    | some v => flat ["#if swift(>=" ++ v.display ++ ")"]) ++
  (if e.requiredImports.isEmpty then [] else flat ["#if " ++ importChecks e.requiredImports]) ++
  (if e.requiredImports.contains concurrencyModule then flat [concurrencyAvailability] else [])

def closeGateLines (e : Extension) : List Line :=
  (if !e.requiredImports.isEmpty then flat ["#endif // required canImports"] else []) ++
  (match e.minimumVersion with
    | none => []
    | some v => flat ["#endif // swift(>=" ++ v.display ++ ")"])

def extensionLines (s : Style) (e : Extension) : List Line :=
  openGateLines e ++ openBlockLines s (s.extensionHeader e) e.constraints ++
  deeper (memberLines s e) ++ flat ["\x7d"] ++ closeGateLines e

def declarationLines (s : Style) : Declaration → List Line
  | .extension e => extensionLines s e
  | .type d => typeDeclLines s d false
  | .function f => functionLines s f false false
  | .variable v => variableLines s v false false
  | .constraint _ => []

theorem writes_comment (c : Option String) : Writes (optionalComment c) (commentLines c) := by
  cases c with
  | none => exact writes_id
  | some text => exact writes_writeLines _

theorem writes_bodyItem (item : String) : Writes (bodyItem item) (bodyItemLines item) := by
  unfold bodyItem bodyItemLines
  split
  · exact writes_blank
  · exact writes_writeLines _

theorem signature_isEmpty (s : Style) (f : FunctionDecl) (omitPublic isStatic : Bool) :
    (s.signature f omitPublic isStatic).isEmpty = false := by
  simp [Style.signature, String.isEmpty_eq_false_iff]

theorem typeHeader_isEmpty (s : Style) (d : TypeDecl) (omitPublic : Bool) :
    (s.typeHeader d omitPublic).isEmpty = false := by
  simp [Style.typeHeader, String.isEmpty_eq_false_iff]

theorem extensionHeader_isEmpty (s : Style) (e : Extension) :
    (s.extensionHeader e).isEmpty = false := by
  simp [Style.extensionHeader, String.isEmpty_eq_false_iff]

theorem writes_function (s : Style) (f : FunctionDecl) (omitPublic isStatic : Bool) :
    Writes (function s f omitPublic isStatic) (functionLines s f omitPublic isStatic) :=
  (((((writes_comment _).comp (writes_writelnIf _ _)).comp (writes_writelnIf _ _)).comp
    (writes_openBlock s _ (signature_isEmpty s f omitPublic isStatic))).comp
    (writes_foldl writes_bodyItem _).indented).comp (writes_writeln _)

theorem writes_functions (s : Style) (fs : List FunctionDecl) (omitPublic isStatic : Bool) :
    Writes (functions s fs omitPublic isStatic) (functionsLines s fs omitPublic isStatic) :=
  writes_foldl (fun f => writes_blank.comp (writes_function s f omitPublic isStatic)) fs

theorem writes_variableDecl (s : Style) (v : Variable) (omitPublic isStatic : Bool) :
    Writes (variableDecl s v omitPublic isStatic) (variableLines s v omitPublic isStatic) :=
  (writes_comment _).comp (writes_writeln _)

theorem writes_variablesAfter (s : Style) (isStatic afterComment : Bool) (vs : List Variable) :
    Writes (variablesAfter s isStatic afterComment vs)
      (variablesAfterLines s isStatic afterComment vs) := by
  induction vs generalizing afterComment with
  | nil => exact writes_id
  | cons v vs ih =>
    have hv := writes_variableDecl s v false isStatic
    cases afterComment with
    | false => exact hv.comp (ih _)
    | true => exact (writes_blank.comp hv).comp (ih _)

theorem writes_variableGroup (s : Style) (vs : List Variable) (isStatic : Bool) :
    Writes (variableGroup s vs isStatic) (variableGroupLines s vs isStatic) := by
  cases vs with
  | nil => exact writes_id
  | cons v vs => exact writes_blank.comp (writes_variablesAfter s isStatic false (v :: vs))

theorem writes_aliasGroup (s : Style) (as : List TypeAlias) :
    Writes (aliasGroup s as) (aliasGroupLines s as) := by
  cases as with
  | nil => exact writes_id
  | cons a as =>
    have h := writes_foldl (fun a => writes_writeln (s.typeAlias a)) (a :: as)
    exact writes_blank.comp h

mutual
theorem writes_typeDecl (s : Style) : ∀ (d : TypeDecl) (omitPublic : Bool),
    Writes (typeDecl s d omitPublic) (typeDeclLines s d omitPublic)
  | ⟨name, kind, isPublic, conformances, comment, aliases, typeVariables, instanceVariables,
      nested, typeFunctions, fs⟩, omitPublic => by
    have hopen := (writes_comment comment).comp (writes_openBlock s [] (typeHeader_isEmpty s
      ⟨name, kind, isPublic, conformances, comment, aliases, typeVariables, instanceVariables,
        nested, typeFunctions, fs⟩ omitPublic))
    have hvars := ((writes_aliasGroup s aliases).comp
      (writes_variableGroup s typeVariables true)).comp
      (writes_variableGroup s instanceVariables false)
    have hmembers := ((hvars.comp (writes_nestedTypes s nested)).comp
      (writes_functions s typeFunctions false true)).comp (writes_functions s fs false false)
    exact (hopen.comp hmembers.indented).comp (writes_writeln "\x7d")

theorem writes_nestedTypes (s : Style) :
    ∀ ds : List TypeDecl, Writes (nestedTypes s ds) (nestedLines s ds)
  | [] => writes_id
  | d :: ds => (writes_blank.comp (writes_typeDecl s d false)).comp (writes_nestedTypes s ds)
end

theorem writes_typeDecls (s : Style) (ds : List TypeDecl) (omitPublic : Bool) :
    Writes (typeDecls s ds omitPublic) (typeDeclsLines s ds omitPublic) :=
  writes_foldl (fun d => writes_blank.comp (writes_typeDecl s d omitPublic)) ds

theorem writes_members (s : Style) (e : Extension) : Writes (members s e) (memberLines s e) :=
  (((writes_typeDecls s e.typeDecls e.isPublic).comp
    (writes_variableGroup s e.typeVariables true)).comp
    (writes_functions s e.typeFunctions e.isPublic true)).comp
    (writes_functions s e.functions e.isPublic false)

/-- A line that is written only for a version. -/
theorem writes_versionLine (text : SwiftVersion → String) (version : Option SwiftVersion) :
    Writes (fun b => match version with | none => b | some v => b.writeln (text v))
      (match version with | none => [] | some v => flat [text v]) := by
  cases version with
  | none => exact writes_id
  | some v => exact writes_writeln _

theorem writes_openGates (e : Extension) : Writes (openGates e) (openGateLines e) := by
  have hversion :=
    writes_versionLine (fun v => "#if swift(>=" ++ v.display ++ ")") e.minimumVersion
  have himports : Writes
      (fun b => if e.requiredImports.isEmpty then b
        else b.writeln ("#if " ++ importChecks e.requiredImports))
      (if e.requiredImports.isEmpty then []
        else flat ["#if " ++ importChecks e.requiredImports]) := by
    split
    · exact writes_id
    · exact writes_writeln _
  exact (hversion.comp himports).comp (writes_writelnIf _ _)

theorem writes_closeGates (e : Extension) : Writes (closeGates e) (closeGateLines e) := by
  have hversion :=
    writes_versionLine (fun v => "#endif // swift(>=" ++ v.display ++ ")") e.minimumVersion
  exact (writes_writelnIf _ _).comp hversion

theorem writes_gatedExtension (s : Style) (e : Extension) :
    Writes (gatedExtension s e) (extensionLines s e) :=
  ((((writes_openGates e).comp
    (writes_openBlock s e.constraints (extensionHeader_isEmpty s e))).comp
    (writes_members s e).indented).comp (writes_writeln _)).comp (writes_closeGates e)

/-- The version that is asked for, if any, can be gated. -/
def Gateable : Declaration → Prop
  | .extension e => ∀ v, e.minimumVersion = some v → 5 ≤ v.major
  | _ => True

theorem appendEolIfMissing_of_atLineStart {b : Buffer} (h : b.atLineStart = true) :
    b.appendEolIfMissing = b := by
  rw [Buffer.appendEolIfMissing, if_pos h]

@[simp] theorem style_appendEolIfMissing (b : Buffer) : b.appendEolIfMissing.style = b.style := by
  unfold Buffer.appendEolIfMissing
  split <;> rfl

@[simp] theorem depth_appendEolIfMissing (b : Buffer) : b.appendEolIfMissing.depth = b.depth := by
  unfold Buffer.appendEolIfMissing
  split <;> rfl

theorem isTooOld_eq_false {v : SwiftVersion} (h : 5 ≤ v.major) : isTooOld v = false :=
  decide_eq_false (UInt32.not_lt.2 h)

theorem extension_eq (s : Style) {e : Extension} (b : Buffer)
    (he : ∀ v, e.minimumVersion = some v → 5 ≤ v.major) :
    extension s e b = .ok (gatedExtension s e b.appendEolIfMissing) := by
  rw [extension]
  cases hv : e.minimumVersion with
  | none => rfl
  | some v =>
    have hnew := isTooOld_eq_false (he v hv)
    simp only [hnew, Bool.false_eq_true, if_false]

theorem declaration_eq (s : Style) {d : Declaration} {b : Buffer} (hd : Gateable d)
    (hb : b.atLineStart = true) :
    declaration s d b =
      .ok (b.append (Line.renderAll b.style.unit b.depth (declarationLines s d))) := by
  have hmissing := appendEolIfMissing_of_atLineStart hb
  cases d with
  | extension e =>
    rw [declaration, extension_eq s b hd, hmissing, writes_gatedExtension s e b]
    rfl
  | type d =>
    rw [declaration, hmissing, writes_typeDecl s d false b]
    rfl
  | function f =>
    rw [declaration, hmissing, writes_function s f false false b]
    rfl
  | «variable» v =>
    rw [declaration, hmissing, writes_variableDecl s v false false b]
    rfl
  | constraint c => exact congrArg _ b.append_empty.symm

/-! ## Independence of the style of indentation -/

theorem variablesAfterLines_indent (s : Style) (i : Indent) (isStatic afterComment : Bool)
    (vs : List Variable) : variablesAfterLines { s with indent := i } isStatic afterComment vs =
      variablesAfterLines s isStatic afterComment vs := by
  induction vs generalizing afterComment with
  | nil => rfl
  | cons v vs ih =>
    rw [variablesAfterLines, variablesAfterLines, ih]
    rfl

theorem variableGroupLines_indent (s : Style) (i : Indent) (vs : List Variable)
    (isStatic : Bool) :
    variableGroupLines { s with indent := i } vs isStatic = variableGroupLines s vs isStatic := by
  rw [variableGroupLines, variableGroupLines, variablesAfterLines_indent]

mutual
theorem typeDeclLines_indent (s : Style) (i : Indent) : ∀ (d : TypeDecl) (omitPublic : Bool),
    typeDeclLines { s with indent := i } d omitPublic = typeDeclLines s d omitPublic
  | ⟨name, kind, isPublic, conformances, comment, aliases, typeVariables, instanceVariables,
      nested, typeFunctions, fs⟩, omitPublic => by
    rw [typeDeclLines, typeDeclLines, nestedLines_indent s i nested,
      variableGroupLines_indent s i typeVariables, variableGroupLines_indent s i instanceVariables]
    rfl

theorem nestedLines_indent (s : Style) (i : Indent) : ∀ ds : List TypeDecl,
    nestedLines { s with indent := i } ds = nestedLines s ds
  | [] => rfl
  | d :: ds => by
    rw [nestedLines, nestedLines, typeDeclLines_indent s i d, nestedLines_indent s i ds]
end

theorem declarationLines_indent (s : Style) (i : Indent) (d : Declaration) :
    declarationLines { s with indent := i } d = declarationLines s d := by
  cases d with
  | extension e =>
    have htypes : typeDeclsLines { s with indent := i } e.typeDecls e.isPublic =
        typeDeclsLines s e.typeDecls e.isPublic := by
      simp only [typeDeclsLines, typeDeclLines_indent]
    rw [declarationLines, declarationLines, extensionLines, extensionLines, memberLines,
      memberLines, htypes, variableGroupLines_indent s i]
    rfl
  | type d => exact typeDeclLines_indent s i d false
  | function f => rfl
  | «variable» v => rfl
  | constraint c => rfl

/-- What a declaration adds to a buffer is the sequence of its lines, each at a fixed depth below
that of the buffer. The style of indentation, the depth and the text before it have no part in
that sequence: a line shows them only by its indentation, an empty line not at all. -/
theorem declaration_lines (s : Style) (d : Declaration) (hd : Gateable d) :
    ∀ (i : Indent) (n : Nat) (text : String),
      (text.toList = [] ∨ text.toList.getLast? = some '\n') →
      declaration { s with indent := i } d ⟨i, n, text⟩ =
        .ok ⟨i, n, text ++ String.join ((declarationLines s d).map fun l =>
          if l.text = "" then "\n"
          else String.join (List.replicate (n + l.depth) i.unit) ++ l.text ++ "\n")⟩ := by
  intro i n text ht
  have hb : (⟨i, n, text⟩ : Buffer).atLineStart = true := by
    rcases ht with ht | ht <;> simp [Buffer.atLineStart, ht]
  rw [declaration_eq _ hd hb, declarationLines_indent, Line.renderAll_eq_join]
  rfl

/-- An extension with a gate around it and a body with an empty line. -/
def gatedFunction : Declaration :=
  .extension {
    extendedType := .named "A"
    minimumVersion := some ⟨5, 5⟩
    functions := [{ name := "f", body := ["g()", "", "h()"] }] }

theorem declaration_lines_gated :
    declaration { indent := .tab } gatedFunction ⟨.tab, 1, "import B\n"⟩ =
      .ok ⟨.tab, 1, "import B\n" ++
        "\t#if swift(>=5.5)\n\textension A \x7b\n\n\t\tfunc f() \x7b\n" ++
        "\t\t\tg()\n\n\t\t\th()\n\t\t\x7d\n\t\x7d\n\t#endif // swift(>=5.5)\n"⟩ ∧
    declaration { indent := .spaces 4 } gatedFunction ⟨.spaces 4, 0, ""⟩ =
      .ok ⟨.spaces 4, 0,
        "#if swift(>=5.5)\nextension A \x7b\n\n    func f() \x7b\n" ++
        "        g()\n\n        h()\n    \x7d\n\x7d\n#endif // swift(>=5.5)\n"⟩ := by
  have hlines := declaration_lines {} gatedFunction (by intro v hv; cases hv; decide)
  constructor
  · rw [hlines .tab 1 "import B\n" (.inr (by decide))]
    rfl
  · rw [hlines (.spaces 4) 0 "" (.inl rfl)]
    rfl

end Emit
end SwiftDecl
