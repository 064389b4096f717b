import SwiftDecl.Proofs.Emit.Outline
import SwiftDecl.Proofs.Model.Parts

/-!
# SwiftDecl.Proofs.Emit.Fillings

The texts that a declaration brings into its source: names and types as the style spells them,
labels, imports and values within a line, and comments and bodies that have lines of their own. All
else in the source comes from the separators of the style and from a fixed stock of words and marks.

* `forall_mem_function_iff`, `forall_mem_variable_iff` and so on — what holds of all fillings,
  part by part.
* `lacks_signature`, `lacks_extensionHeader` and so on — a text that fits into one line has none of
  certain marks of the structure in it if its fillings have none of them.
-/

namespace SwiftDecl

inductive Filling where
  /-- It stands within a line. -/
  | inline (text : String)
  | comment (text : String)
  | body (item : String)

/-- The filling of a part that may be absent. -/
def Filling.given {α : Type} (item : Option α) (f : α → Filling) : List Filling :=
  item.toList.map f

section

variable (s : Style)

def GenericConstraint.fillings (c : GenericConstraint) : List Filling :=
  [.inline (s.identifier c.name), .inline (s.type c.type)]

def Parameter.fillings (p : Parameter) : List Filling :=
  Filling.given p.label .inline ++ [.inline (s.identifier p.name), .inline (s.type p.type)] ++
  Filling.given p.defaultValue fun e => .inline e.swift

def FunctionDecl.fillings (f : FunctionDecl) : List Filling :=
  Filling.given f.comment .comment ++ [.inline (s.identifier f.name)] ++
  f.genericParameters.map .inline ++ f.parameters.flatMap (Parameter.fillings s) ++
  Filling.given f.returnType (fun t => .inline (s.type t)) ++
  f.constraints.flatMap (GenericConstraint.fillings s) ++ f.body.map .body

def Variable.fillings (v : Variable) : List Filling :=
  Filling.given v.comment .comment ++ [.inline (s.identifier v.name)] ++
  Filling.given v.type (fun t => .inline (s.type t)) ++
  Filling.given v.value fun e => .inline e.swift

def TypeAlias.fillings (a : TypeAlias) : List Filling :=
  [.inline (s.identifier a.name), .inline (s.type a.type)]

mutual
def TypeDecl.fillings : TypeDecl → List Filling
  | ⟨name, _, _, conformances, comment, aliases, typeVariables, instanceVariables, nested,
      typeFunctions, functions⟩ =>
    Filling.given comment .comment ++ [.inline (s.identifier name)] ++
    conformances.map (fun t => .inline (s.type t)) ++ aliases.flatMap (TypeAlias.fillings s) ++
    typeVariables.flatMap (Variable.fillings s) ++
    instanceVariables.flatMap (Variable.fillings s) ++ TypeDecl.fillingsOfEach nested ++
    typeFunctions.flatMap (FunctionDecl.fillings s) ++ functions.flatMap (FunctionDecl.fillings s)

def TypeDecl.fillingsOfEach : List TypeDecl → List Filling
  | [] => []
  | d :: ds => d.fillings ++ TypeDecl.fillingsOfEach ds
end

def Extension.fillings (e : Extension) : List Filling :=
  [.inline (s.type e.extendedType)] ++ e.conformances.map (fun t => .inline (s.type t)) ++
  e.constraints.flatMap (GenericConstraint.fillings s) ++ e.requiredImports.map .inline ++
  TypeDecl.fillingsOfEach s e.typeDecls ++ e.typeVariables.flatMap (Variable.fillings s) ++
  e.typeFunctions.flatMap (FunctionDecl.fillings s) ++ e.functions.flatMap (FunctionDecl.fillings s)

/-- A constraint by itself brings nothing into the source. -/
def Declaration.fillings : Declaration → List Filling
  | .extension e => e.fillings s
  | .type d => d.fillings s
  | .function f => f.fillings s
  | .variable v => v.fillings s
  | .constraint _ => []

variable {s} {P : Filling → Prop}

theorem forall_mem_given_iff {α : Type} (item : Option α) (f : α → Filling) :
    (∀ x ∈ Filling.given item f, P x) ↔ ∀ a ∈ item, P (f a) := by
  cases item <;> simp [Filling.given]

theorem forall_mem_pair_iff (a b : Filling) : (∀ x ∈ [a, b], P x) ↔ P a ∧ P b := by
  rw [List.forall_mem_cons, List.forall_mem_singleton]

theorem forall_mem_constraint_iff (c : GenericConstraint) : (∀ x ∈ c.fillings s, P x) ↔
    P (.inline (s.identifier c.name)) ∧ P (.inline (s.type c.type)) :=
  forall_mem_pair_iff _ _

theorem forall_mem_alias_iff (a : TypeAlias) : (∀ x ∈ a.fillings s, P x) ↔
    P (.inline (s.identifier a.name)) ∧ P (.inline (s.type a.type)) :=
  forall_mem_pair_iff _ _

theorem forall_mem_parameter_iff (p : Parameter) : (∀ x ∈ p.fillings s, P x) ↔
    (∀ l ∈ p.label, P (.inline l)) ∧ P (.inline (s.identifier p.name)) ∧
    P (.inline (s.type p.type)) ∧ ∀ e ∈ p.defaultValue, P (.inline e.swift) := by
  simp only [Parameter.fillings, List.forall_mem_append, forall_mem_pair_iff,
    forall_mem_given_iff, and_assoc]

theorem forall_mem_function_iff (f : FunctionDecl) : (∀ x ∈ f.fillings s, P x) ↔
    (∀ c ∈ f.comment, P (.comment c)) ∧ P (.inline (s.identifier f.name)) ∧
    (∀ g ∈ f.genericParameters, P (.inline g)) ∧
    (∀ p ∈ f.parameters, ∀ x ∈ p.fillings s, P x) ∧
    (∀ t ∈ f.returnType, P (.inline (s.type t))) ∧
    (∀ c ∈ f.constraints, ∀ x ∈ c.fillings s, P x) ∧ ∀ i ∈ f.body, P (.body i) := by
  simp only [FunctionDecl.fillings, List.forall_mem_append, List.forall_mem_map,
    List.forall_mem_flatMap, List.forall_mem_singleton, forall_mem_given_iff, and_assoc]

theorem forall_mem_variable_iff (v : Variable) : (∀ x ∈ v.fillings s, P x) ↔
    (∀ c ∈ v.comment, P (.comment c)) ∧ P (.inline (s.identifier v.name)) ∧
    (∀ t ∈ v.type, P (.inline (s.type t))) ∧ ∀ e ∈ v.value, P (.inline e.swift) := by
  simp only [Variable.fillings, List.forall_mem_append, List.forall_mem_singleton,
    forall_mem_given_iff, and_assoc]

theorem forall_mem_fillingsOfEach_iff (ds : List TypeDecl) :
    (∀ x ∈ TypeDecl.fillingsOfEach s ds, P x) ↔ ∀ d ∈ ds, ∀ x ∈ d.fillings s, P x := by
  induction ds with
  | nil => simp [TypeDecl.fillingsOfEach]
  | cons d ds ih =>
    rw [TypeDecl.fillingsOfEach, List.forall_mem_append, ih, List.forall_mem_cons]

theorem forall_mem_typeDecl_iff (d : TypeDecl) : (∀ x ∈ d.fillings s, P x) ↔
    (∀ c ∈ d.comment, P (.comment c)) ∧ P (.inline (s.identifier d.name)) ∧
    (∀ t ∈ d.conformances, P (.inline (s.type t))) ∧
    (∀ a ∈ d.aliases, ∀ x ∈ a.fillings s, P x) ∧
    (∀ v ∈ d.typeVariables, ∀ x ∈ v.fillings s, P x) ∧
    (∀ v ∈ d.instanceVariables, ∀ x ∈ v.fillings s, P x) ∧
    (∀ n ∈ d.nestedTypes, ∀ x ∈ n.fillings s, P x) ∧
    (∀ f ∈ d.typeFunctions, ∀ x ∈ f.fillings s, P x) ∧
    ∀ f ∈ d.functions, ∀ x ∈ f.fillings s, P x := by
  cases d with
  | mk =>
    simp only [TypeDecl.fillings, List.forall_mem_append, List.forall_mem_map,
      List.forall_mem_flatMap, List.forall_mem_singleton, forall_mem_given_iff,
      forall_mem_fillingsOfEach_iff, and_assoc]

theorem forall_mem_extension_iff (e : Extension) : (∀ x ∈ e.fillings s, P x) ↔
    P (.inline (s.type e.extendedType)) ∧ (∀ t ∈ e.conformances, P (.inline (s.type t))) ∧
    (∀ c ∈ e.constraints, ∀ x ∈ c.fillings s, P x) ∧
    (∀ i ∈ e.requiredImports, P (.inline i)) ∧
    (∀ d ∈ e.typeDecls, ∀ x ∈ d.fillings s, P x) ∧
    (∀ v ∈ e.typeVariables, ∀ x ∈ v.fillings s, P x) ∧
    (∀ f ∈ e.typeFunctions, ∀ x ∈ f.fillings s, P x) ∧
    ∀ f ∈ e.functions, ∀ x ∈ f.fillings s, P x := by
  simp only [Extension.fillings, List.forall_mem_append, List.forall_mem_map,
    List.forall_mem_flatMap, List.forall_mem_singleton, forall_mem_fillingsOfEach_iff, and_assoc]

end

/-- None of the characters is in the text. -/
def Lacks (cs : List Char) (text : String) : Prop := ∀ c ∈ cs, c ∉ text.toList

instance (cs : List Char) (text : String) : Decidable (Lacks cs text) :=
  List.decidableBAll (fun c => c ∉ text.toList) cs

theorem Lacks.append {cs : List Char} {a b : String} (ha : Lacks cs a) (hb : Lacks cs b) :
    Lacks cs (a ++ b) := by
  intro c hc hmem
  rw [String.toList_append, List.mem_append] at hmem
  rcases hmem with hmem | hmem
  · exact ha c hc hmem
  · exact hb c hc hmem

theorem Lacks.mono {cs ds : List Char} {text : String} (h : Lacks cs text) (hd : ds ⊆ cs) :
    Lacks ds text :=
  fun c hc => h c (hd hc)

theorem lacks_lf_iff {t : String} : Lacks ['\n'] t ↔ '\n' ∉ t.toList := List.forall_mem_singleton

/-- The characters that directives, attributes and blocks start or end with, and line feeds. -/
def marks : List Char := ['#', '@', '\x7b', '\x7d', '\n']

abbrev Unmarked (text : String) : Prop := Lacks marks text

/-- Comments and bodies may have several lines. -/
def Filling.Unmarked : Filling → Prop
  | .inline text => SwiftDecl.Unmarked text
  | .comment text => ∀ l ∈ Text.lines text, SwiftDecl.Unmarked l
  | .body item => ∀ l ∈ Text.lines item, SwiftDecl.Unmarked l

instance : DecidablePred Filling.Unmarked
  | .inline text => inferInstanceAs (Decidable (SwiftDecl.Unmarked text))
  | .comment text => List.decidableBAll SwiftDecl.Unmarked (Text.lines text)
  | .body item => List.decidableBAll SwiftDecl.Unmarked (Text.lines item)

/-- No separator has a mark in it. -/
structure Style.Unmarked (s : Style) : Prop where
  conformanceSeparator : SwiftDecl.Unmarked s.conformanceSeparator
  listSeparator : SwiftDecl.Unmarked s.listSeparator
  propertySeparator : SwiftDecl.Unmarked s.propertySeparator

/-! ## Texts without some of the marks -/

/-- None of the characters is in a line of it; without any mark it is `Unmarked`. -/
def Filling.Lacks (cs : List Char) : Filling → Prop
  | .inline text => SwiftDecl.Lacks cs text
  | .comment text => ∀ l ∈ Text.lines text, SwiftDecl.Lacks cs l
  | .body item => ∀ l ∈ Text.lines item, SwiftDecl.Lacks cs l

/-- None of the characters is in a separator. -/
structure Style.Lacks (cs : List Char) (s : Style) : Prop where
  conformanceSeparator : SwiftDecl.Lacks cs s.conformanceSeparator
  listSeparator : SwiftDecl.Lacks cs s.listSeparator
  propertySeparator : SwiftDecl.Lacks cs s.propertySeparator

theorem Style.Unmarked.lacks {s : Style} (h : s.Unmarked) : s.Lacks marks :=
  ⟨h.conformanceSeparator, h.listSeparator, h.propertySeparator⟩

section

variable {cs : List Char}

theorem lacks_empty : Lacks cs "" := fun _ _ h => nomatch h

theorem lacks_word (present : Bool) {text : String} (h : Lacks cs text) :
    Lacks cs (Style.word present text) := by
  cases present with
  | true => exact h
  | false => exact lacks_empty

theorem lacks_part {α : Type} (item : Option α) {text : α → String}
    (h : ∀ a ∈ item, Lacks cs (text a)) : Lacks cs (Style.part item text) := by
  cases item with
  | none => exact lacks_empty
  | some a => exact h a rfl

theorem lacks_separated {sep : String} (hsep : Lacks cs sep) {texts : List String}
    (h : ∀ t ∈ texts, Lacks cs t) : Lacks cs (Text.separated sep texts) := by
  induction texts with
  | nil => exact lacks_empty
  | cons a rest ih =>
    have hrest := ih fun t ht => h t (.tail _ ht)
    cases rest with
    | nil => exact h a (.head _)
    | cons b rest => exact ((h a (.head _)).append hsep).append hrest

variable {s : Style}

theorem lacks_list (hlist : Lacks cs s.listSeparator) {α : Type} {text : α → String} {xs : List α}
    (h : ∀ x ∈ xs, Lacks cs (text x)) : Lacks cs (s.list (xs.map text)) :=
  lacks_separated hlist (List.forall_mem_map.2 h)

theorem lacks_conformances (hconformance : Lacks cs s.conformanceSeparator)
    (hlist : Lacks cs s.listSeparator) {ts : List TypeRef} (h : ∀ t ∈ ts, Lacks cs (s.type t)) :
    Lacks cs (s.conformances ts) := by
  cases ts with
  | nil => exact lacks_empty
  | cons t ts => exact hconformance.append (lacks_list hlist h)

-- From here on the fixed words and marks have a part in the texts.
variable (hcs : cs ⊆ marks)

include hcs

theorem lacks_constraint (hs : s.Lacks cs) {c : GenericConstraint}
    (h : ∀ x ∈ c.fillings s, x.Lacks cs) : Lacks cs (s.constraint c) := by
  obtain ⟨hname, htype⟩ := (forall_mem_constraint_iff c).1 h
  cases c with
  | conformance name t => exact (hname.append hs.conformanceSeparator).append htype
  | sameType name t =>
    exact (hname.append ((by decide : Unmarked " == ").mono hcs)).append htype

theorem lacks_whereClause (hs : s.Lacks cs) {constraints : List GenericConstraint}
    (h : ∀ c ∈ constraints, ∀ x ∈ c.fillings s, x.Lacks cs) :
    Lacks cs (s.whereClause constraints) :=
  ((by decide : Unmarked "where ").mono hcs).append
    (lacks_list hs.listSeparator fun c hc => lacks_constraint hcs hs (h c hc))

theorem lacks_parameter {p : Parameter} (h : ∀ x ∈ p.fillings s, x.Lacks cs) :
    Lacks cs (s.parameter p) := by
  obtain ⟨hlabel, hname, htype, hdefault⟩ := (forall_mem_parameter_iff p).1 h
  have hspace : Lacks cs " " := (by decide : Unmarked " ").mono hcs
  have hcolon : Lacks cs ": " := (by decide : Unmarked ": ").mono hcs
  have hinout : Lacks cs "inout " := (by decide : Unmarked "inout ").mono hcs
  have hend : Lacks cs (Style.part p.defaultValue fun e => " = " ++ e.swift) :=
    lacks_part _ fun e he => ((by decide : Unmarked " = ").mono hcs).append (hdefault e he)
  unfold Style.parameter
  refine .append (.append (.append (.append ?names hcolon) (lacks_word _ hinout)) htype) hend
  -- The label is written only if it is not the name.
  cases hl : p.label with
  | none => exact hname
  | some label =>
    by_cases hsame : label = p.name
    · simp only [if_pos hsame]
      exact hname
    · simp only [if_neg hsame]
      exact ((hlabel label hl).append hspace).append hname

theorem lacks_genericParameters (hs : s.Lacks cs) {names : List String}
    (h : ∀ name ∈ names, Lacks cs name) : Lacks cs (s.genericParameters names) := by
  cases names with
  | nil => exact lacks_empty
  | cons a names =>
    exact (((by decide : Unmarked "<").mono hcs).append
      (lacks_separated hs.listSeparator h)).append ((by decide : Unmarked ">").mono hcs)

theorem lacks_signature (hs : s.Lacks cs) {f : FunctionDecl}
    (h : ∀ x ∈ f.fillings s, x.Lacks cs) (omitPublic isStatic : Bool) :
    Lacks cs (s.signature f omitPublic isStatic) := by
  obtain ⟨-, hname, hgeneric, hparameters, hreturn, -, -⟩ := (forall_mem_function_iff f).1 h
  have hfixed : ∀ {t : String}, Unmarked t → Lacks cs t := fun ht => ht.mono hcs
  have hintro : Lacks cs (Style.word (f.isPublic && !omitPublic) "public " ++
      Style.word isStatic "static " ++ "func ") :=
    ((lacks_word _ (hfixed (by decide))).append (lacks_word _ (hfixed (by decide)))).append
      (hfixed (by decide))
  have hnames := (hintro.append hname).append (lacks_genericParameters hcs hs hgeneric)
  have hlist := lacks_list hs.listSeparator fun p hp => lacks_parameter hcs (hparameters p hp)
  have hcall := ((hnames.append (hfixed (by decide : Unmarked "("))).append hlist).append
    (hfixed (by decide : Unmarked ")"))
  have heffects := (hcall.append
    (lacks_word f.isAsync (hfixed (by decide : Unmarked " async")))).append
    (lacks_word f.canThrow (hfixed (by decide : Unmarked " throws")))
  exact heffects.append (lacks_part _ fun t ht => (hfixed (by decide)).append (hreturn t ht))

theorem lacks_variableLine (hs : s.Lacks cs) {v : Variable}
    (h : ∀ x ∈ v.fillings s, x.Lacks cs) (omitPublic isStatic : Bool) :
    Lacks cs (s.variableLine v omitPublic isStatic) := by
  obtain ⟨-, hname, htype, hvalue⟩ := (forall_mem_variable_iff v).1 h
  have hfixed : ∀ {t : String}, Unmarked t → Lacks cs t := fun ht => ht.mono hcs
  have hkeyword : Lacks cs (if v.isReadonly then "let " else "var ") := by
    split
    · exact hfixed (by decide)
    · exact hfixed (by decide)
  have hintro := ((lacks_word (v.isPublic && !omitPublic)
    (hfixed (by decide : Unmarked "public "))).append
    (lacks_word isStatic (hfixed (by decide : Unmarked "static ")))).append hkeyword
  exact ((hintro.append hname).append
    (lacks_part _ fun t ht => hs.propertySeparator.append (htype t ht))).append
    (lacks_part _ fun e he => (hfixed (by decide)).append (hvalue e he))

theorem lacks_typeAlias {a : TypeAlias} (h : ∀ x ∈ a.fillings s, x.Lacks cs) :
    Lacks cs (s.typeAlias a) := by
  obtain ⟨hname, htype⟩ := (forall_mem_alias_iff a).1 h
  have hintro := (lacks_word a.isPublic ((by decide : Unmarked "public ").mono hcs)).append
    ((by decide : Unmarked "typealias ").mono hcs)
  exact ((hintro.append hname).append ((by decide : Unmarked " = ").mono hcs)).append htype

theorem lacks_typeHeader (hs : s.Lacks cs) {d : TypeDecl}
    (h : ∀ x ∈ d.fillings s, x.Lacks cs) (omitPublic : Bool) :
    Lacks cs (s.typeHeader d omitPublic) := by
  obtain ⟨-, hname, hconformances, -⟩ := (forall_mem_typeDecl_iff d).1 h
  have hkeyword : Unmarked d.kind.keyword := by
    cases d.kind <;> decide
  have hintro := ((lacks_word (d.isPublic && !omitPublic)
    ((by decide : Unmarked "public ").mono hcs)).append (hkeyword.mono hcs)).append
    ((by decide : Unmarked " ").mono hcs)
  exact (hintro.append hname).append
    (lacks_conformances hs.conformanceSeparator hs.listSeparator hconformances)

theorem lacks_extensionHeader (hs : s.Lacks cs) {e : Extension}
    (h : ∀ x ∈ e.fillings s, x.Lacks cs) : Lacks cs (s.extensionHeader e) := by
  obtain ⟨htype, hconformances, -⟩ := (forall_mem_extension_iff e).1 h
  have hintro := (lacks_word (e.isPublic && e.conformances.isEmpty)
    ((by decide : Unmarked "public ").mono hcs)).append
    ((by decide : Unmarked "extension ").mono hcs)
  exact (hintro.append htype).append
    (lacks_conformances hs.conformanceSeparator hs.listSeparator hconformances)

theorem lacks_commentLine {l : String} (h : Lacks cs l) : Lacks cs (Emit.commentLine l) := by
  unfold Emit.commentLine
  split
  · exact (by decide : Unmarked "///").mono hcs
  · refine ((by decide : Unmarked "/// ").mono hcs).append fun c hc hmem => h c hc ?_
    rw [Text.trimEnd, String.toList_ofList, Text.dropBlanksEnd, List.mem_reverse] at hmem
    exact List.mem_reverse.1 ((List.dropWhile_sublist _).subset hmem)

end

end SwiftDecl
