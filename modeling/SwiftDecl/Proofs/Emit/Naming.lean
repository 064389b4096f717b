import SwiftDecl.Proofs.Emit.Batch

/-!
# SwiftDecl.Proofs.Emit.Naming

Which names a text asks its renderer for. A text that is written for every renderer is a sequence
of pieces, some of them left to the renderer; the names among these are the names that the renderer
is asked for, and there is no choice about them.

* `Asks` — a text asks for exactly these names. It goes along with everything that texts and lines
  are put together with.
* `mem_iff_of_spellAll_eq` — all ways to write a text in pieces ask for the same names.
* `asks_render` — the names that the text of a manifest asks for.
-/

namespace SwiftDecl

open Line (flat blank deeper renderAll)

/-- A stretch of text, or something that is left to the renderer. -/
inductive Piece where
  | text (s : String)
  | type (t : TypeRef)
  | name (n : String)

namespace Piece

def spell (r : NameRenderer) : Piece → String
  | text s => s
  | type t => r.typeName t
  | name n => r.identifier n

def spellAll (r : NameRenderer) (ps : List Piece) : String := String.join (ps.map (spell r))

/-- The names that the renderer is asked for, in order. -/
def names : List Piece → List String
  | [] => []
  | name n :: ps => n :: names ps
  | text _ :: ps => names ps
  | type _ :: ps => names ps

theorem spellAll_append (r : NameRenderer) (ps qs : List Piece) :
    spellAll r (ps ++ qs) = spellAll r ps ++ spellAll r qs := by
  rw [spellAll, List.map_append, String.join_append]
  rfl

theorem spellAll_singleton (r : NameRenderer) (p : Piece) : spellAll r [p] = p.spell r := by
  simp [spellAll]

theorem names_append (ps qs : List Piece) : names (ps ++ qs) = names ps ++ names qs := by
  induction ps with
  | nil => rfl
  | cons p ps ih => cases p <;> simp [names, ih]

theorem mem_names_iff (n : String) (ps : List Piece) : n ∈ names ps ↔ name n ∈ ps := by
  induction ps with
  | nil => simp [names]
  | cons p ps ih => cases p <;> simp [names, ih]

/-- The renderer with another spelling of one name. -/
def respell (r : NameRenderer) (n spelling : String) : NameRenderer :=
  { r with identifier := fun m => if m = n then spelling else r.identifier m }

theorem spellAll_respell {ps : List Piece} {n : String} (h : name n ∉ ps) (r : NameRenderer)
    (spelling : String) : spellAll (respell r n spelling) ps = spellAll r ps := by
  rw [spellAll, spellAll]
  refine congrArg String.join (List.map_congr_left fun p hp => ?_)
  cases p with
  | text s => rfl
  | type t => rfl
  | name m =>
    have hm : m ≠ n := fun he => h (he ▸ hp)
    exact if_neg hm

theorem length_spell_le {p : Piece} {ps : List Piece} (r : NameRenderer) (h : p ∈ ps) :
    (p.spell r).length ≤ (spellAll r ps).length := by
  obtain ⟨before, after, rfl⟩ := List.append_of_mem h
  have hp : spellAll r (before ++ p :: after) =
      spellAll r before ++ (p.spell r ++ spellAll r after) := by
    rw [spellAll_append, spellAll, spellAll, List.map_cons, String.join_cons]
    rfl
  rw [hp, String.length_append, String.length_append]
  omega

/-- A name that occurs can be spelled so that the text is another. -/
theorem exists_respell_ne {ps : List Piece} {n : String} (h : name n ∈ ps) (r : NameRenderer) :
    ∃ spelling, spellAll (respell r n spelling) ps ≠ spellAll r ps := by
  let long := String.ofList (List.replicate ((spellAll r ps).length + 1) 'x')
  refine ⟨long, fun he => ?_⟩
  have hle := length_spell_le (respell r n long) h
  have hlong : long.length = (spellAll r ps).length + 1 := by simp [long]
  have hspell : (name n).spell (respell r n long) = long := if_pos rfl
  rw [he, hspell, hlong] at hle
  omega

theorem mem_iff_of_spellAll_eq {ps qs : List Piece} (h : ∀ r, spellAll r ps = spellAll r qs)
    (n : String) : name n ∈ ps ↔ name n ∈ qs := by
  have hsub : ∀ {ps qs : List Piece}, (∀ r, spellAll r ps = spellAll r qs) →
      name n ∈ ps → name n ∈ qs := by
    intro ps qs h hn
    obtain ⟨spelling, hne⟩ := exists_respell_ne hn swiftNames
    refine Classical.byContradiction fun hq => hne ?_
    rw [h, spellAll_respell hq, h]
  exact ⟨hsub h, hsub fun r => (h r).symm⟩

end Piece

open Piece (spellAll names)

/-- The text is made of pieces, and the names among these are the given ones. -/
def Asks (text : NameRenderer → String) (ns : List String) : Prop :=
  ∃ ps, (∀ r, text r = spellAll r ps) ∧ names ps = ns

section Asks

variable {text text' : NameRenderer → String} {ns ns' : List String}

theorem asks_const (s : String) : Asks (fun _ => s) [] :=
  ⟨[.text s], fun r => (Piece.spellAll_singleton r (.text s)).symm, rfl⟩

theorem asks_name (n : String) : Asks (fun r => r.identifier n) [n] :=
  ⟨[.name n], fun r => (Piece.spellAll_singleton r (.name n)).symm, rfl⟩

theorem asks_type (t : TypeRef) : Asks (fun r => r.typeName t) [] :=
  ⟨[.type t], fun r => (Piece.spellAll_singleton r (.type t)).symm, rfl⟩

theorem Asks.of_eq (h : Asks text ns) (he : ns = ns') : Asks text ns' := he ▸ h

theorem Asks.append (h : Asks text ns) (h' : Asks text' ns') :
    Asks (fun r => text r ++ text' r) (ns ++ ns') := by
  obtain ⟨ps, hps, rfl⟩ := h
  obtain ⟨qs, hqs, rfl⟩ := h'
  refine ⟨ps ++ qs, fun r => ?_, Piece.names_append ps qs⟩
  rw [Piece.spellAll_append, ← hps, ← hqs]

theorem asks_separated {α : Type} {item : NameRenderer → α → String} {of : α → List String}
    (h : ∀ a, Asks (fun r => item r a) (of a)) (sep : String) (xs : List α) :
    Asks (fun r => Text.separated sep (xs.map (item r))) (xs.flatMap of) := by
  induction xs with
  | nil => exact asks_const ""
  | cons x xs ih =>
    cases xs with
    | nil =>
      rw [List.flatMap_cons, List.flatMap_nil, List.append_nil]
      exact h x
    | cons y ys =>
      have hx := ((h x).append (asks_const sep)).append ih
      rwa [List.append_nil] at hx

/-- Lines whose text asks for these names, whatever their indentation. -/
def LinesAsk (lines : NameRenderer → List Line) (ns : List String) : Prop :=
  ∀ unit depth, Asks (fun r => renderAll unit depth (lines r)) ns

variable {lines lines' : NameRenderer → List Line}

theorem linesAsk_const (ls : List Line) : LinesAsk (fun _ => ls) [] :=
  fun unit depth => asks_const (renderAll unit depth ls)

theorem LinesAsk.append (h : LinesAsk lines ns) (h' : LinesAsk lines' ns') :
    LinesAsk (fun r => lines r ++ lines' r) (ns ++ ns') := by
  intro unit depth
  simp only [Line.renderAll_append]
  exact (h unit depth).append (h' unit depth)

theorem LinesAsk.deeper (h : LinesAsk lines ns) : LinesAsk (fun r => deeper (lines r)) ns := by
  intro unit depth
  simp only [Line.renderAll_deeper]
  exact h unit (depth + 1)

theorem linesAsk_line (h : Asks text ns) (hne : ∀ r, (text r).isEmpty = false) :
    LinesAsk (fun r => flat [text r]) ns := by
  intro unit depth
  have hrender : ∀ r, renderAll unit depth (flat [text r]) =
      Buffer.indentation unit depth ++ text r ++ "\n" := by
    intro r
    simp [flat, renderAll, Line.render, hne r]
  simp only [hrender]
  have ht := ((asks_const (Buffer.indentation unit depth)).append h).append (asks_const "\n")
  rwa [List.nil_append, List.append_nil] at ht

theorem linesAsk_flatMap {α : Type} {item : NameRenderer → α → List Line} {of : α → List String}
    (h : ∀ a, LinesAsk (fun r => item r a) (of a)) (xs : List α) :
    LinesAsk (fun r => xs.flatMap (item r)) (xs.flatMap of) := by
  induction xs with
  | nil => exact linesAsk_const []
  | cons x xs ih => exact (h x).append ih

end Asks

def Style.spelledBy (s : Style) (r : NameRenderer) : Style := { s with names := r }

def FunctionDecl.spelledNames (f : FunctionDecl) : List String :=
  f.name :: (f.parameters.map (·.name) ++ f.constraints.map GenericConstraint.name)

/-- The names of a type and of its own members, without those of the types inside it. -/
def TypeDecl.ownNames (d : TypeDecl) : List String :=
  d.name :: (d.aliases.map (·.name) ++ d.typeVariables.map (·.name) ++
    d.instanceVariables.map (·.name) ++ d.typeFunctions.flatMap FunctionDecl.spelledNames ++
    d.functions.flatMap FunctionDecl.spelledNames)

mutual
def TypeDecl.spelledNames : TypeDecl → List String
  | ⟨name, _, _, _, _, aliases, typeVariables, instanceVariables, nested, typeFunctions,
      functions⟩ =>
    name :: (aliases.map (·.name) ++ typeVariables.map (·.name) ++
      instanceVariables.map (·.name) ++ TypeDecl.spelledNamesOfEach nested ++
      typeFunctions.flatMap FunctionDecl.spelledNames ++
      functions.flatMap FunctionDecl.spelledNames)

def TypeDecl.spelledNamesOfEach : List TypeDecl → List String
  | [] => []
  | d :: ds => d.spelledNames ++ TypeDecl.spelledNamesOfEach ds
end

def Extension.spelledNames (e : Extension) : List String :=
  e.constraints.map GenericConstraint.name ++ TypeDecl.spelledNamesOfEach e.typeDecls ++
    e.typeVariables.map (·.name) ++ e.typeFunctions.flatMap FunctionDecl.spelledNames ++
    e.functions.flatMap FunctionDecl.spelledNames

namespace Emit

variable (s : Style)

theorem asks_constraint (c : GenericConstraint) :
    Asks (fun r => (s.spelledBy r).constraint c) [c.name] := by
  cases c with
  | conformance name t =>
    exact ((asks_name name).append (asks_const s.conformanceSeparator)).append (asks_type t)
  | sameType name t => exact ((asks_name name).append (asks_const " == ")).append (asks_type t)

theorem asks_whereClause (cs : List GenericConstraint) :
    Asks (fun r => (s.spelledBy r).whereClause cs) (cs.map GenericConstraint.name) := by
  have h := (asks_const "where ").append (asks_separated (asks_constraint s) s.listSeparator cs)
  rwa [List.nil_append, ← List.map_eq_flatMap] at h

theorem asks_optionalType (text : String) (t : Option TypeRef) :
    Asks (fun r => Style.part t fun t => text ++ (s.spelledBy r).type t) [] := by
  cases t with
  | none => exact asks_const ""
  | some t => exact (asks_const text).append (asks_type t)

theorem asks_types (ts : List TypeRef) :
    Asks (fun r => (s.spelledBy r).list (ts.map (s.spelledBy r).type)) [] := by
  have h : Asks (fun r => (s.spelledBy r).list (ts.map (s.spelledBy r).type))
      (ts.flatMap fun _ => []) := asks_separated asks_type s.listSeparator ts
  exact h.of_eq (by simp)

theorem asks_conformances (ts : List TypeRef) :
    Asks (fun r => (s.spelledBy r).conformances ts) [] := by
  cases ts with
  | nil => exact asks_const ""
  | cons t ts => exact (asks_const s.conformanceSeparator).append (asks_types s (t :: ts))

theorem asks_parameter (p : Parameter) :
    Asks (fun r => (s.spelledBy r).parameter p) [p.name] := by
  unfold Style.parameter
  refine (((((?names : Asks _ [p.name]).append (asks_const ": ")).append (asks_const _)).append
    (asks_type p.type)).append (asks_const _)).of_eq (by simp)
  cases p.label with
  | none => exact asks_name p.name
  | some label =>
    by_cases hl : label = p.name
    · simp only [if_pos hl]
      exact asks_name p.name
    · simp only [if_neg hl]
      exact (asks_const (label ++ " ")).append (asks_name p.name)

theorem asks_signature (f : FunctionDecl) (omitPublic isStatic : Bool) :
    Asks (fun r => (s.spelledBy r).signature f omitPublic isStatic)
      (f.name :: f.parameters.map (·.name)) := by
  have hname := (asks_const (Style.word (f.isPublic && !omitPublic) "public " ++
    Style.word isStatic "static " ++ "func ")).append (asks_name f.name)
  have hparameters := asks_separated (asks_parameter s) s.listSeparator f.parameters
  have hopen := (hname.append (asks_const (s.genericParameters f.genericParameters))).append
    (asks_const "(")
  have hclose := (((hopen.append hparameters).append (asks_const ")")).append
    (asks_const (Style.word f.isAsync " async"))).append
    (asks_const (Style.word f.canThrow " throws"))
  refine (hclose.append (asks_optionalType s " -> " f.returnType)).of_eq ?_
  simp [← List.map_eq_flatMap]

theorem asks_variableLine (v : Variable) (omitPublic isStatic : Bool) :
    Asks (fun r => (s.spelledBy r).variableLine v omitPublic isStatic) [v.name] := by
  have hname := (asks_const (Style.word (v.isPublic && !omitPublic) "public " ++
    Style.word isStatic "static " ++ if v.isReadonly then "let " else "var ")).append
    (asks_name v.name)
  have htype := hname.append (asks_optionalType s s.propertySeparator v.type)
  exact (htype.append (asks_const (Style.part v.value fun e => " = " ++ e.swift))).of_eq (by simp)

theorem asks_typeAlias (a : TypeAlias) :
    Asks (fun r => (s.spelledBy r).typeAlias a) [a.name] := by
  have hname := (asks_const (Style.word a.isPublic "public " ++ "typealias ")).append
    (asks_name a.name)
  exact ((hname.append (asks_const " = ")).append (asks_type a.type)).of_eq (by simp)

theorem asks_typeHeader (d : TypeDecl) (omitPublic : Bool) :
    Asks (fun r => (s.spelledBy r).typeHeader d omitPublic) [d.name] := by
  have hname := (asks_const (Style.word (d.isPublic && !omitPublic) "public " ++ d.kind.keyword ++
    " ")).append (asks_name d.name)
  exact (hname.append (asks_conformances s d.conformances)).of_eq (by simp)

theorem asks_extensionHeader (e : Extension) :
    Asks (fun r => (s.spelledBy r).extensionHeader e) [] := by
  have htype := (asks_const (Style.word (e.isPublic && e.conformances.isEmpty) "public " ++
    "extension ")).append (asks_type e.extendedType)
  exact htype.append (asks_conformances s e.conformances)

/-! ## The lines of declarations and of manifests -/

theorem linesAsk_openBlock {header : NameRenderer → String} {ns : List String}
    (h : Asks header ns) (hne : ∀ r, (header r).isEmpty = false) (cs : List GenericConstraint) :
    LinesAsk (fun r => openBlockLines (s.spelledBy r) (header r) cs)
      (ns ++ cs.map GenericConstraint.name) := by
  unfold openBlockLines
  cases cs with
  | nil => exact linesAsk_line (h.append (asks_const " \x7b")) fun r => by simp
  | cons c cs =>
    have hwhere := linesAsk_line (asks_whereClause s (c :: cs)) fun r => by
      simp [Style.whereClause, String.isEmpty_eq_false_iff]
    have hlines := ((linesAsk_line h hne).append hwhere.deeper).append
      (linesAsk_const (flat ["\x7b"]))
    rwa [List.append_nil] at hlines

theorem linesAsk_function (f : FunctionDecl) (omitPublic isStatic : Bool) :
    LinesAsk (fun r => functionLines (s.spelledBy r) f omitPublic isStatic) f.spelledNames := by
  have hopen := linesAsk_openBlock s (asks_signature s f omitPublic isStatic)
    (fun r => signature_isEmpty _ f omitPublic isStatic) f.constraints
  have habove := linesAsk_const (commentLines f.comment ++
    (if f.isInlinable then flat ["@inlinable"] else []) ++
    (if f.hasDiscardableResult then flat ["@discardableResult"] else []))
  have hbody := linesAsk_const (deeper (f.body.flatMap bodyItemLines))
  have hlines := ((habove.append hopen).append hbody).append (linesAsk_const (flat ["\x7d"]))
  rwa [List.append_nil, List.append_nil] at hlines

theorem linesAsk_functions (fs : List FunctionDecl) (omitPublic isStatic : Bool) :
    LinesAsk (fun r => functionsLines (s.spelledBy r) fs omitPublic isStatic)
      (fs.flatMap FunctionDecl.spelledNames) :=
  linesAsk_flatMap (fun f => (linesAsk_const [blank]).append
    (linesAsk_function s f omitPublic isStatic)) fs

theorem variableLine_isEmpty (v : Variable) (omitPublic isStatic : Bool) :
    (s.variableLine v omitPublic isStatic).isEmpty = false := by
  by_cases h : v.isReadonly <;> simp [Style.variableLine, h, String.isEmpty_eq_false_iff]

theorem linesAsk_variable (v : Variable) (omitPublic isStatic : Bool) :
    LinesAsk (fun r => variableLines (s.spelledBy r) v omitPublic isStatic) [v.name] :=
  (linesAsk_const (commentLines v.comment)).append
    (linesAsk_line (asks_variableLine s v omitPublic isStatic)
      fun _ => variableLine_isEmpty _ v omitPublic isStatic)

theorem linesAsk_variablesAfter (isStatic afterComment : Bool) (vs : List Variable) :
    LinesAsk (fun r => variablesAfterLines (s.spelledBy r) isStatic afterComment vs)
      (vs.map (·.name)) := by
  induction vs generalizing afterComment with
  | nil => exact linesAsk_const []
  | cons v vs ih =>
    exact ((linesAsk_const (if afterComment then [blank] else [])).append
      (linesAsk_variable s v false isStatic)).append (ih v.comment.isSome)

theorem linesAsk_variableGroup (vs : List Variable) (isStatic : Bool) :
    LinesAsk (fun r => variableGroupLines (s.spelledBy r) vs isStatic) (vs.map (·.name)) := by
  cases vs with
  | nil => exact linesAsk_const []
  | cons v vs =>
    exact (linesAsk_const [blank]).append (linesAsk_variablesAfter s isStatic false (v :: vs))

theorem linesAsk_aliasGroup (as : List TypeAlias) :
    LinesAsk (fun r => aliasGroupLines (s.spelledBy r) as) (as.map (·.name)) := by
  cases as with
  | nil => exact linesAsk_const []
  | cons a as =>
    have hlines := linesAsk_flatMap (fun a => linesAsk_line (asks_typeAlias s a)
      fun r => by simp [Style.typeAlias, String.isEmpty_eq_false_iff]) (a :: as)
    rw [← List.map_eq_flatMap] at hlines
    exact (linesAsk_const [blank]).append hlines

mutual
theorem linesAsk_typeDecl : ∀ (d : TypeDecl) (omitPublic : Bool),
    LinesAsk (fun r => typeDeclLines (s.spelledBy r) d omitPublic) d.spelledNames
  | ⟨name, kind, isPublic, conformances, comment, aliases, typeVariables, instanceVariables,
      nested, typeFunctions, fs⟩, omitPublic => by
    have hopen := (linesAsk_const (commentLines comment)).append (linesAsk_openBlock s
      (asks_typeHeader s ⟨name, kind, isPublic, conformances, comment, aliases, typeVariables,
        instanceVariables, nested, typeFunctions, fs⟩ omitPublic)
      (fun r => typeHeader_isEmpty _ _ omitPublic) [])
    have hvars := ((linesAsk_aliasGroup s aliases).append
      (linesAsk_variableGroup s typeVariables true)).append
      (linesAsk_variableGroup s instanceVariables false)
    have hmembers := ((hvars.append (linesAsk_nested nested)).append
      (linesAsk_functions s typeFunctions false true)).append (linesAsk_functions s fs false false)
    have hlines := (hopen.append hmembers.deeper).append (linesAsk_const (flat ["\x7d"]))
    rwa [List.append_nil] at hlines

theorem linesAsk_nested : ∀ ds : List TypeDecl,
    LinesAsk (fun r => nestedLines (s.spelledBy r) ds) (TypeDecl.spelledNamesOfEach ds)
  | [] => linesAsk_const []
  | d :: ds => ((linesAsk_const [blank]).append (linesAsk_typeDecl d false)).append
      (linesAsk_nested ds)
end

theorem linesAsk_typeDecls (ds : List TypeDecl) (omitPublic : Bool) :
    LinesAsk (fun r => typeDeclsLines (s.spelledBy r) ds omitPublic)
      (TypeDecl.spelledNamesOfEach ds) := by
  induction ds with
  | nil => exact linesAsk_const []
  | cons d ds ih =>
    exact ((linesAsk_const [blank]).append (linesAsk_typeDecl s d omitPublic)).append ih

theorem linesAsk_extension (e : Extension) :
    LinesAsk (fun r => extensionLines (s.spelledBy r) e) e.spelledNames := by
  have hopen := (linesAsk_const (openGateLines e)).append (linesAsk_openBlock s
    (asks_extensionHeader s e) (fun r => extensionHeader_isEmpty _ e) e.constraints)
  have hmembers := (((linesAsk_typeDecls s e.typeDecls e.isPublic).append
    (linesAsk_variableGroup s e.typeVariables true)).append
    (linesAsk_functions s e.typeFunctions e.isPublic true)).append
    (linesAsk_functions s e.functions e.isPublic false)
  have hlines := ((hopen.append hmembers.deeper).append (linesAsk_const (flat ["\x7d"]))).append
    (linesAsk_const (closeGateLines e))
  intro unit depth
  exact (hlines unit depth).of_eq (by simp [Extension.spelledNames])

theorem linesAsk_batch (es : List Extension) :
    LinesAsk (fun r => batchLines (s.spelledBy r) (es.map .extension))
      (es.flatMap Extension.spelledNames) := by
  cases es with
  | nil => exact linesAsk_const []
  | cons e es =>
    have hlater := linesAsk_flatMap
      (fun e => (linesAsk_const [blank]).append (linesAsk_extension s e)) es
    have hlines := (linesAsk_extension s e).append hlater
    simp only [List.map_cons, batchLines, laterLines, List.flatMap_map]
    exact hlines

theorem batchLines_isEmpty (es : List Extension) :
    (batchLines s (es.map .extension)).isEmpty = es.isEmpty := by
  cases es with
  | nil => rfl
  | cons e es => simp [batchLines, declarationLines, extensionLines, flat]

end Emit

namespace Manifest

theorem asks_apart {text : NameRenderer → String} {ns : List String} {b : Bool} (a : String)
    (h : Asks text ns) (hb : ∀ r, (text r).isEmpty = b) : Asks (fun r => apart a (text r)) ns := by
  by_cases hempty : (a.isEmpty || b) = true
  · simp only [apart, hb, hempty, if_true]
    exact (asks_const a).append h
  · simp only [apart, hb, hempty]
    exact (asks_const (a ++ "\n")).append h

/-- A text that can be written asks for the names of its extensions and for no other. -/
theorem asks_render {m : Manifest} (s : Style) (h : m.VersionsGateable) :
    ∃ ps, (∀ r, m.render (s.spelledBy r) = .ok (spellAll r ps)) ∧
      names ps = m.extensions.flatMap Extension.spelledNames := by
  have hempty : ∀ r, (m.extensionsText (s.spelledBy r)).isEmpty = m.extensions.isEmpty := by
    intro r
    rw [extensionsText, Line.renderAll_isEmpty, Emit.batchLines_isEmpty]
  obtain ⟨ps, hps, hns⟩ := asks_apart m.importsText
    (Emit.linesAsk_batch s m.extensions s.indent.unit 0) hempty
  refine ⟨ps, fun r => ?_, hns⟩
  rw [render_eq _ h, ← hps r]
  rfl

end Manifest
end SwiftDecl
