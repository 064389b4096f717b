import SwiftDecl.Manifest.Problem
import SwiftDecl.Proofs.Model.Records

/-!
# SwiftDecl.Proofs.Manifest.FirstDefect

Validation as a scan of one flat list of checks. The list is read off the manifest alone, and what
it takes for all of its checks to pass is said without it, of every declaration that the manifest
reaches.

* `defect_eq_firstDefect` — validation finds the first defect among the checks of a manifest.
* `passAll_checks_iff` — the checks of a manifest pass exactly if it is sound.
-/

namespace SwiftDecl

/-- Something that validation looks at. -/
inductive Check where
  | indent (setting : IndentSetting)
  | separator (key value : String)
  | version (version : SwiftVersion) (extendedType : String)
  /-- `path` leads to the declaration that the name belongs to. -/
  | name (path : List String) (kind name : String)

namespace Check

def Passes : Check → Prop
  | indent setting => ∃ i, setting.resolve = some i
  | separator _ value => value ≠ ""
  | version v _ => 5 ≤ v.major
  | name _ _ n => NameFlaw.ofName n = none

/-- What there is to say of a check that does not pass. -/
def defect : Check → Option Defect
  | indent setting =>
    match setting.resolve with
    | none => some (.unsupportedIndent setting)
    | some _ => none
  | separator key value => if value = "" then some (.emptySeparator key) else none
  | version v extendedType =>
    if v.major < 5 then some (.unsupportedVersion v extendedType) else none
  | name path kind n =>
    match NameFlaw.ofName n with
    | none => none
    | some flaw => some (.badName n kind path flaw)

theorem defect_eq_none_iff (c : Check) : c.defect = none ↔ c.Passes := by
  cases c with
  | indent setting => cases h : setting.resolve <;> simp [defect, Passes, h]
  | separator key value => simp [defect, Passes]
  | version v extendedType => simp [defect, Passes, UInt32.not_lt]
  | name path kind n => cases h : NameFlaw.ofName n <;> simp [defect, Passes, h]

end Check

def Parameter.checks (path : List String) (p : Parameter) : List Check :=
  .name path "parameter" p.name ::
    (p.label.toList.filter (· ≠ "_")).map (.name path "parameter label")

def FunctionDecl.checks (path : List String) (f : FunctionDecl) : List Check :=
  .name path "function" f.name ::
    (f.genericParameters.map (.name (path ++ [f.name]) "generic parameter") ++
      f.parameters.flatMap (Parameter.checks (path ++ [f.name])))

def Variable.check (path : List String) (v : Variable) : Check := .name path "variable" v.name

def TypeAlias.check (path : List String) (a : TypeAlias) : Check := .name path "type alias" a.name

mutual
def TypeDecl.checks (path : List String) : TypeDecl → List Check
  | ⟨name, _, _, _, _, aliases, typeVariables, instanceVariables, nested, typeFunctions,
      functions⟩ =>
    .name path "type" name ::
      (aliases.map (TypeAlias.check (path ++ [name])) ++
      typeVariables.map (Variable.check (path ++ [name])) ++
      instanceVariables.map (Variable.check (path ++ [name])) ++
      TypeDecl.checksOfEach (path ++ [name]) nested ++
      typeFunctions.flatMap (FunctionDecl.checks (path ++ [name])) ++
      functions.flatMap (FunctionDecl.checks (path ++ [name])))

def TypeDecl.checksOfEach (path : List String) : List TypeDecl → List Check
  | [] => []
  | d :: ds => d.checks path ++ TypeDecl.checksOfEach path ds
end

def Extension.checks (e : Extension) : List Check :=
  let path := [e.extendedType.display]
  e.minimumVersion.toList.map (.version · e.extendedType.display) ++
  e.requiredImports.map (.name path "required import") ++
  TypeDecl.checksOfEach path e.typeDecls ++
  e.typeVariables.map (Variable.check path) ++
  e.typeFunctions.flatMap (FunctionDecl.checks path) ++
  e.functions.flatMap (FunctionDecl.checks path)

def FormatOptions.checks (f : FormatOptions) : List Check :=
  f.indent.toList.map .indent ++
  f.listSeparator.toList.map (.separator "identifier_list_separator") ++
  f.conformanceSeparator.toList.map (.separator "type_conformance_separator")

def Manifest.checks (m : Manifest) : List Check :=
  m.format.checks ++ m.imports.map (.name [] "import") ++ m.extensions.flatMap Extension.checks

/-- The defect of the first check that does not pass. -/
def firstDefect (cs : List Check) : Option Defect := cs.findSome? Check.defect

theorem firstDefect_append (cs ds : List Check) :
    firstDefect (cs ++ ds) = (firstDefect cs <|> firstDefect ds) := by
  simp [firstDefect, List.findSome?_append]

theorem firstDefect_cons (c : Check) (cs : List Check) :
    firstDefect (c :: cs) = (c.defect <|> firstDefect cs) := by
  cases h : c.defect <;> simp [firstDefect, h]

theorem firstDefect_map {α : Type} {find : α → Option Defect} {check : α → Check}
    (h : ∀ a, find a = (check a).defect) (xs : List α) :
    xs.findSome? find = firstDefect (xs.map check) := by
  rw [firstDefect, List.findSome?_map]
  congr 1
  exact funext h

theorem firstDefect_flatMap {α : Type} {find : α → Option Defect} {checks : α → List Check}
    (h : ∀ a, find a = firstDefect (checks a)) (xs : List α) :
    xs.findSome? find = firstDefect (xs.flatMap checks) := by
  induction xs with
  | nil => rfl
  | cons x xs ih =>
    rw [List.flatMap_cons, firstDefect_append, ← h, ← ih, List.findSome?_cons]
    cases find x <;> rfl

theorem defect_name (path : List String) (kind n : String) :
    Defect.ofName path kind n = (Check.name path kind n).defect := by
  cases h : NameFlaw.ofName n <;> simp [Defect.ofName, Check.defect, h]

theorem defect_parameter (path : List String) (p : Parameter) :
    p.defect path = firstDefect (p.checks path) := by
  rw [Parameter.defect, Parameter.checks, firstDefect_cons, defect_name]
  congr 1
  funext _
  cases p.label with
  | none => rfl
  | some label =>
    by_cases hl : label = "_"
    · simp [Defect.ofLabel, firstDefect, hl]
    · simp [Defect.ofLabel, firstDefect, hl, defect_name]

theorem defect_function (path : List String) (f : FunctionDecl) :
    f.defect path = firstDefect (f.checks path) := by
  rw [FunctionDecl.defect, FunctionDecl.checks, firstDefect_cons, firstDefect_append, defect_name,
    firstDefect_map (defect_name _ _), firstDefect_flatMap (defect_parameter _)]

theorem defect_variable (path : List String) (v : Variable) :
    v.defect path = (v.check path).defect := defect_name path _ _

theorem defect_alias (path : List String) (a : TypeAlias) :
    a.defect path = (a.check path).defect := defect_name path _ _

mutual
theorem defect_typeDecl (path : List String) : ∀ d : TypeDecl,
    d.defect path = firstDefect (d.checks path)
  | ⟨name, _, _, _, _, aliases, typeVariables, instanceVariables, nested, typeFunctions,
      functions⟩ => by
    rw [TypeDecl.defect, TypeDecl.checks, firstDefect_cons, defect_name,
      firstDefect_map (defect_alias _), firstDefect_map (defect_variable _),
      firstDefect_map (defect_variable _), firstDefect_typeDecls _ nested,
      firstDefect_flatMap (defect_function _), firstDefect_flatMap (defect_function _)]
    simp only [firstDefect_append, Option.orElse_eq_orElse, Option.orElse_eq_or, Option.or_assoc]

theorem firstDefect_typeDecls (path : List String) : ∀ ds : List TypeDecl,
    TypeDecl.firstDefect path ds = firstDefect (TypeDecl.checksOfEach path ds)
  | [] => rfl
  | d :: ds => by
    rw [TypeDecl.firstDefect, TypeDecl.checksOfEach, firstDefect_append, defect_typeDecl path d,
      firstDefect_typeDecls path ds]
end

theorem defect_version (extendedType : String) (version : Option SwiftVersion) :
    Defect.ofVersion extendedType version =
      firstDefect (version.toList.map (.version · extendedType)) := by
  cases version with
  | none => rfl
  | some v =>
    by_cases hv : v.major < 5 <;> simp [Defect.ofVersion, firstDefect, Check.defect, hv]

theorem defect_extension (e : Extension) : e.defect = firstDefect e.checks := by
  rw [Extension.defect, Extension.checks, defect_version, firstDefect_map (defect_name _ _),
    firstDefect_typeDecls, firstDefect_map (defect_variable _),
    firstDefect_flatMap (defect_function _), firstDefect_flatMap (defect_function _)]
  simp only [firstDefect_append, Option.orElse_eq_orElse, Option.orElse_eq_or, Option.or_assoc]

theorem defect_separator (key : String) (value : Option String) :
    Defect.ofSeparator key value = firstDefect (value.toList.map (.separator key)) := by
  cases value with
  | none => rfl
  | some value =>
    by_cases hv : value = "" <;> simp [Defect.ofSeparator, firstDefect, Check.defect, hv]

theorem defect_indent (setting : Option IndentSetting) :
    Defect.ofIndent setting = firstDefect (setting.toList.map .indent) := by
  cases setting with
  | none => rfl
  | some setting =>
    cases hs : setting.resolve <;> simp [Defect.ofIndent, firstDefect, Check.defect, hs]

theorem defect_format (f : FormatOptions) : f.defect = firstDefect f.checks := by
  rw [FormatOptions.defect, FormatOptions.checks, defect_indent, defect_separator,
    defect_separator]
  simp only [firstDefect_append, Option.orElse_eq_orElse, Option.orElse_eq_or, Option.or_assoc]

theorem defect_eq_firstDefect (m : Manifest) : m.defect = firstDefect m.checks := by
  rw [Manifest.defect, Manifest.checks, defect_format, firstDefect_map (defect_name _ _),
    firstDefect_flatMap defect_extension]
  simp only [firstDefect_append, Option.orElse_eq_orElse, Option.orElse_eq_or, Option.or_assoc]

def IsIdentifier (name : String) : Prop := NameFlaw.ofName name = none

structure Parameter.IsSound (p : Parameter) : Prop where
  name : IsIdentifier p.name
  label : ∀ l, p.label = some l → l ≠ "_" → IsIdentifier l

structure FunctionDecl.IsSound (f : FunctionDecl) : Prop where
  name : IsIdentifier f.name
  genericParameters : ∀ g ∈ f.genericParameters, IsIdentifier g
  parameters : ∀ p ∈ f.parameters, p.IsSound

/-- The second type is the first or stands inside it, at any depth. -/
inductive TypeDecl.Declares : TypeDecl → TypeDecl → Prop where
  | self {d} : Declares d d
  | nested {d n t} (hn : n ∈ d.nestedTypes) (h : Declares n t) : Declares d t

/-- What a type declares itself is named properly. -/
structure TypeDecl.IsSound (t : TypeDecl) : Prop where
  name : IsIdentifier t.name
  aliases : ∀ a ∈ t.aliases, IsIdentifier a.name
  typeVariables : ∀ v ∈ t.typeVariables, IsIdentifier v.name
  instanceVariables : ∀ v ∈ t.instanceVariables, IsIdentifier v.name
  typeFunctions : ∀ f ∈ t.typeFunctions, f.IsSound
  functions : ∀ f ∈ t.functions, f.IsSound

structure Extension.IsSound (e : Extension) : Prop where
  version : ∀ v, e.minimumVersion = some v → 5 ≤ v.major
  requiredImports : ∀ n ∈ e.requiredImports, IsIdentifier n
  types : ∀ d ∈ e.typeDecls, ∀ t, d.Declares t → t.IsSound
  typeVariables : ∀ v ∈ e.typeVariables, IsIdentifier v.name
  typeFunctions : ∀ f ∈ e.typeFunctions, f.IsSound
  functions : ∀ f ∈ e.functions, f.IsSound

structure Manifest.IsSound (m : Manifest) : Prop where
  indent : ∀ setting, m.format.indent = some setting → ∃ i, setting.resolve = some i
  listSeparator : m.format.listSeparator ≠ some ""
  conformanceSeparator : m.format.conformanceSeparator ≠ some ""
  imports : ∀ n ∈ m.imports, IsIdentifier n
  extensions : ∀ e ∈ m.extensions, e.IsSound

def PassAll (cs : List Check) : Prop := ∀ c ∈ cs, c.Passes

theorem firstDefect_eq_none_iff (cs : List Check) : firstDefect cs = none ↔ PassAll cs := by
  simp only [firstDefect, List.findSome?_eq_none_iff, Check.defect_eq_none_iff, PassAll]

theorem passAll_append {cs ds : List Check} : PassAll (cs ++ ds) ↔ PassAll cs ∧ PassAll ds :=
  List.forall_mem_append

theorem passAll_cons {c : Check} {cs : List Check} : PassAll (c :: cs) ↔ c.Passes ∧ PassAll cs :=
  List.forall_mem_cons

theorem passAll_map {α : Type} {check : α → Check} {xs : List α} :
    PassAll (xs.map check) ↔ ∀ x ∈ xs, (check x).Passes := List.forall_mem_map

theorem passAll_flatMap {α : Type} {checks : α → List Check} {xs : List α} :
    PassAll (xs.flatMap checks) ↔ ∀ x ∈ xs, PassAll (checks x) := List.forall_mem_flatMap

theorem passAll_parameter (path : List String) (p : Parameter) :
    PassAll (p.checks path) ↔ p.IsSound := by
  rw [Parameter.checks, passAll_cons, passAll_map]
  constructor
  · intro ⟨hn, hl⟩
    exact ⟨hn, fun l h hne => hl l (by simp [h, hne])⟩
  · intro h
    refine ⟨h.name, fun l hl => ?_⟩
    simp only [List.mem_filter, Option.mem_toList, decide_eq_true_eq] at hl
    exact h.label l hl.1 hl.2

theorem passAll_function (path : List String) (f : FunctionDecl) :
    PassAll (f.checks path) ↔ f.IsSound := by
  rw [FunctionDecl.checks, passAll_cons, passAll_append, passAll_map, passAll_flatMap]
  simp only [passAll_parameter]
  exact ⟨fun ⟨hn, hg, hp⟩ => ⟨hn, hg, hp⟩, fun h => ⟨h.name, h.genericParameters, h.parameters⟩⟩

mutual
theorem passAll_typeDecl (path : List String) : ∀ d : TypeDecl,
    PassAll (d.checks path) ↔ ∀ t, d.Declares t → t.IsSound
  | ⟨name, kind, isPublic, conformances, comment, aliases, typeVariables, instanceVariables,
      nested, typeFunctions, functions⟩ => by
    rw [TypeDecl.checks]
    simp only [passAll_cons, passAll_append, passAll_map, passAll_flatMap, passAll_function]
    rw [passAll_typeDecls _ nested]
    constructor
    · rintro ⟨hn, ⟨⟨⟨⟨ha, htv⟩, hv⟩, hnested⟩, htf⟩, hf⟩ t ht
      cases ht with
      | self => exact ⟨hn, ha, htv, hv, htf, hf⟩
      | nested hmem ht => exact hnested _ hmem _ ht
    · intro h
      have hself := h _ .self
      refine ⟨hself.name, ⟨⟨⟨⟨hself.aliases, hself.typeVariables⟩, hself.instanceVariables⟩, ?_⟩,
        hself.typeFunctions⟩, hself.functions⟩
      exact fun d hd t ht => h t (.nested hd ht)

theorem passAll_typeDecls (path : List String) : ∀ ds : List TypeDecl,
    PassAll (TypeDecl.checksOfEach path ds) ↔ ∀ d ∈ ds, ∀ t, d.Declares t → t.IsSound
  | [] => by simp [TypeDecl.checksOfEach, PassAll]
  | d :: ds => by
    rw [TypeDecl.checksOfEach, passAll_append, passAll_typeDecl path d, passAll_typeDecls path ds,
      List.forall_mem_cons]
end

theorem passAll_extension (e : Extension) : PassAll e.checks ↔ e.IsSound := by
  rw [Extension.checks]
  simp only [passAll_append, passAll_map, passAll_flatMap, passAll_function, passAll_typeDecls,
    Option.mem_toList]
  exact ⟨fun ⟨⟨⟨⟨⟨hver, hi⟩, ht⟩, hv⟩, htf⟩, hf⟩ => ⟨hver, hi, ht, hv, htf, hf⟩,
    fun h => ⟨⟨⟨⟨⟨h.version, h.requiredImports⟩, h.types⟩, h.typeVariables⟩, h.typeFunctions⟩,
      h.functions⟩⟩

theorem passes_separator {key : String} {value : Option String} :
    (∀ s, value = some s → (Check.separator key s).Passes) ↔ value ≠ some "" :=
  ⟨fun h he => h "" he rfl, fun h _ hs he => h (hs.trans (congrArg some he))⟩

theorem passAll_checks_iff (m : Manifest) : PassAll m.checks ↔ m.IsSound := by
  rw [Manifest.checks, FormatOptions.checks]
  simp only [passAll_append, passAll_map, passAll_flatMap, passAll_extension, Option.mem_toList,
    passes_separator]
  exact ⟨fun ⟨⟨⟨⟨hi, hl⟩, hc⟩, himp⟩, he⟩ => ⟨hi, hl, hc, himp, he⟩,
    fun h => ⟨⟨⟨⟨h.indent, h.listSeparator⟩, h.conformanceSeparator⟩, h.imports⟩, h.extensions⟩⟩

/-- The first check that does not pass has this defect. -/
def FirstFails (cs : List Check) (d : Defect) : Prop :=
  ∃ before c after, cs = before ++ c :: after ∧ PassAll before ∧ c.defect = some d

theorem firstDefect_eq_some_iff (cs : List Check) (d : Defect) :
    firstDefect cs = some d ↔ FirstFails cs d := by
  simp only [firstDefect, List.findSome?_eq_some_iff, Check.defect_eq_none_iff, FirstFails, PassAll]
  constructor
  · rintro ⟨before, c, after, hcs, hc, hb⟩
    exact ⟨before, c, after, hcs, hb, hc⟩
  · rintro ⟨before, c, after, hcs, hb, hc⟩
    exact ⟨before, c, after, hcs, hc, hb⟩

theorem defect_eq_none_iff (m : Manifest) : m.defect = none ↔ m.IsSound := by
  rw [defect_eq_firstDefect, firstDefect_eq_none_iff, passAll_checks_iff]

theorem defect_eq_some_iff (m : Manifest) (d : Defect) :
    m.defect = some d ↔ FirstFails m.checks d := by
  rw [defect_eq_firstDefect, firstDefect_eq_some_iff]

/-! ## Loading -/

/-- What the text says, sound or not. -/
def Manifest.parsed (source : String) : Option Manifest :=
  (Toml.read source).bind fun data => (Manifest.ofData data).toOption

theorem Manifest.ofText_of_parsed {m : Manifest} {source : String} (h : parsed source = some m) :
    Manifest.ofText source =
      match m.defect with
      | none => .ok m
      | some d => .error (.defect source d) := by
  obtain ⟨data, hr, hm⟩ := Option.bind_eq_some_iff.1 h
  rw [Manifest.ofText, hr]
  simp only [ok_of_toOption hm]
  cases m.defect <;> rfl

theorem Manifest.ofText_eq_ok_iff {m : Manifest} {source : String} (h : parsed source = some m) :
    Manifest.ofText source = .ok m ↔ m.defect = none := by
  rw [ofText_of_parsed h]
  cases m.defect <;> simp

theorem Manifest.ofText_eq_defect_iff {m : Manifest} {source : String} {d : Defect}
    (h : parsed source = some m) :
    Manifest.ofText source = .error (.defect source d) ↔ m.defect = some d := by
  rw [ofText_of_parsed h]
  cases m.defect <;> simp

theorem Manifest.parsed_of_ofText {m : Manifest} {source : String}
    (h : Manifest.ofText source = .ok m) : parsed source = some m := by
  rw [ofText] at h
  cases hr : Toml.read source with
  | none => simp [hr] at h
  | some data =>
    cases hd : ofData data with
    | error e => simp [hr, hd] at h
    | ok m' =>
      cases hm : m'.defect with
      | some d => simp [hr, hd, hm] at h
      | none =>
        obtain rfl : m' = m := by simpa [hr, hd, hm] using h
        simp [parsed, hr, hd, Except.toOption]

/-- What is loaded from a text is sound. -/
theorem Manifest.isSound_of_ofText {m : Manifest} {source : String}
    (h : Manifest.ofText source = .ok m) : m.IsSound :=
  (defect_eq_none_iff m).1 ((ofText_eq_ok_iff (parsed_of_ofText h)).1 h)

/-- Validation accepts exactly the sound manifests. Of any other it reports the first check that
does not pass: format, imports, then one extension after another, each declaration before what
stands inside it. -/
theorem first_failure_reported (m : Manifest) :
    (m.defect = none ↔ m.IsSound) ∧
    (∀ d, m.defect = some d ↔ FirstFails m.checks d) ∧
    ∀ source, Manifest.parsed source = some m →
      (Manifest.ofText source = .ok m ↔ m.IsSound) ∧
      ∀ d, Manifest.ofText source = .error (.defect source d) ↔ FirstFails m.checks d := by
  refine ⟨defect_eq_none_iff m, defect_eq_some_iff m, fun source h => ⟨?_, fun d => ?_⟩⟩
  · rw [Manifest.ofText_eq_ok_iff h, defect_eq_none_iff]
  · rw [Manifest.ofText_eq_defect_iff h, defect_eq_some_iff]

/-- A type inside a type has no proper name, and its function no name at all. -/
def twoFaults : String :=
  "extension=[\x7bextended_type='A',type_definitions=[\x7bname='B'," ++
    "nested_types=[\x7bname='1',functions=[\x7bname=''\x7d]\x7d]\x7d]\x7d]"

theorem first_failure_reported_nested : ∃ m, Manifest.parsed twoFaults = some m ∧
    FirstFails m.checks (.badName "1" "type" ["A", "B"] (.badStart '1')) ∧
    Manifest.ofText twoFaults =
      .error (.defect twoFaults (.badName "1" "type" ["A", "B"] (.badStart '1'))) := by
  have hd : (Manifest.parsed twoFaults).bind Manifest.defect =
      some (.badName "1" "type" ["A", "B"] (.badStart '1')) := by decide +kernel
  obtain ⟨m, hread, hm⟩ := Option.bind_eq_some_iff.1 hd
  obtain ⟨-, hfirst, hload⟩ := first_failure_reported m
  exact ⟨m, hread, (hfirst _).1 hm, ((hload _ hread).2 _).2 ((hfirst _).1 hm)⟩

end SwiftDecl
