import SwiftDecl.Proofs.Model.RoundTrip

/-!
# SwiftDecl.Proofs.Model.Survival

Declarations that were put together in memory, written as data and read again. A value that is
`nil` is written as `null`, and where an initialiser or a default is looked for, `null` is read as
the absent value. Nothing else is lost or changed.

* `TypeDecl.rewrite_eq_self_iff`, `Extension.rewrite_eq_self_iff` — replacing values changes
  nothing exactly if it changes none of the values there are.
* `built_model_reloads` — what becomes of a declaration of any kind, and when it comes back as it
  was.
* `nil_value_lost` — a variable that does not.
-/

namespace SwiftDecl

theorem map_eq_self_iff {α : Type} (h : α → α) (xs : List α) :
    xs.map h = xs ↔ ∀ x ∈ xs, h x = x := by
  have hid := List.map_inj_left (f := h) (g := id) (l := xs)
  rwa [List.map_id] at hid

theorem map_rewrite_constraints (cs : List GenericConstraint) :
    cs.map (GenericConstraint.rewrite id) = cs :=
  (map_eq_self_iff _ cs).2 fun c _ => by cases c <;> rfl

theorem map_rewrite_aliases (as : List TypeAlias) : as.map (TypeAlias.rewrite id) = as :=
  (map_eq_self_iff _ as).2 fun _ _ => rfl

section

variable {g : Expression → Option Expression} {Q : Expression → Prop}

theorem bind_eq_self_iff (hg : ∀ e, g e = some e ↔ Q e) (o : Option Expression) :
    o.bind g = o ↔ ∀ e ∈ o, Q e := by
  cases o with
  | none => simp
  | some e => simp [hg]

theorem Variable.rewrite_eq_self_iff (hg : ∀ e, g e = some e ↔ Q e) (v : Variable) :
    v.rewrite id g = v ↔ v.Every (fun _ => True) Q := by
  have hvalue := bind_eq_self_iff hg v.value
  constructor
  · intro h
    exact ⟨fun _ _ => trivial, hvalue.1 (congrArg Variable.value h)⟩
  · intro h
    rw [rewrite, Option.map_id, hvalue.2 h.value]
    rfl

theorem Parameter.rewrite_eq_self_iff (hg : ∀ e, g e = some e ↔ Q e) (p : Parameter) :
    p.rewrite id g = p ↔ p.Every (fun _ => True) Q := by
  have hdefault := bind_eq_self_iff hg p.defaultValue
  constructor
  · intro h
    exact ⟨trivial, hdefault.1 (congrArg Parameter.defaultValue h)⟩
  · intro h
    rw [rewrite, hdefault.2 h.defaultValue]
    rfl

theorem FunctionDecl.rewrite_eq_self_iff (hg : ∀ e, g e = some e ↔ Q e) (f : FunctionDecl) :
    f.rewrite id g = f ↔ f.Every (fun _ => True) Q := by
  have hparameters := map_eq_self_iff (Parameter.rewrite id g) f.parameters
  simp only [Parameter.rewrite_eq_self_iff hg] at hparameters
  constructor
  · intro h
    exact ⟨hparameters.1 (congrArg FunctionDecl.parameters h), fun _ _ => trivial,
      fun _ _ => trivial⟩
  · intro h
    rw [rewrite, hparameters.2 h.parameters, Option.map_id, map_rewrite_constraints]
    rfl

theorem map_rewrite_variables_iff (hg : ∀ e, g e = some e ↔ Q e) (vs : List Variable) :
    vs.map (Variable.rewrite id g) = vs ↔ ∀ v ∈ vs, v.Every (fun _ => True) Q := by
  simp only [map_eq_self_iff, Variable.rewrite_eq_self_iff hg]

theorem map_rewrite_functions_iff (hg : ∀ e, g e = some e ↔ Q e) (fs : List FunctionDecl) :
    fs.map (FunctionDecl.rewrite id g) = fs ↔ ∀ f ∈ fs, f.Every (fun _ => True) Q := by
  simp only [map_eq_self_iff, FunctionDecl.rewrite_eq_self_iff hg]

mutual
theorem TypeDecl.rewrite_eq_self_iff (hg : ∀ e, g e = some e ↔ Q e) : ∀ d : TypeDecl,
    d.rewrite id g = d ↔ d.Every (fun _ => True) Q
  | ⟨name, kind, isPublic, conformances, comment, aliases, typeVariables, instanceVariables,
      nested, typeFunctions, functions⟩ => by
    have htv := map_rewrite_variables_iff hg typeVariables
    have hiv := map_rewrite_variables_iff hg instanceVariables
    have hnested := TypeDecl.rewriteEach_eq_self_iff hg nested
    have htf := map_rewrite_functions_iff hg typeFunctions
    have hf := map_rewrite_functions_iff hg functions
    constructor
    · intro h
      refine .intro ⟨fun _ _ => trivial, fun _ _ => trivial, ?_, ?_, ?_, ?_⟩ ?_
      · exact htv.1 (congrArg TypeDecl.typeVariables h)
      · exact hiv.1 (congrArg TypeDecl.instanceVariables h)
      · exact htf.1 (congrArg TypeDecl.typeFunctions h)
      · exact hf.1 (congrArg TypeDecl.functions h)
      · exact hnested.1 (congrArg TypeDecl.nestedTypes h)
    · rintro (⟨hown, hin⟩)
      rw [TypeDecl.rewrite, List.map_id, map_rewrite_aliases, htv.2 hown.typeVariables,
        hiv.2 hown.instanceVariables, hnested.2 hin, htf.2 hown.typeFunctions,
        hf.2 hown.functions]

theorem TypeDecl.rewriteEach_eq_self_iff (hg : ∀ e, g e = some e ↔ Q e) :
    ∀ ds : List TypeDecl, TypeDecl.rewriteEach id g ds = ds ↔ ∀ d ∈ ds, d.Every (fun _ => True) Q
  | [] => by simp [TypeDecl.rewriteEach]
  | d :: ds => by
    rw [TypeDecl.rewriteEach, List.cons.injEq, TypeDecl.rewrite_eq_self_iff hg d,
      TypeDecl.rewriteEach_eq_self_iff hg ds, List.forall_mem_cons]
end

theorem Extension.rewrite_eq_self_iff (hg : ∀ e, g e = some e ↔ Q e) (e : Extension) :
    e.rewrite id g = e ↔ e.Every (fun _ => True) Q := by
  have htypes := map_eq_self_iff (TypeDecl.rewrite id g) e.typeDecls
  simp only [TypeDecl.rewrite_eq_self_iff hg] at htypes
  have hvariables := map_rewrite_variables_iff hg e.typeVariables
  have htf := map_rewrite_functions_iff hg e.typeFunctions
  have hf := map_rewrite_functions_iff hg e.functions
  constructor
  · intro h
    exact {
      extendedType := trivial
      conformances := fun _ _ => trivial
      constraints := fun _ _ => trivial
      typeDecls := htypes.1 (congrArg Extension.typeDecls h)
      typeVariables := hvariables.1 (congrArg Extension.typeVariables h)
      typeFunctions := htf.1 (congrArg Extension.typeFunctions h)
      functions := hf.1 (congrArg Extension.functions h) }
  · intro h
    rw [rewrite, List.map_id, map_rewrite_constraints, htypes.2 h.typeDecls,
      hvariables.2 h.typeVariables, htf.2 h.typeFunctions, hf.2 h.functions]
    rfl

end

/-- What the parser can give, without an empty tuple in it. -/
def TypeRef.IsSpelled (t : TypeRef) : Prop := t.IsRead ∧ t.allTuples (· ≠ 0) = true

mutual
theorem TypeRef.nameVoid_eq_self : ∀ t : TypeRef, t.allTuples (· ≠ 0) = true → t.nameVoid = t
  | .named _, _ => rfl
  | .optional t, h => congrArg TypeRef.optional (nameVoid_eq_self t h)
  | .array t, h => congrArg TypeRef.array (nameVoid_eq_self t h)
  | .dictionary k v, h => by
    rw [allTuples, Bool.and_eq_true] at h
    rw [nameVoid, nameVoid_eq_self k h.1, nameVoid_eq_self v h.2]
  | .generic s ts, h => congrArg (TypeRef.generic s) (nameVoidEach_eq_self ts h)
  | .tuple [], h => by simp [allTuples] at h
  | .tuple (t :: ts), h => by
    rw [allTuples, Bool.and_eq_true] at h
    exact congrArg TypeRef.tuple (nameVoidEach_eq_self (t :: ts) h.2)

theorem TypeRef.nameVoidEach_eq_self : ∀ ts : List TypeRef,
    allTuplesEach (· ≠ 0) ts = true → nameVoidEach ts = ts
  | [], _ => rfl
  | t :: ts, h => by
    rw [allTuplesEach, Bool.and_eq_true] at h
    rw [nameVoidEach, nameVoid_eq_self t h.1, nameVoidEach_eq_self ts h.2]
end

theorem TypeRef.IsSpelled.parse_display_eq {t : TypeRef} (h : t.IsSpelled) :
    TypeRef.parse t.display = .ok t := by
  rw [h.1.parse_display_eq, nameVoid_eq_self t h.2]

namespace Expression

/-- It is no infinity and no NaN. -/
def IsFinite (e : Expression) : Prop := ∀ x, e = .double x → x.isFinite = true

/-- What is left of a value that has been written and read. -/
def unlessNil : Expression → Option Expression
  | .nil => none
  | e => some e

theorem unlessNil_eq_some_iff (e : Expression) : e.unlessNil = some e ↔ e ≠ .nil := by
  cases e <;> simp [unlessNil]

theorem IsFinite.unlessNil_eq {e : Expression} (h : e.IsFinite) :
    (if e.isPresent then some e else none) = e.unlessNil := by
  cases e with
  | double x => rw [isPresent, h x rfl]; rfl
  | _ => rfl

end Expression

namespace Model

theorem reloads_built {dialect : Dialect} :
    Reloads dialect TypeRef.IsSpelled Expression.IsFinite id Expression.unlessNil where
  type _ ht := ht.parse_display_eq
  value e he := by rw [readOption_expression, he.unlessNil_eq]

end Model

/-! ## Declarations -/

/-- Its types can be read from their text, and its doubles are finite. -/
abbrev Variable.Built : Variable → Prop := Variable.Every TypeRef.IsSpelled Expression.IsFinite

abbrev Parameter.Built : Parameter → Prop := Parameter.Every TypeRef.IsSpelled Expression.IsFinite

abbrev FunctionDecl.Built : FunctionDecl → Prop :=
  FunctionDecl.Every TypeRef.IsSpelled Expression.IsFinite

abbrev TypeDecl.Built : TypeDecl → Prop := TypeDecl.Every TypeRef.IsSpelled Expression.IsFinite

abbrev Extension.Built : Extension → Prop := Extension.Every TypeRef.IsSpelled Expression.IsFinite

/-- No value in it is `nil`. -/
abbrev Variable.NilFree : Variable → Prop := Variable.Every (fun _ => True) (· ≠ .nil)

abbrev Parameter.NilFree : Parameter → Prop := Parameter.Every (fun _ => True) (· ≠ .nil)

abbrev FunctionDecl.NilFree : FunctionDecl → Prop := FunctionDecl.Every (fun _ => True) (· ≠ .nil)

abbrev TypeDecl.NilFree : TypeDecl → Prop := TypeDecl.Every (fun _ => True) (· ≠ .nil)

abbrev Extension.NilFree : Extension → Prop := Extension.Every (fun _ => True) (· ≠ .nil)

namespace Model

open Expression (unlessNil)

/-- A declaration of any kind, written as data and read again, has lost the values in it that are
`nil` and is otherwise as it was. So it comes back as it was exactly if there are none. -/
theorem built_model_reloads (v : Variable) (p : Parameter) (f : FunctionDecl) (d : TypeDecl)
    (e : Extension) :
    (v.Built → readVariable .json v.toData = .ok (v.rewrite id unlessNil) ∧
      (v.rewrite id unlessNil = v ↔ v.NilFree)) ∧
    (p.Built → readParameter .json p.toData = .ok (p.rewrite id unlessNil) ∧
      (p.rewrite id unlessNil = p ↔ p.NilFree)) ∧
    (f.Built → readFunction .json f.toData = .ok (f.rewrite id unlessNil) ∧
      (f.rewrite id unlessNil = f ↔ f.NilFree)) ∧
    (d.Built → readTypeDecl .json d.toData = .ok (d.rewrite id unlessNil) ∧
      (d.rewrite id unlessNil = d ↔ d.NilFree)) ∧
    (e.Built → readExtension .json e.toData = .ok (e.rewrite id unlessNil) ∧
      (e.rewrite id unlessNil = e ↔ e.NilFree)) := by
  have hnil := Expression.unlessNil_eq_some_iff
  refine ⟨?_, ?_, ?_, ?_, ?_⟩
  · intro hv
    exact ⟨reloads_built.readVariable_toData hv, Variable.rewrite_eq_self_iff hnil v⟩
  · intro hp
    exact ⟨reloads_built.readParameter_toData hp, Parameter.rewrite_eq_self_iff hnil p⟩
  · intro hf
    exact ⟨reloads_built.readFunction_toData hf, FunctionDecl.rewrite_eq_self_iff hnil f⟩
  · intro hd
    exact ⟨reloads_built.readTypeDecl_toData d hd, TypeDecl.rewrite_eq_self_iff hnil d⟩
  · intro he
    exact ⟨reloads_built.readExtension_toData he, Extension.rewrite_eq_self_iff hnil e⟩

/-- Initialisers whose data could be taken for something else: a name, a zero with a sign, and a
text of braces. -/
def variedVariables : List Variable := [
  { name := "a", value := some (.raw "nil") },
  { name := "b", value := some (.double ⟨0x8000000000000000⟩) },
  { name := "c", type := some (.optional (.named "B")), value := some (.string "\x7b\x7d") }]

/-- They stand in a type inside another type. -/
def nestedModel : Extension where
  extendedType := .named "A"
  typeDecls := [
    { name := "B", nestedTypes := [{ name := "C", instanceVariables := variedVariables }] }]

theorem every_nestedModel {P : TypeRef → Prop} {Q : Expression → Prop} (hP : P (.named "A"))
    (h : ∀ v ∈ variedVariables, v.Every P Q) : nestedModel.Every P Q := by
  have hinner : TypeDecl.Every P Q { name := "C", instanceVariables := variedVariables } :=
    .intro ⟨by simp, by simp, by simp, h, by simp, by simp⟩ (by simp)
  have houter : TypeDecl.Every P Q
      { name := "B", nestedTypes := [{ name := "C", instanceVariables := variedVariables }] } :=
    .intro ⟨by simp, by simp, by simp, by simp, by simp, by simp⟩ (by simpa using hinner)
  exact {
    extendedType := hP
    conformances := by simp [nestedModel]
    constraints := by simp [nestedModel]
    typeDecls := by simpa [nestedModel] using houter
    typeVariables := by simp [nestedModel]
    typeFunctions := by simp [nestedModel]
    functions := by simp [nestedModel] }

theorem built_model_reloads_nested : nestedModel.Built ∧
    readExtension .json nestedModel.toData = .ok nestedModel := by
  have hA : (TypeRef.named "A").IsSpelled := ⟨⟨"A", ok_of_toOption (by decide +kernel)⟩, rfl⟩
  have hB : (TypeRef.optional (.named "B")).IsSpelled :=
    ⟨⟨"B?", ok_of_toOption (by decide +kernel)⟩, rfl⟩
  have hbuilt : nestedModel.Built := by
    refine every_nestedModel hA fun v hv => ?_
    simp only [variedVariables, List.mem_cons, List.not_mem_nil, or_false] at hv
    rcases hv with rfl | rfl | rfl
    · exact ⟨by simp, by simp [Expression.IsFinite]⟩
    · exact ⟨by simp, by simp [Expression.IsFinite]; decide⟩
    · exact ⟨by simpa using hB, by simp [Expression.IsFinite]⟩
  have hnilFree : nestedModel.NilFree := by
    refine every_nestedModel trivial fun v hv => ?_
    simp only [variedVariables, List.mem_cons, List.not_mem_nil, or_false] at hv
    rcases hv with rfl | rfl | rfl <;> exact ⟨by simp, by simp⟩
  obtain ⟨-, -, -, -, hextension⟩ := built_model_reloads { name := "a" }
    { name := "a", type := .named "A" } { name := "f" } { name := "A" } nestedModel
  obtain ⟨hread, hsame⟩ := hextension hbuilt
  exact ⟨hbuilt, by rw [hread, hsame.2 hnilFree]⟩

/-- A variable whose value is `nil`. -/
def nilVariable : Variable := { name := "x", value := some .nil }

/-- The value is gone after writing and reading. -/
theorem nil_value_lost : nilVariable.Built ∧
    readVariable .json nilVariable.toData = .ok { name := "x" } ∧
    (nilVariable == { name := "x" }) = false :=
  ⟨⟨by simp [nilVariable], by simp [nilVariable, Expression.IsFinite]⟩, rfl, by decide⟩

end Model
end SwiftDecl
