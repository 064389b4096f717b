import SwiftDecl.Model.Writing

/-!
# SwiftDecl.Proofs.Model.Parts

The types and the values that declarations are made of, wherever they stand: that all of them have
a property, and what a declaration becomes when each of them is replaced.

* `Extension.toData_rewrite` — replacing types by types of the same text changes nothing that is
  written.
-/

namespace SwiftDecl

section

variable (P : TypeRef → Prop) (Q : Expression → Prop)

def GenericConstraint.type : GenericConstraint → TypeRef
  | .conformance _ t => t
  | .sameType _ t => t

structure Variable.Every (v : Variable) : Prop where
  type : ∀ t ∈ v.type, P t
  value : ∀ e ∈ v.value, Q e

structure Parameter.Every (p : Parameter) : Prop where
  type : P p.type
  defaultValue : ∀ e ∈ p.defaultValue, Q e

structure FunctionDecl.Every (f : FunctionDecl) : Prop where
  parameters : ∀ p ∈ f.parameters, p.Every P Q
  returnType : ∀ t ∈ f.returnType, P t
  constraints : ∀ c ∈ f.constraints, P c.type

/-- What stands in a type declaration and not in one nested in it. -/
structure TypeDecl.EveryOwn (d : TypeDecl) : Prop where
  conformances : ∀ t ∈ d.conformances, P t
  aliases : ∀ a ∈ d.aliases, P a.type
  typeVariables : ∀ v ∈ d.typeVariables, v.Every P Q
  instanceVariables : ∀ v ∈ d.instanceVariables, v.Every P Q
  typeFunctions : ∀ f ∈ d.typeFunctions, f.Every P Q
  functions : ∀ f ∈ d.functions, f.Every P Q

inductive TypeDecl.Every : TypeDecl → Prop
  | intro {d : TypeDecl} : d.EveryOwn P Q → (∀ n ∈ d.nestedTypes, TypeDecl.Every n) →
    TypeDecl.Every d

/-- What stands in an extension beside the type that it extends. -/
structure Extension.EveryMember (e : Extension) : Prop where
  conformances : ∀ t ∈ e.conformances, P t
  constraints : ∀ c ∈ e.constraints, P c.type
  typeDecls : ∀ d ∈ e.typeDecls, d.Every P Q
  typeVariables : ∀ v ∈ e.typeVariables, v.Every P Q
  typeFunctions : ∀ f ∈ e.typeFunctions, f.Every P Q
  functions : ∀ f ∈ e.functions, f.Every P Q

structure Extension.Every (e : Extension) : Prop extends e.EveryMember P Q where
  extendedType : P e.extendedType

end

section

variable (f : TypeRef → TypeRef) (g : Expression → Option Expression)

def GenericConstraint.rewrite : GenericConstraint → GenericConstraint
  | .conformance name t => .conformance name (f t)
  | .sameType name t => .sameType name (f t)

def Variable.rewrite (v : Variable) : Variable :=
  { v with type := v.type.map f, value := v.value.bind g }

def Parameter.rewrite (p : Parameter) : Parameter :=
  { p with type := f p.type, defaultValue := p.defaultValue.bind g }

def FunctionDecl.rewrite (d : FunctionDecl) : FunctionDecl :=
  { d with
    parameters := d.parameters.map (Parameter.rewrite f g)
    returnType := d.returnType.map f
    constraints := d.constraints.map (GenericConstraint.rewrite f) }

def TypeAlias.rewrite (a : TypeAlias) : TypeAlias := { a with type := f a.type }

mutual
def TypeDecl.rewrite : TypeDecl → TypeDecl
  | ⟨name, kind, isPublic, conformances, comment, aliases, typeVariables, instanceVariables,
      nested, typeFunctions, functions⟩ =>
    ⟨name, kind, isPublic, conformances.map f, comment, aliases.map (TypeAlias.rewrite f),
      typeVariables.map (Variable.rewrite f g), instanceVariables.map (Variable.rewrite f g),
      TypeDecl.rewriteEach nested, typeFunctions.map (FunctionDecl.rewrite f g),
      functions.map (FunctionDecl.rewrite f g)⟩

def TypeDecl.rewriteEach : List TypeDecl → List TypeDecl
  | [] => []
  | d :: ds => d.rewrite :: TypeDecl.rewriteEach ds
end

def Extension.rewrite (e : Extension) : Extension :=
  { e with
    extendedType := f e.extendedType
    conformances := e.conformances.map f
    constraints := e.constraints.map (GenericConstraint.rewrite f)
    typeDecls := e.typeDecls.map (TypeDecl.rewrite f g)
    typeVariables := e.typeVariables.map (Variable.rewrite f g)
    typeFunctions := e.typeFunctions.map (FunctionDecl.rewrite f g)
    functions := e.functions.map (FunctionDecl.rewrite f g) }

theorem TypeDecl.rewriteEach_eq_map (ds : List TypeDecl) :
    TypeDecl.rewriteEach f g ds = ds.map (TypeDecl.rewrite f g) := by
  induction ds with
  | nil => rfl
  | cons d ds ih => rw [rewriteEach, ih, List.map_cons]

end

theorem TypeDecl.eachToData_eq_map (ds : List TypeDecl) :
    TypeDecl.eachToData ds = ds.map TypeDecl.toData := by
  induction ds with
  | nil => rfl
  | cons d ds ih => rw [eachToData, ih, List.map_cons]

/-! ## Types of the same text -/

theorem Members.optional_map {α β : Type} (key : String) (o : Option α) (h : α → β)
    (toData : β → Data) :
    Members.optional key (o.map h) toData = Members.optional key o fun a => toData (h a) := by
  cases o <;> rfl

theorem Members.many_map {α β : Type} (key : String) (xs : List α) (h : α → β)
    (toData : β → Data) :
    Members.many key (xs.map h) toData = Members.many key xs fun a => toData (h a) := by
  simp [Members.many, Function.comp_def]

section

variable {f : TypeRef → TypeRef}

theorem TypeRef.toData_of_display (hf : ∀ t, (f t).display = t.display) (t : TypeRef) :
    (f t).toData = t.toData := by
  rw [TypeRef.toData, TypeRef.toData, hf]

theorem GenericConstraint.toData_rewrite (hf : ∀ t, (f t).display = t.display)
    (c : GenericConstraint) : (c.rewrite f).toData = c.toData := by
  cases c <;> simp only [rewrite, toData, TypeRef.toData_of_display hf]

theorem Variable.toData_rewrite (hf : ∀ t, (f t).display = t.display) (v : Variable) :
    (v.rewrite f some).toData = v.toData := by
  simp only [rewrite, toData, Option.bind_fun_some, Members.optional_map,
    TypeRef.toData_of_display hf]

theorem Parameter.toData_rewrite (hf : ∀ t, (f t).display = t.display) (p : Parameter) :
    (p.rewrite f some).toData = p.toData := by
  simp only [rewrite, toData, Option.bind_fun_some, TypeRef.toData_of_display hf]

theorem FunctionDecl.toData_rewrite (hf : ∀ t, (f t).display = t.display) (d : FunctionDecl) :
    (d.rewrite f some).toData = d.toData := by
  simp only [rewrite, toData, Members.optional_map, Members.many_map,
    TypeRef.toData_of_display hf, Parameter.toData_rewrite hf,
    GenericConstraint.toData_rewrite hf]

theorem TypeAlias.toData_rewrite (hf : ∀ t, (f t).display = t.display) (a : TypeAlias) :
    (a.rewrite f).toData = a.toData := by
  simp only [rewrite, toData, TypeRef.toData_of_display hf]

mutual
theorem TypeDecl.toData_rewrite (hf : ∀ t, (f t).display = t.display) : ∀ d : TypeDecl,
    (d.rewrite f some).toData = d.toData
  | ⟨_, _, _, _, _, _, _, _, nested, _, _⟩ => by
    simp only [rewrite, toData, Members.many_map, TypeRef.toData_of_display hf,
      TypeAlias.toData_rewrite hf, Variable.toData_rewrite hf, FunctionDecl.toData_rewrite hf,
      eachToData_rewriteEach hf nested]

theorem TypeDecl.eachToData_rewriteEach (hf : ∀ t, (f t).display = t.display) :
    ∀ ds : List TypeDecl,
      TypeDecl.eachToData (TypeDecl.rewriteEach f some ds) = TypeDecl.eachToData ds
  | [] => rfl
  | d :: ds => by
    rw [rewriteEach, eachToData, eachToData, toData_rewrite hf d, eachToData_rewriteEach hf ds]
end

theorem Extension.toData_rewrite (hf : ∀ t, (f t).display = t.display) (e : Extension) :
    (e.rewrite f some).toData = e.toData := by
  simp only [rewrite, toData, Members.many_map, TypeRef.toData_of_display hf,
    GenericConstraint.toData_rewrite hf, TypeDecl.toData_rewrite hf, Variable.toData_rewrite hf,
    FunctionDecl.toData_rewrite hf]

end
end SwiftDecl
