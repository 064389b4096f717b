import SwiftDecl.Proofs.Model.Loaded
import SwiftDecl.Proofs.Version

/-!
# SwiftDecl.Proofs.Model.RoundTrip

Reading what was written. What becomes of single types and values decides what becomes of whole
declarations: nothing else in them changes.

* `Reloads.readExtension_toData` — the round trip of types and values lifts to extensions.
* `dumped_model_reloads` — what was loaded once is loaded again from its own data.
-/

namespace SwiftDecl
namespace Model

open Shape (Fills)

/-- Writing and reading makes `f t` of a type with `P` and `g e` of a value with `Q`. -/
structure Reloads (dialect : Dialect) (P : TypeRef → Prop) (Q : Expression → Prop)
    (f : TypeRef → TypeRef) (g : Expression → Option Expression) : Prop where
  type : ∀ t, P t → TypeRef.parse t.display = .ok (f t)
  value : ∀ e, Q e → readOption (readExpression dialect) e.toData = .ok (g e)

variable {dialect : Dialect}

theorem isNamed_expression (e : Expression) : e.toData.isNamed = true := by
  cases e with
  | double x => cases h : x.isFinite <;> simp [Expression.toData, Data.isNamed, h]
  | _ => rfl

theorem readExpression_integer (i : Int64) :
    readExpression dialect (.integer i.toInt) = .ok (.integer i) := by
  have hlow := i.le_toInt
  have hhigh := i.toInt_lt
  have hword : Number.isWord64 i.toInt = true := by
    simp only [Number.isWord64, Bool.and_eq_true, decide_eq_true_eq]
    omega
  have hint : Number.isInt64 i.toInt = true := by
    simp only [Number.isInt64, Bool.and_eq_true, decide_eq_true_eq]
    omega
  simp only [readExpression, survey, expressionOf, hword, hint, if_true, Int64.ofInt_toInt]

theorem readOption_expression (e : Expression) :
    readOption (readExpression dialect) e.toData = .ok (if e.isPresent then some e else none) := by
  cases e with
  | integer i =>
    change (readExpression dialect (.integer i.toInt)).map some = _
    rw [readExpression_integer]
    rfl
  | double x =>
    cases h : x.isFinite with
    | true =>
      simp only [Expression.toData, h, if_true, Expression.isPresent]
      rfl
    | false =>
      simp only [Expression.toData, h, Expression.isPresent]
      rfl
  | _ => rfl

namespace Reloads

variable {P : TypeRef → Prop} {Q : Expression → Prop}
  {f : TypeRef → TypeRef} {g : Expression → Option Expression}

theorem readType_toData (h : Reloads dialect P Q f g) {t : TypeRef} (ht : P t) :
    readType dialect t.toData = .ok (f t) := by
  simp only [readType, readText, TypeRef.toData, h.type t ht]
  rfl

theorem readOption_type (h : Reloads dialect P Q f g) {t : TypeRef} (ht : P t) :
    readOption (readType dialect) t.toData = .ok (some (f t)) := by
  change (readType dialect t.toData).map some = _
  rw [h.readType_toData ht, Except.map]

theorem readVariable_toData (h : Reloads dialect P Q f g) {v : Variable} (hv : v.Every P Q) :
    readVariable dialect v.toData = .ok (v.rewrite f g) := by
  refine Fills.read ?_ (by decide)
  simp only [List.append_assoc]
  refine
    .one (fun _ => rfl) rfl rfl <|
    .flag (fun _ => rfl) <|
    .flag (fun _ => rfl) ?_
  -- The record so far is written out before it grows: each step copies it once for every field.
  dsimp only
  exact
    .optional (fun _ => rfl) rfl (fun _ => rfl) (fun t ht => h.readOption_type (hv.type t ht))
      Option.map_eq_bind.symm <|
    .optional (fun _ => rfl) rfl isNamed_expression (fun e he => h.value e (hv.value e he)) rfl <|
    .optionalText (fun _ => rfl) rfl
    .done

theorem readParameter_toData (h : Reloads dialect P Q f g) {p : Parameter} (hp : p.Every P Q) :
    readParameter dialect p.toData = .ok (p.rewrite f g) := by
  refine Fills.read ?_ (by decide)
  simp only [List.append_assoc]
  refine
    .optionalText (fun _ => rfl) rfl <|
    .one (fun _ => rfl) rfl rfl <|
    .one (fun _ => rfl) rfl (h.readType_toData hp.type) ?_
  dsimp only
  exact
    .optional (fun _ => rfl) rfl isNamed_expression (fun e he => h.value e (hp.defaultValue e he))
      rfl <|
    .flag (fun _ => rfl)
    .done

theorem onlyType_toData (h : Reloads dialect P Q f g) {t : TypeRef} (ht : P t) (name : String)
    {key : String} (hkey : key ≠ "name") :
    onlyType key [("name", .string name), (key, t.toData)] = some (f t) := by
  have hname : ("name" == key) = false := beq_false_of_ne hkey.symm
  simp only [onlyType, onlyText, List.filter, hname, beq_self_eq_true, TypeRef.toData, h.type t ht]
  rfl

theorem readConstraint_toData (h : Reloads dialect P Q f g) {c : GenericConstraint}
    (hc : P c.type) : readConstraint dialect c.toData = .ok (c.rewrite f) := by
  have hof : constraintOf c.toData = some (c.rewrite f) := by
    cases c with
    | conformance name t =>
      have hname : onlyText "name" [("name", .string name), ("conforms_to", t.toData)] =
        some name := rfl
      have htype := h.onlyType_toData hc name (show "conforms_to" ≠ "name" by decide)
      rw [GenericConstraint.type] at htype
      simp only [GenericConstraint.toData, constraintOf, hname, htype, GenericConstraint.rewrite]
    | sameType name t =>
      have hname : onlyText "name" [("name", .string name), ("same_type", t.toData)] =
        some name := rfl
      have hnone : onlyType "conforms_to" [("name", .string name), ("same_type", t.toData)] =
        none := rfl
      have htype := h.onlyType_toData hc name (show "same_type" ≠ "name" by decide)
      rw [GenericConstraint.type] at htype
      simp only [GenericConstraint.toData, constraintOf, hname, hnone, htype,
        GenericConstraint.rewrite, Option.map_some]
  rw [readConstraint, hof]
  cases c <;> rfl

theorem readFunction_toData (h : Reloads dialect P Q f g) {d : FunctionDecl} (hd : d.Every P Q) :
    readFunction dialect d.toData = .ok (d.rewrite f g) := by
  refine Fills.read ?_ (by decide)
  simp only [List.append_assoc]
  refine
    .one (fun _ => rfl) rfl rfl <|
    .flag (fun _ => rfl) <|
    .texts (fun _ => rfl) rfl ?_
  dsimp only
  refine
    .many (fun _ => rfl) rfl (fun p hp => h.readParameter_toData (hd.parameters p hp)) rfl <|
    .flag (fun _ => rfl) <|
    .flag (fun _ => rfl) ?_
  dsimp only
  refine
    .optional (fun _ => rfl) rfl (fun _ => rfl) (fun t ht => h.readOption_type (hd.returnType t ht))
      Option.map_eq_bind.symm <|
    .many (fun _ => rfl) rfl (fun c hc => h.readConstraint_toData (hd.constraints c hc)) rfl <|
    .optionalText (fun _ => rfl) rfl ?_
  dsimp only
  exact
    .flag (fun _ => rfl) <|
    .flag (fun _ => rfl) <|
    .texts (fun _ => rfl) rfl
    .done

theorem readAlias_toData (h : Reloads dialect P Q f g) {a : TypeAlias} (ha : P a.type) :
    readAlias dialect a.toData = .ok (a.rewrite f) := by
  refine Fills.read ?_ (by decide)
  simp only [List.append_assoc]
  exact
    .one (fun _ => rfl) rfl rfl <|
    .one (fun _ => rfl) rfl (h.readType_toData ha) <|
    .flag (fun _ => rfl)
    .done

/-- Every field of a type declaration, its nested types included. -/
def setTypeDeclField (dialect : Dialect) (key : String) (d : Data) (t : TypeDecl) :
    Except Fault TypeDecl :=
  if key = "nested_types" then
    (readList dialect (readTypeDecl dialect) d).map fun ts => { t with nestedTypes := ts }
  else setTypeDecl dialect key d t

theorem readTypeDecl_eq (d : Data) :
    readTypeDecl dialect d = typeDeclShape.read dialect (setTypeDeclField dialect) d := by
  rw [readTypeDecl]
  rfl

theorem readKind_toText (kind : TypeKind) : readKind dialect (.string kind.toText) = .ok kind := by
  cases kind <;> rfl

mutual
theorem readTypeDecl_toData (h : Reloads dialect P Q f g) : ∀ d : TypeDecl, d.Every P Q →
    readTypeDecl dialect d.toData = .ok (d.rewrite f g)
  | ⟨name, kind, isPublic, conformances, comment, aliases, typeVariables, instanceVariables,
      nested, typeFunctions, functions⟩, .intro hown hnested => by
    have hn := h.readTypeDecls_toData nested hnested
    rw [readTypeDecl_eq, TypeDecl.toData, TypeDecl.eachToData_eq_map]
    refine Fills.read ?_ (by decide)
    simp only [List.append_assoc]
    refine
      .one (fun _ => rfl) rfl rfl <|
      .one (fun _ => rfl) rfl (readKind_toText kind) <|
      .flag (fun _ => rfl) ?_
    dsimp only
    refine
      .many (fun _ => rfl) rfl (fun t ht => h.readType_toData (hown.conformances t ht)) rfl <|
      .optionalText (fun _ => rfl) rfl <|
      .many (fun _ => rfl) rfl (fun a ha => h.readAlias_toData (hown.aliases a ha)) rfl ?_
    dsimp only
    refine
      .many (fun _ => rfl) rfl (fun v hv => h.readVariable_toData (hown.typeVariables v hv)) rfl <|
      .many (fun _ => rfl) rfl (fun v hv => h.readVariable_toData (hown.instanceVariables v hv))
        rfl <|
      .many (fun _ => rfl) rfl hn (TypeDecl.rewriteEach_eq_map f g nested).symm ?_
    dsimp only
    exact
      .many (fun _ => rfl) rfl (fun m hm => h.readFunction_toData (hown.typeFunctions m hm)) rfl <|
      .many (fun _ => rfl) rfl (fun m hm => h.readFunction_toData (hown.functions m hm)) rfl
      .done

theorem readTypeDecls_toData (h : Reloads dialect P Q f g) : ∀ ds : List TypeDecl,
    (∀ d ∈ ds, d.Every P Q) →
    ∀ d ∈ ds, readTypeDecl dialect d.toData = .ok (d.rewrite f g)
  | [], _ => fun d hd => absurd hd List.not_mem_nil
  | d :: ds, hds => fun n hn => by
    have hd := h.readTypeDecl_toData d (hds d List.mem_cons_self)
    have hrest := h.readTypeDecls_toData ds fun m hm => hds m (List.mem_cons_of_mem d hm)
    rcases List.mem_cons.1 hn with rfl | hn
    · exact hd
    · exact hrest n hn
end

/-- What writing and reading makes of single types and values it makes of those in an extension,
and of nothing else. -/
theorem readExtension_toData (h : Reloads dialect P Q f g) {e : Extension} (he : e.Every P Q) :
    readExtension dialect e.toData = .ok (e.rewrite f g) := by
  have hversion : ∀ v ∈ e.minimumVersion,
      readOption (readVersion dialect) v.toData = .ok (some v) := fun v _ => by
    change ((SwiftVersion.parse v.display).mapError Fault.version).map some = _
    rw [SwiftVersion.parse_display_eq]
    rfl
  refine Fills.read ?_ (by decide)
  simp only [List.append_assoc]
  refine
    .one (fun _ => rfl) rfl (h.readType_toData he.extendedType) <|
    .flag (fun _ => rfl) <|
    .many (fun _ => rfl) rfl (fun t ht => h.readType_toData (he.conformances t ht)) rfl ?_
  dsimp only
  refine
    .many (fun _ => rfl) rfl (fun c hc => h.readConstraint_toData (he.constraints c hc)) rfl <|
    .optional (fun _ => rfl) rfl (fun _ => rfl) hversion (Option.bind_fun_some _) <|
    .texts (fun _ => rfl) rfl ?_
  dsimp only
  refine
    .many (fun _ => rfl) rfl (fun d hd => h.readTypeDecl_toData d (he.typeDecls d hd)) rfl <|
    .many (fun _ => rfl) rfl (fun v hv => h.readVariable_toData (he.typeVariables v hv)) rfl <|
    .many (fun _ => rfl) rfl (fun m hm => h.readFunction_toData (he.typeFunctions m hm)) rfl ?_
  dsimp only
  exact
    .many (fun _ => rfl) rfl (fun m hm => h.readFunction_toData (he.functions m hm)) rfl
    .done

end Reloads

theorem reloads_loaded :
    Reloads dialect TypeRef.IsRead (·.isPresent = true) TypeRef.nameVoid some where
  type _ ht := ht.parse_display_eq
  value e he := by rw [readOption_expression, if_pos he]

end Model

/-- The name `Void` in place of every empty tuple, in whatever type of the extension. -/
def Extension.nameVoid (e : Extension) : Extension := e.rewrite TypeRef.nameVoid some

namespace Model

/-- A dumped model loads again, whatever notation it was first loaded from. Only the empty tuple
comes back under its name, and dumping once more gives the same data. -/
theorem dumped_model_reloads {dialect : Dialect} {d : Data} {e : Extension}
    (hd : d.isFinite = true) (h : readExtension dialect d = .ok e) :
    readExtension .json e.toData = .ok e.nameVoid ∧ e.nameVoid.toData = e.toData :=
  ⟨reloads_loaded.readExtension_toData (loaded_of_readExtension hd h),
    Extension.toData_rewrite TypeRef.display_nameVoid e⟩

/-- An extension as the list of its fields, with a type in it whose variable is such a list too and
has a value that does not fit into 64 bits with a sign. -/
def listedExtension : Data :=
  .array [.string "Set<()>", .bool true, .array [] true,
    .array [.table [("name", .string "Element"), ("same_type", .string "[(): A]?")] true] true,
    .string "5.5", .array [] true,
    .array [.table [("name", .string "B"), ("kind", .table [("enum", .null)] true),
      ("nested_types", .array [.table [("functions", .array [] true), ("name", .string "C"),
        ("variables", .array [.array [.string "x", .bool true, .bool false, .string "(A, ())",
          .integer 9223372036854775808] true] true)] true] true)] true] true] true

theorem dumped_model_reloads_listed : listedExtension.isFinite = true ∧
    ∃ e, readExtension .json listedExtension = .ok e ∧
      e.extendedType = .generic "Set" [.tuple []] ∧
      readExtension .json e.toData = .ok e.nameVoid ∧ e.nameVoid.toData = e.toData ∧
      e.nameVoid.extendedType = .generic "Set" [.named "Void"] := by
  have hfinite : listedExtension.isFinite = true := by decide
  have htype : (readExtension .json listedExtension).toOption.map (·.extendedType) =
      some (.generic "Set" [.tuple []]) := by decide +kernel
  obtain ⟨e, he, hextended⟩ := Option.map_eq_some_iff.1 htype
  have hread := ok_of_toOption he
  obtain ⟨hagain, hdata⟩ := dumped_model_reloads hfinite hread
  refine ⟨hfinite, e, hread, hextended, hagain, hdata, ?_⟩
  change e.extendedType.nameVoid = _
  rw [hextended]
  rfl

end Model
end SwiftDecl
