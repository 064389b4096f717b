import SwiftDecl.Model.Reading
import SwiftDecl.Proofs.Model.Parts
import SwiftDecl.Proofs.Model.Records
import SwiftDecl.Proofs.TypeRef.Void

/-!
# SwiftDecl.Proofs.Model.Loaded

What declarations are like that were read from data: their types come from the parser, and no
value in them is written like an absent one.

* `Binary64.isFinite_ofInt` — an integer of 64 bits without a sign becomes a finite double.
* `loaded_of_readExtension` — this holds throughout an extension that was read.
* `header_isRead_of_readExtension` — the types of its header, from data with any doubles.
-/

namespace SwiftDecl

namespace Binary64

theorem isFinite_of_lt_infinityBits {n : Nat} (h : n < infinityBits) :
    (ofSignAndBits false n).isFinite = true := by
  have hbits : (UInt64.ofNat n).toNat = n := by
    rw [UInt64.toNat_ofNat']
    exact Nat.mod_eq_of_lt (Nat.lt_trans h (by decide))
  have hfield : n / fractionModulus < exponentAllOnes := Nat.div_lt_of_lt_mul (by
    rw [Nat.mul_comm]
    exact h)
  have hmod := Nat.mod_le (n / fractionModulus) exponentModulus
  apply decide_eq_true
  change (UInt64.ofNat n).toNat / fractionModulus % exponentModulus < exponentAllOnes
  rw [hbits]
  exact Nat.lt_of_le_of_lt hmod hfield

theorem roundDiv_le (num den : Nat) : roundDiv num den ≤ num / den + 1 := by
  simp only [roundDiv]
  split <;> omega

/-- The whole numbers that need all 64 bits are far below the largest double. -/
theorem isFinite_ofInt {i : Int} (hlow : 9223372036854775808 ≤ i)
    (hhigh : i < 18446744073709551616) : (ofInt i).isFinite = true := by
  obtain ⟨n, rfl⟩ : ∃ n : Nat, i = n := ⟨i.toNat, by omega⟩
  have hn : n ≠ 0 := by omega
  have hlog : n.log2 = 63 := (Nat.log2_eq_iff hn).2 ⟨by omega, by omega⟩
  have hlead : leadingExponent n 1 = 63 := by
    have hone : Nat.log2 1 = 0 := by decide
    have hle : 1 * 9223372036854775808 ≤ n * 1 := by omega
    rw [leadingExponent, hlog, hone]
    exact if_pos hle
  have hround := roundDiv_le n 2048
  have hbits : 1085 * fractionModulus + roundDiv n 2048 < infinityBits := by
    have hf : fractionModulus = 4503599627370496 := rfl
    have hi : infinityBits = 2047 * 4503599627370496 := rfl
    omega
  have hsign : decide ((n : Int) < 0) = false := by simp
  rw [ofInt, hsign, ofRatio]
  simp only [Int.natAbs_natCast, if_neg hn, hlead]
  apply isFinite_of_lt_infinityBits
  refine Nat.lt_of_le_of_lt (Nat.min_le_left _ _) ?_
  have hmul : n * Nat.pow 2 (-(max ((63 : Int) - 52) (-1074))).toNat = n := Nat.mul_one n
  rw [hmul]
  exact hbits

end Binary64

mutual
/-- Every double in the data is finite. JSON has no other doubles. -/
def Data.isFinite : Data → Bool
  | .double x => x.isFinite
  | .array ds _ => Data.isFiniteEach ds
  | .table ms _ => Data.isFiniteMembers ms
  | .tooDeep d => d.isFinite
  | .misnamed d => d.isFinite
  | _ => true

def Data.isFiniteEach : List Data → Bool
  | [] => true
  | d :: ds => d.isFinite && Data.isFiniteEach ds

def Data.isFiniteMembers : List (String × Data) → Bool
  | [] => true
  | (_, d) :: ms => d.isFinite && Data.isFiniteMembers ms
end

theorem Data.isFiniteEach_eq_all (ds : List Data) :
    Data.isFiniteEach ds = ds.all Data.isFinite := by
  induction ds with
  | nil => rfl
  | cons d ds ih => rw [isFiniteEach, ih, List.all_cons]

theorem Data.isFiniteMembers_eq_all (ms : List (String × Data)) :
    Data.isFiniteMembers ms = ms.all fun m => m.2.isFinite := by
  induction ms with
  | nil => rfl
  | cons m ms ih => rw [isFiniteMembers, ih, List.all_cons]

theorem Data.isFinite_of_mem_parts {d x : Data} (h : d.isFinite = true) (hx : x ∈ d.parts) :
    x.isFinite = true := by
  cases d with
  | array ds closed =>
    rw [isFinite, isFiniteEach_eq_all] at h
    exact List.all_eq_true.1 h x hx
  | table ms closed =>
    rw [isFinite, isFiniteMembers_eq_all] at h
    obtain ⟨m, hm, rfl⟩ := List.mem_map.1 hx
    exact List.all_eq_true.1 h m hm
  | _ => exact absurd hx List.not_mem_nil

/-- It is written as something other than an absent value. -/
def Expression.isPresent : Expression → Bool
  | .nil => false
  | .double x => x.isFinite
  | _ => true

namespace Model

variable {dialect : Dialect} {d : Data} {key : String}

theorem isRead_of_readType {t : TypeRef} (h : readType dialect d = .ok t) : t.IsRead := by
  unfold readType at h
  split at h
  · cases h
  · exact ⟨_, ok_of_mapError h⟩

theorem forall_mem_of_readOption {α : Type} {P : α → Prop} {read : Data → Except Fault α}
    {o : Option α} (h : readOption read d = .ok o)
    (hread : d ≠ .null → ∀ a, read d = .ok a → P a) : ∀ a ∈ o, P a := by
  unfold readOption at h
  split at h
  · cases h
    exact fun a ha => absurd ha (Option.not_mem_none a)
  · rename_i hnull
    obtain ⟨a, ha, rfl⟩ := map_eq_ok_iff.1 h
    intro b hb
    cases hb
    exact hread hnull a ha

theorem isPresent_of_readExpression (hd : d.isFinite = true) (hnull : d ≠ .null)
    {e : Expression} (h : readExpression dialect d = .ok e) : e.isPresent = true := by
  unfold readExpression at h
  split at h
  · cases h
  · rename_i hsurvey
    split at h
    · rename_i he
      cases h
      cases d with
      | bool b => cases he; rfl
      | integer i =>
        rw [expressionOf] at he
        split at he
        · cases he; rfl
        · rename_i hbig
          cases he
          have hword : Number.isWord64 i = true := by
            rw [survey] at hsurvey
            split at hsurvey
            · assumption
            · cases hsurvey
          simp only [Number.isInt64, Number.isWord64, Bool.and_eq_true, decide_eq_true_eq]
            at hbig hword
          exact Binary64.isFinite_ofInt (by omega) hword.2
      | double x => cases he; exact hd
      | table ms closed =>
        obtain ⟨s, _, rfl⟩ := Option.map_eq_some_iff.1 he
        rfl
      | string s => cases he; rfl
      | null => exact absurd rfl hnull
      | _ => cases he
    · cases h

theorem isRead_of_onlyType {ms : Members} {t : TypeRef} (h : onlyType key ms = some t) :
    t.IsRead := by
  unfold onlyType at h
  split at h
  · cases h
  · exact ⟨_, ok_of_toOption h⟩

theorem isRead_of_readConstraint {c : GenericConstraint} (h : readConstraint dialect d = .ok c) :
    c.type.IsRead := by
  unfold readConstraint at h
  split at h
  · cases h
  · split at h
    · rename_i hc
      cases h
      unfold constraintOf at hc
      split at hc
      · split at hc
        · cases hc
        · split at hc
          · rename_i ht
            cases hc
            exact isRead_of_onlyType ht
          · obtain ⟨t, ht, rfl⟩ := Option.map_eq_some_iff.1 hc
            exact isRead_of_onlyType ht
      · cases hc
    · cases h

end Model

/-! ## Records -/

/-- Every type in it comes from the parser, and every value is there. -/
abbrev Variable.Loaded : Variable → Prop := Variable.Every TypeRef.IsRead (·.isPresent = true)

abbrev Parameter.Loaded : Parameter → Prop := Parameter.Every TypeRef.IsRead (·.isPresent = true)

abbrev FunctionDecl.Loaded : FunctionDecl → Prop :=
  FunctionDecl.Every TypeRef.IsRead (·.isPresent = true)

abbrev TypeDecl.Loaded : TypeDecl → Prop := TypeDecl.Every TypeRef.IsRead (·.isPresent = true)

abbrev Extension.Loaded : Extension → Prop := Extension.Every TypeRef.IsRead (·.isPresent = true)

namespace Model

variable {dialect : Dialect} {d : Data} {key : String}

theorem loaded_of_setVariable (hd : d.isFinite = true) {v w : Variable} (hv : v.Loaded)
    (h : setVariable dialect key d v = .ok w) : w.Loaded := by
  unfold setVariable at h
  split at h
  case h_4 =>
    obtain ⟨type, htype, rfl⟩ := map_eq_ok_iff.1 h
    exact ⟨forall_mem_of_readOption htype fun _ _ => isRead_of_readType, hv.value⟩
  case h_5 =>
    obtain ⟨value, hvalue, rfl⟩ := map_eq_ok_iff.1 h
    exact ⟨hv.type, forall_mem_of_readOption hvalue fun hnull _ =>
      isPresent_of_readExpression hd hnull⟩
  case h_7 =>
    cases h
    exact hv
  all_goals
    obtain ⟨x, _, rfl⟩ := map_eq_ok_iff.1 h
    exact ⟨hv.type, hv.value⟩

theorem loaded_of_readVariable (hd : d.isFinite = true) {v : Variable}
    (h : readVariable dialect d = .ok v) : v.Loaded := by
  have hblank : variableShape.blank.Loaded :=
    ⟨fun t ht => absurd ht (Option.not_mem_none t), fun e he => absurd he (Option.not_mem_none e)⟩
  obtain ⟨_, hv, -⟩ := Shape.invariant_of_readWith (I := fun _ v => Variable.Loaded v) h hblank
    fun key x _ _ v w hx hv => loaded_of_setVariable (Data.isFinite_of_mem_parts hd hx) hv
  exact hv

/-- The type of a parameter need not have been read yet. -/
structure Parameter.Loading (seen : List String) (p : Parameter) : Prop where
  type : "type" ∈ seen → p.type.IsRead
  defaultValue : ∀ e ∈ p.defaultValue, e.isPresent = true

theorem loading_of_setParameter (hd : d.isFinite = true) {seen : List String} {p q : Parameter}
    (hp : Parameter.Loading seen p) (h : setParameter dialect key d p = .ok q) :
    Parameter.Loading (key :: seen) q := by
  have hread : "type" ≠ key → "type" ∈ key :: seen → p.type.IsRead := fun hne hmem =>
    hp.type (List.mem_of_ne_of_mem hne hmem)
  unfold setParameter at h
  split at h
  case h_3 =>
    obtain ⟨type, htype, rfl⟩ := map_eq_ok_iff.1 h
    exact ⟨fun _ => isRead_of_readType htype, hp.defaultValue⟩
  case h_4 =>
    obtain ⟨value, hvalue, rfl⟩ := map_eq_ok_iff.1 h
    exact ⟨hread (by decide), forall_mem_of_readOption hvalue fun hnull _ =>
      isPresent_of_readExpression hd hnull⟩
  case h_6 =>
    rename_i hkey _ _
    cases h
    exact ⟨hread (hkey ·.symm), hp.defaultValue⟩
  all_goals
    obtain ⟨x, _, rfl⟩ := map_eq_ok_iff.1 h
    exact ⟨hread (by decide), hp.defaultValue⟩

theorem loaded_of_readParameter (hd : d.isFinite = true) {p : Parameter}
    (h : readParameter dialect d = .ok p) : p.Loaded := by
  have hblank : Parameter.Loading [] parameterShape.blank :=
    ⟨fun hmem => absurd hmem List.not_mem_nil, fun e he => absurd he (Option.not_mem_none e)⟩
  obtain ⟨seen, hp, hrequired⟩ := Shape.invariant_of_readWith h hblank
    fun key x _ _ p q hx hp => loading_of_setParameter (Data.isFinite_of_mem_parts hd hx) hp
  have hseen : "type" ∈ seen := hrequired ⟨"type", true⟩ (by simp [parameterShape]) rfl
  exact ⟨hp.type hseen, hp.defaultValue⟩

theorem loaded_of_setFunction (hd : d.isFinite = true) {f g : FunctionDecl} (hf : f.Loaded)
    (h : setFunction dialect key d f = .ok g) : g.Loaded := by
  unfold setFunction at h
  split at h
  case h_4 =>
    obtain ⟨parameters, hparameters, rfl⟩ := map_eq_ok_iff.1 h
    refine ⟨forall_mem_of_readList hparameters fun x hx p => ?_, hf.returnType, hf.constraints⟩
    exact loaded_of_readParameter (Data.isFinite_of_mem_parts hd hx)
  case h_7 =>
    obtain ⟨type, htype, rfl⟩ := map_eq_ok_iff.1 h
    exact ⟨hf.parameters, forall_mem_of_readOption htype fun _ _ => isRead_of_readType,
      hf.constraints⟩
  case h_8 =>
    obtain ⟨constraints, hconstraints, rfl⟩ := map_eq_ok_iff.1 h
    exact ⟨hf.parameters, hf.returnType,
      forall_mem_of_readList hconstraints fun _ _ _ => isRead_of_readConstraint⟩
  case h_13 =>
    cases h
    exact hf
  all_goals
    obtain ⟨x, _, rfl⟩ := map_eq_ok_iff.1 h
    exact ⟨hf.parameters, hf.returnType, hf.constraints⟩

theorem loaded_of_readFunction (hd : d.isFinite = true) {f : FunctionDecl}
    (h : readFunction dialect d = .ok f) : f.Loaded := by
  have hblank : functionShape.blank.Loaded :=
    ⟨fun p hp => absurd hp List.not_mem_nil, fun t ht => absurd ht (Option.not_mem_none t),
      fun c hc => absurd hc List.not_mem_nil⟩
  obtain ⟨_, hf, -⟩ := Shape.invariant_of_readWith (I := fun _ f => FunctionDecl.Loaded f) h hblank
    fun key x _ _ f g hx hf => loaded_of_setFunction (Data.isFinite_of_mem_parts hd hx) hf
  exact hf

theorem isRead_of_setAlias {seen : List String} {a b : TypeAlias}
    (ha : "type" ∈ seen → a.type.IsRead) (h : setAlias dialect key d a = .ok b) :
    "type" ∈ key :: seen → b.type.IsRead := by
  intro hmem
  unfold setAlias at h
  split at h
  case h_2 =>
    obtain ⟨type, htype, rfl⟩ := map_eq_ok_iff.1 h
    exact isRead_of_readType htype
  case h_4 =>
    rename_i hkey _
    cases h
    exact ha (List.mem_of_ne_of_mem (hkey ·.symm) hmem)
  all_goals
    obtain ⟨x, _, rfl⟩ := map_eq_ok_iff.1 h
    exact ha (List.mem_of_ne_of_mem (by decide) hmem)

theorem isRead_of_readAlias {a : TypeAlias} (h : readAlias dialect d = .ok a) : a.type.IsRead := by
  obtain ⟨seen, ha, hrequired⟩ := Shape.invariant_of_readWith
    (I := fun seen a => "type" ∈ seen → a.type.IsRead) h
    (fun hmem => absurd hmem List.not_mem_nil)
    fun key x _ seen a b _ ha => isRead_of_setAlias ha
  exact ha (hrequired ⟨"type", true⟩ (by simp [aliasShape]) rfl)

theorem loaded_of_setTypeDecl (hd : d.isFinite = true) {t u : TypeDecl} (ht : t.Loaded)
    (h : setTypeDecl dialect key d t = .ok u) : u.Loaded := by
  cases ht with
  | intro hown hnested =>
    have hvariables : ∀ vs, readList dialect (readVariable dialect) d = .ok vs →
        ∀ v ∈ vs, Variable.Loaded v := fun vs hvs =>
      forall_mem_of_readList hvs fun x hx _ =>
        loaded_of_readVariable (Data.isFinite_of_mem_parts hd hx)
    have hfunctions : ∀ fs, readList dialect (readFunction dialect) d = .ok fs →
        ∀ f ∈ fs, FunctionDecl.Loaded f := fun fs hfs =>
      forall_mem_of_readList hfs fun x hx _ =>
        loaded_of_readFunction (Data.isFinite_of_mem_parts hd hx)
    unfold setTypeDecl at h
    split at h
    case h_4 =>
      obtain ⟨types, htypes, rfl⟩ := map_eq_ok_iff.1 h
      exact .intro { hown with
        conformances := forall_mem_of_readList htypes fun _ _ _ => isRead_of_readType } hnested
    case h_6 =>
      obtain ⟨aliases, haliases, rfl⟩ := map_eq_ok_iff.1 h
      exact .intro { hown with
        aliases := forall_mem_of_readList haliases fun _ _ _ => isRead_of_readAlias } hnested
    case h_7 =>
      obtain ⟨vs, hvs, rfl⟩ := map_eq_ok_iff.1 h
      exact .intro { hown with typeVariables := hvariables vs hvs } hnested
    case h_8 =>
      obtain ⟨vs, hvs, rfl⟩ := map_eq_ok_iff.1 h
      exact .intro { hown with instanceVariables := hvariables vs hvs } hnested
    case h_9 =>
      obtain ⟨fs, hfs, rfl⟩ := map_eq_ok_iff.1 h
      exact .intro { hown with typeFunctions := hfunctions fs hfs } hnested
    case h_10 =>
      obtain ⟨fs, hfs, rfl⟩ := map_eq_ok_iff.1 h
      exact .intro { hown with functions := hfunctions fs hfs } hnested
    case h_11 =>
      cases h
      exact .intro hown hnested
    all_goals
      obtain ⟨x, _, rfl⟩ := map_eq_ok_iff.1 h
      exact .intro { hown with } hnested

/-- By recursion on the data, as the types nested in a type are read. -/
theorem loaded_of_readTypeDecl (d : Data) (hd : d.isFinite = true) {t : TypeDecl}
    (h : readTypeDecl dialect d = .ok t) : t.Loaded := by
  have hblank : typeDeclShape.blank.Loaded :=
    .intro ⟨fun _ h => absurd h List.not_mem_nil, fun _ h => absurd h List.not_mem_nil,
      fun _ h => absurd h List.not_mem_nil, fun _ h => absurd h List.not_mem_nil,
      fun _ h => absurd h List.not_mem_nil, fun _ h => absurd h List.not_mem_nil⟩
      fun _ h => absurd h List.not_mem_nil
  rw [readTypeDecl] at h
  obtain ⟨_, ht, -⟩ := Shape.invariant_of_readWith (I := fun _ t => TypeDecl.Loaded t) h hblank
    fun key x hlt _ t u hx ht hu => by
      have hfinite := Data.isFinite_of_mem_parts hd hx
      split at hu
      · obtain ⟨ts, hts, rfl⟩ := map_eq_ok_iff.1 hu
        have hnested : ∀ n ∈ ts, TypeDecl.Loaded n :=
          forall_mem_of_readListWith hts fun y hy n hpart =>
            loaded_of_readTypeDecl y (Data.isFinite_of_mem_parts hfinite hpart)
        cases ht with
        | intro hown _ => exact .intro { hown with } hnested
      · exact loaded_of_setTypeDecl hfinite ht hu
  exact ht
termination_by sizeOf d

/-- The extended type need not have been read yet. -/
structure Extension.Loading (seen : List String) (e : Extension) : Prop
    extends e.EveryMember TypeRef.IsRead (·.isPresent = true) where
  extendedType : "extended_type" ∈ seen → e.extendedType.IsRead

theorem loading_of_setExtension (hd : d.isFinite = true) {seen : List String} {e g : Extension}
    (he : Extension.Loading seen e) (h : setExtension dialect key d e = .ok g) :
    Extension.Loading (key :: seen) g := by
  have hmembers := he.toEveryMember
  have hextended : "extended_type" ≠ key → "extended_type" ∈ key :: seen →
      e.extendedType.IsRead := fun hne hmem => he.extendedType (List.mem_of_ne_of_mem hne hmem)
  have hfunctions : ∀ fs, readList dialect (readFunction dialect) d = .ok fs →
      ∀ f ∈ fs, FunctionDecl.Loaded f := fun fs hfs =>
    forall_mem_of_readList hfs fun x hx _ =>
      loaded_of_readFunction (Data.isFinite_of_mem_parts hd hx)
  unfold setExtension at h
  split at h
  case h_1 =>
    obtain ⟨type, htype, rfl⟩ := map_eq_ok_iff.1 h
    exact { hmembers with extendedType := fun _ => isRead_of_readType htype }
  case h_11 =>
    rename_i hkey _ _ _ _ _ _ _ _ _
    cases h
    exact { hmembers with extendedType := hextended (hkey ·.symm) }
  all_goals
    obtain ⟨x, hx, rfl⟩ := map_eq_ok_iff.1 h
    replace hextended := hextended (by decide)
  case h_3 =>
    exact { hmembers with
      extendedType := hextended
      conformances := forall_mem_of_readList hx fun _ _ _ => isRead_of_readType }
  case h_4 =>
    exact { hmembers with
      extendedType := hextended
      constraints := forall_mem_of_readList hx fun _ _ _ => isRead_of_readConstraint }
  case h_7 =>
    exact { hmembers with
      extendedType := hextended
      typeDecls := forall_mem_of_readList hx fun y hy _ =>
        loaded_of_readTypeDecl y (Data.isFinite_of_mem_parts hd hy) }
  case h_8 =>
    exact { hmembers with
      extendedType := hextended
      typeVariables := forall_mem_of_readList hx fun y hy _ =>
        loaded_of_readVariable (Data.isFinite_of_mem_parts hd hy) }
  case h_9 => exact { hmembers with extendedType := hextended, typeFunctions := hfunctions x hx }
  case h_10 => exact { hmembers with extendedType := hextended, functions := hfunctions x hx }
  all_goals exact { hmembers with extendedType := hextended }

theorem loaded_of_readExtension (hd : d.isFinite = true) {e : Extension}
    (h : readExtension dialect d = .ok e) : e.Loaded := by
  have hblank : Extension.Loading [] extensionShape.blank :=
    { extendedType := fun hmem => absurd hmem List.not_mem_nil
      conformances := fun _ h => absurd h List.not_mem_nil
      constraints := fun _ h => absurd h List.not_mem_nil
      typeDecls := fun _ h => absurd h List.not_mem_nil
      typeVariables := fun _ h => absurd h List.not_mem_nil
      typeFunctions := fun _ h => absurd h List.not_mem_nil
      functions := fun _ h => absurd h List.not_mem_nil }
  obtain ⟨seen, he, hrequired⟩ := Shape.invariant_of_readWith h hblank
    fun key x _ _ e g hx he => loading_of_setExtension (Data.isFinite_of_mem_parts hd hx) he
  have hseen : "extended_type" ∈ seen :=
    hrequired ⟨"extended_type", true⟩ (by simp [extensionShape]) rfl
  exact { he.toEveryMember with extendedType := he.extendedType hseen }

/-- The types in the header of an extension come from the parser, whatever values its members have.
The extended type need not have been read yet. -/
structure Extension.HeaderLoading (seen : List String) (e : Extension) : Prop where
  extendedType : "extended_type" ∈ seen → e.extendedType.IsRead
  conformances : ∀ t ∈ e.conformances, t.IsRead

theorem headerLoading_of_setExtension {seen : List String} {e g : Extension}
    (he : Extension.HeaderLoading seen e) (h : setExtension dialect key d e = .ok g) :
    Extension.HeaderLoading (key :: seen) g := by
  have hextended : "extended_type" ≠ key → "extended_type" ∈ key :: seen →
      e.extendedType.IsRead := fun hne hmem => he.extendedType (List.mem_of_ne_of_mem hne hmem)
  unfold setExtension at h
  split at h
  case h_1 =>
    obtain ⟨type, htype, rfl⟩ := map_eq_ok_iff.1 h
    exact ⟨fun _ => isRead_of_readType htype, he.conformances⟩
  case h_3 =>
    obtain ⟨types, htypes, rfl⟩ := map_eq_ok_iff.1 h
    exact ⟨hextended (by decide), forall_mem_of_readList htypes fun _ _ _ => isRead_of_readType⟩
  case h_11 =>
    rename_i hkey _ _ _ _ _ _ _ _ _
    cases h
    exact ⟨hextended (hkey ·.symm), he.conformances⟩
  all_goals
    obtain ⟨x, _, rfl⟩ := map_eq_ok_iff.1 h
    exact ⟨hextended (by decide), he.conformances⟩

theorem header_isRead_of_readExtension {e : Extension} (h : readExtension dialect d = .ok e) :
    e.extendedType.IsRead ∧ ∀ t ∈ e.conformances, t.IsRead := by
  have hblank : Extension.HeaderLoading [] extensionShape.blank :=
    ⟨fun hmem => absurd hmem List.not_mem_nil, fun _ h => absurd h List.not_mem_nil⟩
  obtain ⟨seen, he, hrequired⟩ := Shape.invariant_of_readWith h hblank
    fun key x _ _ e g _ he => headerLoading_of_setExtension he
  have hseen : "extended_type" ∈ seen :=
    hrequired ⟨"extended_type", true⟩ (by simp [extensionShape]) rfl
  exact ⟨he.extendedType hseen, he.conformances⟩

end Model
end SwiftDecl
