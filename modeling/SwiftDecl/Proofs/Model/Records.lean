import SwiftDecl.Model.Shape

/-!
# SwiftDecl.Proofs.Model.Records

Reading lists and records of any kind. What each part is read as carries over to the whole, in both
directions: from a reading that went well to its parts, and from the parts to the reading of a
table that was written field by field.

* `Shape.invariant_of_readWith` — what every field keeps holds of a record that was read, and no
  required field was left out.
* `Shape.Fills.read` — a table of the values of fields, in their order, is read as what they make
  of the blank record.
-/

namespace SwiftDecl

/-- What stands directly in an array or a table. -/
def Data.parts : Data → List Data
  | .array ds _ => ds
  | .table ms _ => ms.map Prod.snd
  | _ => []

/-- It does not stand under a key that has no value. -/
def Data.isNamed : Data → Bool
  | .misnamed _ => false
  | _ => true

section

variable {ε α : Type} {x : Except ε α} {a : α}

theorem ok_of_toOption (h : x.toOption = some a) : x = .ok a := by
  cases x with
  | error e => cases h
  | ok b => exact congrArg _ (Option.some.inj h)

theorem ok_of_mapError {ε' : Type} {f : ε → ε'} (h : x.mapError f = .ok a) : x = .ok a := by
  cases x with
  | error e => cases h
  | ok b => exact congrArg _ (Except.ok.inj h)

theorem map_eq_ok_iff {β : Type} {f : α → β} {b : β} :
    x.map f = .ok b ↔ ∃ a, x = .ok a ∧ f a = b := by
  cases x <;> simp [Except.map]

end

namespace Model

theorem forall_mem_of_readEach {α : Type} {P : α → Prop} {ds : List Data}
    {read : (d : Data) → d ∈ ds → Except Fault α} {as : List α} (h : readEach ds read = .ok as)
    (hread : ∀ d hd a, read d hd = .ok a → P a) : ∀ a ∈ as, P a := by
  induction ds generalizing as with
  | nil =>
    cases h
    exact fun a ha => absurd ha List.not_mem_nil
  | cons d ds ih =>
    rw [readEach] at h
    split at h
    · cases h
    · rename_i a ha
      split at h
      · cases h
      · rename_i rest hrest
        cases h
        intro b hb
        rcases List.mem_cons.1 hb with rfl | hb
        · exact hread d _ _ ha
        · exact ih hrest (fun x hx => hread x (.tail _ hx)) b hb

theorem forall_mem_of_readListWith {α : Type} {P : α → Prop} {dialect : Dialect} {d : Data}
    {read : (x : Data) → sizeOf x < sizeOf d → Except Fault α} {as : List α}
    (h : readListWith dialect d read = .ok as)
    (hread : ∀ x hx a, x ∈ d.parts → read x hx = .ok a → P a) : ∀ a ∈ as, P a := by
  unfold readListWith at h
  split at h
  · split at h
    · cases h
    · rename_i hds
      split at h
      · cases h
        exact forall_mem_of_readEach hds fun x hx a => hread x _ a hx
      · cases h
  · cases h
  · cases h

theorem forall_mem_of_readList {α : Type} {P : α → Prop} {dialect : Dialect}
    {read : Data → Except Fault α} {d : Data} {as : List α} (h : readList dialect read d = .ok as)
    (hread : ∀ x ∈ d.parts, ∀ a, read x = .ok a → P a) : ∀ a ∈ as, P a :=
  forall_mem_of_readListWith h fun x _ a hx => hread x hx a

theorem readEach_map {α β : Type} {read : Data → Except Fault β} {toData : α → Data} {g : α → β}
    {xs : List α} (h : ∀ x ∈ xs, read (toData x) = .ok (g x)) :
    (readEach (xs.map toData) fun d _ => read d) = .ok (xs.map g) := by
  induction xs with
  | nil => rfl
  | cons x xs ih =>
    have hrest := ih fun y hy => h y (List.mem_cons_of_mem _ hy)
    change (readEach (toData x :: xs.map toData) fun d _ => read d) = _
    simp only [readEach, h x List.mem_cons_self, hrest, List.map_cons]

theorem readList_map {α β : Type} {read : Data → Except Fault β} {toData : α → Data} {g : α → β}
    {xs : List α} (dialect : Dialect) (h : ∀ x ∈ xs, read (toData x) = .ok (g x)) :
    readList dialect read (.array (xs.map toData) true) = .ok (xs.map g) := by
  simp only [readList, readListWith, readEach_map h, if_true]

namespace Shape

variable {α β γ : Type} {dialect : Dialect} {shape : Shape α}

theorem readMembers_cons {key : String} {d : Data} {ms : Members}
    {set : (k : String) → (x : Data) → (k, x) ∈ (key, d) :: ms → α → Except Fault α}
    (hd : d.isNamed = true) (seen : List String) (a : α) :
    readMembers dialect shape ((key, d) :: ms) set seen a =
      if key ∈ shape.names then
        if key ∈ seen then .error (.duplicateField key)
        else
          match set key d (.head _) a with
          | .error e => .error e
          | .ok b => readMembers dialect shape ms (fun k x h => set k x (.tail _ h)) (key :: seen) b
      else if shape.isStrict then .error (.unknownField key shape.names)
      else
        match skip dialect d with
        | .error e => .error e
        | .ok () => readMembers dialect shape ms (fun k x h => set k x (.tail _ h)) seen a := by
  cases d with
  | misnamed d => cases hd
  | _ => rfl

variable {I : List String → α → Prop}

theorem invariant_of_readMembers {ms : Members}
    {set : (key : String) → (d : Data) → (key, d) ∈ ms → α → Except Fault α}
    {seen last : List String} {a b : α}
    (h : readMembers dialect shape ms set seen a = .ok (last, b)) (ha : I seen a)
    (hset : ∀ key d hd seen a b, I seen a → set key d hd a = .ok b → I (key :: seen) b) :
    I last b := by
  induction ms generalizing seen a with
  | nil =>
    cases h
    exact ha
  | cons m ms ih =>
    have hrest := fun k x (hx : (k, x) ∈ ms) => hset k x (.tail _ hx)
    obtain ⟨key, d⟩ := m
    cases hd : d.isNamed with
    | false =>
      cases d with
      | misnamed d => cases h
      | _ => cases hd
    | true =>
      rw [readMembers_cons hd] at h
      split at h
      · split at h
        · cases h
        · split at h
          · cases h
          · rename_i hb
            exact ih h (hset _ _ _ _ _ _ ha hb) hrest
      · split at h
        · cases h
        · split at h
          · cases h
          · exact ih h ha hrest

theorem not_isRequired_of_firstRequired {fs : List Field} {index : Nat}
    (h : firstRequired fs index = none) : ∀ f ∈ fs, f.isRequired = false := by
  induction fs generalizing index with
  | nil => exact fun f hf => absurd hf List.not_mem_nil
  | cons f fs ih =>
    rw [firstRequired] at h
    split at h
    · cases h
    · rename_i hf
      intro g hg
      rcases List.mem_cons.1 hg with rfl | hg
      · exact Bool.eq_false_iff.2 hf
      · exact ih h g hg

theorem invariant_of_readPositions {closed : Bool} {fs : List Field} {ds : List Data}
    {set : (key : String) → (d : Data) → d ∈ ds → α → Except Fault α} {index : Nat}
    {seen : List String} {a b : α}
    (h : readPositions dialect shape closed fs ds set index a = .ok b) (ha : I seen a)
    (hset : ∀ key d hd seen a b, I seen a → set key d hd a = .ok b → I (key :: seen) b) :
    ∃ last, I last b ∧ seen ⊆ last ∧ ∀ f ∈ fs, f.isRequired = true → f.name ∈ last := by
  induction fs generalizing ds index seen a with
  | nil =>
    refine ⟨seen, ?_, fun _ => id, fun f hf => absurd hf List.not_mem_nil⟩
    unfold readPositions at h
    split at h
    · split at h
      · cases h
        exact ha
      · cases h
    · cases h
      exact ha
  | cons f fs ih =>
    cases ds with
    | nil =>
      rw [readPositions] at h
      split at h
      · cases h
      · split at h
        · cases h
        · rename_i hfirst
          cases h
          have hnone := not_isRequired_of_firstRequired hfirst
          exact ⟨seen, ha, fun _ => id, fun g hg hr => by simp [hnone g hg] at hr⟩
    | cons d ds =>
      rw [readPositions] at h
      split at h
      · cases h
      · rename_i hb
        obtain ⟨last, hlast, hseen, hfs⟩ := ih h (hset _ _ _ _ _ _ ha hb) fun k x hx =>
          hset k x (.tail _ hx)
        refine ⟨last, hlast, fun k hk => hseen (.tail _ hk), fun g hg hr => ?_⟩
        rcases List.mem_cons.1 hg with rfl | hg
        · exact hseen (.head _)
        · exact hfs g hg hr

theorem missing_eq_none_iff {seen : List String} : shape.missing seen = none ↔
    ∀ f ∈ shape.fields, f.isRequired = true → f.name ∈ seen := by
  simp [missing]

/-- What holds of the blank record and is kept by every field holds of what is read, and the
fields that were read are all that must be there. -/
theorem invariant_of_readWith {d : Data}
    {set : (key : String) → (x : Data) → sizeOf x < sizeOf d → α → Except Fault α} {a : α}
    (h : shape.readWith dialect d set = .ok a) (hblank : I [] shape.blank)
    (hset : ∀ key x hx seen a b, x ∈ d.parts → I seen a → set key x hx a = .ok b →
      I (key :: seen) b) :
    ∃ seen, I seen a ∧ ∀ f ∈ shape.fields, f.isRequired = true → f.name ∈ seen := by
  unfold readWith at h
  split at h
  · split at h
    · cases h
    · rename_i seen record hms
      split at h
      · cases h
      · split at h
        · cases h
        · rename_i hmissing
          cases h
          refine ⟨seen, invariant_of_readMembers hms hblank ?_, missing_eq_none_iff.1 hmissing⟩
          exact fun key x hx seen a b => hset key x _ seen a b (List.mem_map_of_mem hx)
  · obtain ⟨seen, hI, -, hfields⟩ := invariant_of_readPositions h hblank
      fun key x hx seen a b => hset key x _ seen a b hx
    exact ⟨seen, hI, hfields⟩
  · rw [readDateTime] at h
    split at h
    · cases h
    · split at h
      · cases h
      · rename_i hmissing
        cases h
        exact ⟨[], hblank, missing_eq_none_iff.1 hmissing⟩
  · cases h
  · cases h

/-! ## Reading what was written field by field -/

variable {set : String → Data → α → Except Fault α}

/-- The members are values of the fields, in their order and with every required one, and setting
one after the other makes the second record of the first. -/
inductive Fills (set : String → Data → α → Except Fault α) :
    List Field → Members → α → α → Prop
  | done {a : α} : Fills set [] [] a a
  | skip {name : String} {fs : List Field} {ms : Members} {a b : α} :
    Fills set fs ms a b → Fills set (⟨name, false⟩ :: fs) ms a b
  | take {f : Field} {d : Data} {fs : List Field} {ms : Members} {a b c : α} :
    d.isNamed = true → set f.name d a = .ok b → Fills set fs ms b c →
    Fills set (f :: fs) ((f.name, d) :: ms) a c

namespace Fills

variable {key : String} {required : Bool} {fs : List Field} {ms : Members} {a b : α}

theorem one {read : Data → Except Fault β} {put : β → α} {d : Data} {x : β}
    (hset : ∀ d, set key d a = (read d).map put) (hd : d.isNamed = true) (hread : read d = .ok x)
    (rest : Fills set fs ms (put x) b) :
    Fills set (⟨key, required⟩ :: fs) (Members.one key d ++ ms) a b :=
  .take hd ((hset d).trans (by rw [hread, Except.map])) rest

theorem flag {put : Bool → α} {x : Bool} (hset : ∀ d, set key d a = (readBool dialect d).map put)
    (rest : Fills set fs ms (put x) b) :
    Fills set (⟨key, false⟩ :: fs) (Members.flag key x ++ ms) a b :=
  .one (d := .bool x) hset rfl rfl rest

/-- An optional value, which may be written like an absent one. -/
theorem optional {read : Data → Except Fault γ} {put : Option γ → α} {o : Option β}
    {toData : β → Data} {g : β → Option γ} {last : Option γ}
    (hset : ∀ d, set key d a = (readOption read d).map put) (hnone : put none = a)
    (hd : ∀ x, (toData x).isNamed = true)
    (hread : ∀ x ∈ o, readOption read (toData x) = .ok (g x)) (hlast : o.bind g = last)
    (rest : Fills set fs ms (put last) b) :
    Fills set (⟨key, false⟩ :: fs) (Members.optional key o toData ++ ms) a b := by
  subst hlast
  cases o with
  | none => exact .skip (hnone ▸ rest)
  | some x => exact .one hset (hd x) (hread x rfl) rest

theorem optionalText {put : Option String → α} {o : Option String}
    (hset : ∀ d, set key d a = (readOption (readText dialect) d).map put) (hnone : put none = a)
    (rest : Fills set fs ms (put o) b) :
    Fills set (⟨key, false⟩ :: fs) (Members.optional key o .string ++ ms) a b :=
  .optional hset hnone (fun _ => rfl) (fun _ _ => rfl) (Option.bind_fun_some o) rest

theorem many {read : Data → Except Fault γ} {put : List γ → α} {xs : List β} {toData : β → Data}
    {g : β → γ} {last : List γ} (hset : ∀ d, set key d a = (readList dialect read d).map put)
    (hnil : put [] = a) (hread : ∀ x ∈ xs, read (toData x) = .ok (g x)) (hlast : xs.map g = last)
    (rest : Fills set fs ms (put last) b) :
    Fills set (⟨key, false⟩ :: fs) (Members.many key xs toData ++ ms) a b := by
  subst hlast
  have hxs := readList_map dialect hread
  cases xs with
  | nil => exact .skip (hnil ▸ rest)
  | cons x xs => exact .one hset rfl hxs rest

theorem texts {put : List String → α} {xs : List String}
    (hset : ∀ d, set key d a = (readList dialect (readText dialect) d).map put)
    (hnil : put [] = a) (rest : Fills set fs ms (put xs) b) :
    Fills set (⟨key, false⟩ :: fs) (Members.many key xs .string ++ ms) a b :=
  .many hset hnil (fun _ _ => rfl) (List.map_id' xs) rest

theorem exists_readMembers (dialect : Dialect) (shape : Shape α) (h : Fills set fs ms a b)
    {seen : List String}
    (hknown : ∀ f ∈ fs, f.name ∈ shape.names) (hnew : ∀ f ∈ fs, f.name ∉ seen)
    (hdistinct : (fs.map (·.name)).Nodup) :
    ∃ last, readMembers dialect shape ms (fun k d _ => set k d) seen a = .ok (last, b) ∧
      seen ⊆ last ∧ ∀ f ∈ fs, f.isRequired = true → f.name ∈ last := by
  induction h generalizing seen with
  | done => exact ⟨seen, rfl, fun _ => id, fun f hf => absurd hf List.not_mem_nil⟩
  | skip _ ih =>
    obtain ⟨last, hread, hseen, hfs⟩ := ih (fun f hf => hknown f (.tail _ hf))
      (fun f hf => hnew f (.tail _ hf)) (List.nodup_cons.1 hdistinct).2
    refine ⟨last, hread, hseen, fun f hf hr => ?_⟩
    rcases List.mem_cons.1 hf with rfl | hf
    · cases hr
    · exact hfs f hf hr
  | @take f d fs ms a b c hd hset _ ih =>
    rw [List.map_cons, List.nodup_cons] at hdistinct
    have hnew' : ∀ g ∈ fs, g.name ∉ f.name :: seen := fun g hg hmem => by
      rcases List.mem_cons.1 hmem with he | hmem
      · exact hdistinct.1 (he ▸ List.mem_map_of_mem hg)
      · exact hnew g (.tail _ hg) hmem
    obtain ⟨last, hread, hseen, hfs⟩ := ih (fun g hg => hknown g (.tail _ hg)) hnew' hdistinct.2
    refine ⟨last, ?_, fun k hk => hseen (.tail _ hk), fun g hg hr => ?_⟩
    · rw [readMembers_cons hd, if_pos (hknown f (.head _)), if_neg (hnew f (.head _)), hset]
      exact hread
    · rcases List.mem_cons.1 hg with rfl | hg
      · exact hseen (.head _)
      · exact hfs g hg hr

theorem read (h : Fills set shape.fields (ms ++ []) shape.blank b)
    (hdistinct : shape.names.Nodup) : shape.read dialect set (.table ms true) = .ok b := by
  rw [List.append_nil] at h
  obtain ⟨last, hread, -, hrequired⟩ := h.exists_readMembers dialect shape
    (fun f hf => List.mem_map_of_mem hf) (fun _ _ => List.not_mem_nil) hdistinct
  simp only [Shape.read, readWith, hread, missing_eq_none_iff.2 hrequired]
  rfl

end Fills
end Shape
end Model
end SwiftDecl
