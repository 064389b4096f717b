import SwiftDecl.Proofs.Emit.Visibility
import SwiftDecl.Proofs.Manifest.Escaping
import SwiftDecl.Proofs.Text.Pieces

/-!
# SwiftDecl.Proofs.Emit.GenericParameters

The spelling of generic parameters. In the signature of a function they stand as they were given, in
its `where` clause as the renderer spells them.

* `separated_inj` — a separator with a character that is in none of the items keeps them apart.
* `signature_eq`, `constraint_eq` — where the spellings stand.
* `generic_parameters_spelled_iff` — when both are the same.
-/

namespace SwiftDecl

open Line (flat deeper)

namespace Text

theorem count_separated (c : Char) (sep : String) : ∀ items : List String,
    (separated sep items).toList.count c =
      (items.flatMap String.toList).count c + (items.length - 1) * sep.toList.count c
  | [] => by simp [separated]
  | [a] => by simp [separated]
  | a :: b :: rest => by
    have hrest := count_separated c sep (b :: rest)
    simp only [separated, String.toList_append, List.count_append, hrest, List.flatMap_cons,
      List.length_cons, Nat.add_sub_cancel, Nat.add_mul, Nat.one_mul]
    omega

/-- The first occurrence of the character is the first one in the separator. -/
theorem separated_inj {sep : String} {c : Char} (hc : c ∈ sep.toList) :
    ∀ {as bs : List String}, as.length = bs.length → (∀ a ∈ as, c ∉ a.toList) →
      (∀ b ∈ bs, c ∉ b.toList) → separated sep as = separated sep bs → as = bs
  | [], [], _, _, _, _ => rfl
  | [a], [b], _, _, _, h => by
    rw [separated, separated] at h
    rw [h]
  | a :: a' :: as, b :: b' :: bs, hlength, ha, hb, h => by
    obtain ⟨front, back, hsep, hfront⟩ := List.eq_append_cons_of_mem hc
    have hcut : ∀ (item : String) (rest : List String), c ∉ item.toList →
        pieces c (item ++ sep ++ separated sep rest).toList = (item.toList ++ front) ::
          pieces c (back ++ (separated sep rest).toList) := by
      intro item rest hitem
      rw [← pieces_append _ (by simp [hitem, hfront]), String.toList_append, String.toList_append,
        hsep]
      simp only [List.append_assoc, List.cons_append]
    rw [List.forall_mem_cons] at ha hb
    have hpieces := congrArg (fun text => pieces c text.toList) h
    simp only [separated, hcut _ _ ha.1, hcut _ _ hb.1] at hpieces
    have hfirst := List.append_cancel_right (List.cons.inj hpieces).1
    obtain rfl : a = b := String.toList_injective hfirst
    rw [separated, separated, String.append_right_inj] at h
    rw [separated_inj hc (Nat.succ.inj hlength) ha.2 hb.2 h]

/-- Items that keep a list as it is when they take the place of others are these others. -/
theorem separated_map_eq_iff {sep : String} {c : Char} (hc : c ∈ sep.toList)
    {items : List String} (hitems : ∀ a ∈ items, c ∉ a.toList) (f : String → String) :
    separated sep (items.map f) = separated sep items ↔ ∀ a ∈ items, f a = a := by
  constructor
  · intro h
    -- The text has the character only in its separators, so no item of the first list has it.
    have hzero : (items.flatMap String.toList).count c = 0 := by
      rw [List.count_eq_zero, List.mem_flatMap]
      rintro ⟨a, ha, hmem⟩
      exact hitems a ha hmem
    have hcount := congrArg (fun text => text.toList.count c) h
    simp only [count_separated, List.length_map, hzero, Nat.zero_add, Nat.add_eq_right] at hcount
    have hnone : ∀ b ∈ items.map f, c ∉ b.toList := fun b hb hmem =>
      List.count_eq_zero.1 hcount (List.mem_flatMap.2 ⟨b, hb, hmem⟩)
    have heq := separated_inj hc (List.length_map f) hnone hitems h
    exact fun a ha => List.map_eq_map_iff.1 (heq.trans (List.map_id items).symm) a ha
  · intro h
    rw [List.map_congr_left h, List.map_id']

end Text

/-! ## Where the spellings stand -/

namespace Style

variable (s : Style)

/-- The signature up to its generic parameters. -/
def signatureStart (f : FunctionDecl) (omitPublic isStatic : Bool) : String :=
  word (f.isPublic && !omitPublic) "public " ++ word isStatic "static " ++ "func " ++
  s.identifier f.name

/-- The signature after its generic parameters. -/
def signatureEnd (f : FunctionDecl) : String :=
  "(" ++ s.list (f.parameters.map s.parameter) ++ ")" ++
  word f.isAsync " async" ++ word f.canThrow " throws" ++
  part f.returnType fun t => " -> " ++ s.type t

theorem signature_eq (f : FunctionDecl) (omitPublic isStatic : Bool) :
    s.signature f omitPublic isStatic = s.signatureStart f omitPublic isStatic ++
      s.genericParameters f.genericParameters ++ s.signatureEnd f := by
  simp only [signature, signatureStart, signatureEnd, String.append_assoc]

/-- What a constraint says about the name that it begins with. -/
def demand : GenericConstraint → String
  | .conformance _ t => s.conformanceSeparator ++ s.type t
  | .sameType _ t => " == " ++ s.type t

theorem constraint_eq (c : GenericConstraint) :
    s.constraint c = s.identifier c.name ++ s.demand c := by
  cases c <;> simp only [constraint, demand, GenericConstraint.name, String.append_assoc]

theorem genericParameters_inj {as bs : List String} (h : as.length = bs.length) :
    s.genericParameters as = s.genericParameters bs ↔ s.list as = s.list bs := by
  cases as with
  | nil => rw [List.length_eq_zero_iff.1 h.symm]; simp
  | cons a as =>
    cases bs with
    | nil => cases h
    | cons b bs => simp [genericParameters]

end Style

namespace Emit

/-- No name that passes validation has the character in it. -/
def IsOutsideNames (c : Char) : Prop := NameFlaw.isPart c = false ∧ c ≠ '\x60'

theorem IsOutsideNames.not_mem {c : Char} (hc : IsOutsideNames c) {n : String}
    (hn : IsIdentifier n) : c ∉ n.toList := by
  intro hmem
  rcases hn.isPart_of_mem hmem with hpart | hquote
  · rw [hc.1] at hpart
    cases hpart
  · exact hc.2 hquote

/-- The list in the signature holds the generic parameters as they were given. It is the list of
their spellings if the renderer leaves each of them as it is, and only then, whatever the renderer,
if the separator has a character that stands in no name. A constraint is spelled by the renderer, so
it agrees with the list under the same condition on its name. The usual renderer leaves all but
reserved words as they are. -/
theorem generic_parameters_spelled_iff (s : Style) (f : FunctionDecl) (omitPublic isStatic : Bool)
    (hnames : ∀ g ∈ f.genericParameters, IsIdentifier g) :
    let written := s.signatureStart f omitPublic isStatic ++
      s.genericParameters f.genericParameters ++ s.signatureEnd f
    let spelled := s.signatureStart f omitPublic isStatic ++
      s.genericParameters (f.genericParameters.map s.identifier) ++ s.signatureEnd f
    Writes (function s f omitPublic isStatic)
      (Member.attributeLines f ++ openBlockLines s written f.constraints ++
        deeper (f.body.flatMap bodyItemLines) ++ flat ["\x7d"]) ∧
    ((∀ g ∈ f.genericParameters, s.identifier g = g) → written = spelled) ∧
    ((∃ c ∈ s.listSeparator.toList, IsOutsideNames c) → written = spelled →
      ∀ g ∈ f.genericParameters, s.identifier g = g) ∧
    (∀ c ∈ f.constraints, c.name ∈ f.genericParameters →
      (s.constraint c = c.name ++ s.demand c ↔ s.identifier c.name = c.name)) ∧
    (s.names = swiftNames → ∀ g, s.identifier g = g ↔ g ∉ reservedWords) := by
  intro written spelled
  have hlist : written = spelled ↔
      s.list (f.genericParameters.map s.identifier) = s.list f.genericParameters := by
    rw [String.append_left_inj, String.append_right_inj,
      s.genericParameters_inj (List.length_map _).symm]
    exact eq_comm
  refine ⟨?_, fun h => ?_, ?_, fun c _ _ => ?_, fun h g => ?_⟩
  · have h := writes_function s f omitPublic isStatic
    rwa [functionLines, s.signature_eq] at h
  · rw [hlist, List.map_congr_left h, List.map_id']
  · rintro ⟨c, hc, hout⟩ h
    exact (Text.separated_map_eq_iff hc (fun g hg => hout.not_mem (hnames g hg)) _).1 (hlist.1 h)
  · rw [s.constraint_eq, String.append_left_inj]
  · rw [Style.identifier, h]
    exact escapedIdentifier_eq_self_iff g

/-- A renderer without backticks spells reserved words as they are. -/
theorem generic_parameters_spelled_qualified :
    let s : Style := { names := qualifiedNames "M" }
    let f : FunctionDecl := { name := "f", genericParameters := ["T", "class"] }
    s.signatureStart f false false ++ s.genericParameters ["T", "class"] ++ s.signatureEnd f =
      s.signatureStart f false false ++ s.genericParameters (["T", "class"].map s.identifier) ++
        s.signatureEnd f := by
  intro s f
  have hnames : ∀ g ∈ f.genericParameters, IsIdentifier g := by
    simp only [f, IsIdentifier]
    decide +kernel
  exact (generic_parameters_spelled_iff s f false false hnames).2.1 fun _ _ => rfl

/-- A generic parameter that is a reserved word has backticks in the `where` clause alone. -/
theorem generic_parameter_misspelled :
    let f : FunctionDecl :=
      { name := "f", genericParameters := ["class"],
        constraints := [.conformance "class" (.named "P")] }
    (∀ g ∈ f.genericParameters, IsIdentifier g) ∧
    (function {} f false false (Buffer.new .swift)).text =
      "func f<class>()\n  where `class` : P\n\x7b\n\x7d\n" ∧
    ({} : Style).list (f.genericParameters.map ({} : Style).identifier) = "`class`" ∧
    ({} : Style).constraint (.conformance "class" (.named "P")) = "`class` : P" := by
  simp only [IsIdentifier]
  decide +kernel

end Emit
end SwiftDecl
