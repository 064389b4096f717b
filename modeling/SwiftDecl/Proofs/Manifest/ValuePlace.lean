import SwiftDecl.Proofs.Manifest.FirstDefect
import SwiftDecl.Proofs.Text.Search

/-!
# SwiftDecl.Proofs.Manifest.ValuePlace

Places that are found for a value. A place covers a text if that is what stands in its bytes; the
first place of a text is the one that covers it with the least offset.

* `ofValue_eq_none_iff`, `ofValue_quoted`, `ofValue_bare`, `ofValue_empty` — the place of a value.
* `value_place_exact` — the place that comes with a defect of a name or of a version.
-/

namespace SwiftDecl
namespace Place

/-- The text stands in the source in just these bytes. -/
def Covers (p : Place) (source text : String) : Prop :=
  ∃ before after, source = before ++ text ++ after ∧
    p = ⟨before.utf8ByteSize, text.utf8ByteSize⟩

/-- The first place of a text in the source. -/
def IsFirst (p : Place) (source text : String) : Prop :=
  p.Covers source text ∧ ∀ q : Place, q.Covers source text → p.offset ≤ q.offset

variable {p : Place} {source text : String}

theorem covers_iff : p.Covers source text ↔
    ∃ before after, source.toList = before ++ text.toList ++ after ∧
      p = ⟨Text.byteLength before, Text.byteLength text.toList⟩ := by
  constructor
  · rintro ⟨before, after, rfl, rfl⟩
    exact ⟨before.toList, after.toList, by simp, by simp only [Text.byteLength_toList]⟩
  · rintro ⟨before, after, hsplit, rfl⟩
    refine ⟨.ofList before, .ofList after, String.toList_injective (by simpa using hsplit), ?_⟩
    simp only [← Text.byteLength_toList, String.toList_ofList]

/-- A place covers one text at most. -/
theorem Covers.unique {text' : String} (h : p.Covers source text) (h' : p.Covers source text') :
    text = text' := by
  obtain ⟨b, a, hsplit, rfl⟩ := covers_iff.1 h
  obtain ⟨b', a', hsplit', hp⟩ := covers_iff.1 h'
  obtain ⟨hoffset, hlength⟩ := Place.mk.inj hp
  rw [hsplit, List.append_assoc, List.append_assoc] at hsplit'
  obtain ⟨-, hrest⟩ := Text.eq_of_byteLength_eq hsplit' hoffset
  exact String.toList_injective (Text.eq_of_byteLength_eq hrest hlength).1

theorem isFirst_of_offsetOf {n : Nat}
    (h : Text.offsetOf text.toList source.toList = some n) :
    (⟨n, Text.byteLength text.toList⟩ : Place).IsFirst source text := by
  obtain ⟨before, after, hfirst, rfl⟩ := Text.first_of_offsetOf h
  refine ⟨covers_iff.2 ⟨before, after, hfirst.split, rfl⟩, fun q hq => ?_⟩
  obtain ⟨b, a, hsplit, rfl⟩ := covers_iff.1 hq
  exact hfirst.least b a hsplit

theorem offsetOf_eq_none_iff :
    Text.offsetOf text.toList source.toList = none ↔ ∀ p : Place, ¬ p.Covers source text := by
  rw [Text.offsetOf_eq_none_iff]
  constructor
  · rintro h p hp
    obtain ⟨b, a, hsplit, -⟩ := covers_iff.1 hp
    exact h ⟨b, a, hsplit⟩
  · rintro h ⟨b, a, hsplit⟩
    exact h _ (covers_iff.2 ⟨b, a, hsplit, rfl⟩)

/-- A value between double quotes. -/
def quoted (value : String) : String := "\"" ++ value ++ "\""

/-- What is looked for in place of a value. An empty one is looked for with its quotes. -/
def shown (value : String) : String := if value = "" then quoted value else value

theorem toList_quoted (value : String) :
    (quoted value).toList = '"' :: (value.toList ++ ['"']) := by
  simp [quoted]

/-- The place between the quotes. -/
theorem Covers.inside {value : String} (h : p.Covers source (quoted value)) :
    (⟨p.offset + 1, Text.byteLength value.toList⟩ : Place).Covers source value := by
  obtain ⟨before, after, hsplit, rfl⟩ := covers_iff.1 h
  refine covers_iff.2 ⟨before ++ ['"'], '"' :: after, ?_, ?_⟩
  · rw [hsplit, toList_quoted]
    simp
  · have hquote : Text.byteLength ['"'] = 1 := rfl
    rw [Text.byteLength_append, hquote]

theorem ofValue_empty (source : String) : ofValue source "" =
    (Text.offsetOf (quoted "").toList source.toList).map
      (⟨·, Text.byteLength (quoted "").toList⟩) := rfl

theorem ofValue_quoted {value : String} {n : Nat} (hne : value ≠ "")
    (h : Text.offsetOf (quoted value).toList source.toList = some n) :
    ofValue source value = some ⟨n + 1, Text.byteLength value.toList⟩ := by
  have hnonempty : value.toList.isEmpty = false := by simpa using hne
  rw [toList_quoted] at h
  simp only [ofValue, hnonempty, Bool.false_eq_true, if_false, h]

theorem ofValue_bare {value : String} (hne : value ≠ "")
    (h : Text.offsetOf (quoted value).toList source.toList = none) :
    ofValue source value = (Text.offsetOf value.toList source.toList).map
      (⟨·, Text.byteLength value.toList⟩) := by
  have hnonempty : value.toList.isEmpty = false := by simpa using hne
  rw [toList_quoted] at h
  simp only [ofValue, hnonempty, Bool.false_eq_true, if_false, h]

theorem ofValue_eq_none_iff (source value : String) :
    ofValue source value = none ↔ ∀ p : Place, ¬ p.Covers source (shown value) := by
  by_cases hne : value = ""
  · rw [hne, ofValue_empty, Option.map_eq_none_iff]
    exact offsetOf_eq_none_iff
  · rw [shown, if_neg hne]
    cases hq : Text.offsetOf (quoted value).toList source.toList with
    | none =>
      rw [ofValue_bare hne hq, Option.map_eq_none_iff]
      exact offsetOf_eq_none_iff
    | some n =>
      -- Where the quoted value is, the value itself is as well.
      have hinside := (isFirst_of_offsetOf hq).1.inside
      rw [ofValue_quoted hne hq]
      exact iff_of_false (Option.some_ne_none _) fun h => h _ hinside

/-- The place of an empty value is that of its quotes. Any other value is looked for between quotes
first, and by itself only where it never stands between quotes. -/
theorem isFirst_of_ofValue {value : String} (h : ofValue source value = some p) :
    p.Covers source (shown value) ∧
    (value = "" → p.IsFirst source (shown value)) ∧
    (value ≠ "" → (∃ q : Place, q.Covers source (quoted value)) →
      ∃ q : Place, q.IsFirst source (quoted value) ∧ p.offset = q.offset + 1) ∧
    (value ≠ "" → (∀ q : Place, ¬ q.Covers source (quoted value)) → p.IsFirst source value) := by
  by_cases hne : value = ""
  · have hfirst : p.IsFirst source (shown value) := by
      rw [hne, ofValue_empty] at h
      obtain ⟨n, hn, rfl⟩ := Option.map_eq_some_iff.1 h
      rw [shown, if_pos hne, hne]
      exact isFirst_of_offsetOf hn
    exact ⟨hfirst.1, fun _ => hfirst, fun hv => absurd hne hv, fun hv => absurd hne hv⟩
  · rw [shown, if_neg hne]
    cases hq : Text.offsetOf (quoted value).toList source.toList with
    | none =>
      have hnowhere := offsetOf_eq_none_iff.1 hq
      rw [ofValue_bare hne hq] at h
      obtain ⟨n, hn, rfl⟩ := Option.map_eq_some_iff.1 h
      have hfirst := isFirst_of_offsetOf hn
      exact ⟨hfirst.1, fun hv => absurd hv hne, fun _ ⟨q, hcovers⟩ => absurd hcovers (hnowhere q),
        fun _ _ => hfirst⟩
    | some n =>
      have hfirst := isFirst_of_offsetOf hq
      rw [ofValue_quoted hne hq] at h
      obtain rfl := Option.some.inj h
      exact ⟨hfirst.1.inside, fun hv => absurd hv hne, fun _ _ => ⟨_, hfirst, rfl⟩,
        fun _ hnowhere => absurd hfirst.1 (hnowhere _)⟩

end Place

/-! ## Defects of names and versions -/

namespace Defect

/-- The name or the version that a defect is about. -/
def value : Defect → Option String
  | .unsupportedIndent _ => none
  | .emptySeparator _ => none
  | .unsupportedVersion v _ => some v.display
  | .badName name _ _ _ => some name

theorem place_of_value {d : Defect} {value : String} (h : d.value = some value)
    (source : String) : d.place source = Place.ofValue source value := by
  cases d with
  | unsupportedIndent setting => cases h
  | emptySeparator key => cases h
  | unsupportedVersion v extendedType => exact congrArg (Place.ofValue source) (Option.some.inj h)
  | badName name kind path flaw => exact congrArg (Place.ofValue source) (Option.some.inj h)

end Defect

theorem Manifest.ofText_defect_iff {source text : String} {d : Defect} :
    Manifest.ofText source = .error (.defect text d) ↔
      (parsed source).bind defect = some d ∧ text = source := by
  rw [ofText, parsed]
  cases Toml.read source with
  | none => simp
  | some data =>
    cases hdata : ofData data with
    | error fault => simp [hdata, Except.toOption]
    | ok m =>
      simp only [hdata, Option.bind_some, Except.toOption]
      cases m.defect with
      | none => simp
      | some d' => simp [and_comm, eq_comm]

/-- There is one remark, on the place of the defect, or none. -/
theorem Problem.labels_of_ofText {source text : String} {d : Defect}
    (h : Manifest.ofText source = .error (.defect text d)) :
    (Problem.defect text d).labels = (d.place source).toList.map (d.label, ·) := by
  rw [(Manifest.ofText_defect_iff.1 h).2, Problem.labels]
  cases d.place source <;> rfl

/-- The remark on a bad name or version has a place exactly if the text holds the value. Its bytes
are then those of the value, and of the places of the value it is the first between double quotes,
if there is one, and otherwise the first of all. An empty name is looked for with its quotes and
covered with them. -/
theorem value_place_exact {source text value : String} {d : Defect}
    (h : Manifest.ofText source = .error (.defect text d)) (hvalue : d.value = some value) :
    (Problem.defect text d).labels = (d.place source).toList.map (d.label, ·) ∧
    (d.place source = none ↔ ∀ p : Place, ¬ p.Covers source (Place.shown value)) ∧
    ∀ p, d.place source = some p →
      p.Covers source (Place.shown value) ∧
      (value = "" → p.IsFirst source (Place.shown value)) ∧
      (value ≠ "" → (∃ q : Place, q.Covers source (Place.quoted value)) →
        ∃ q : Place, q.IsFirst source (Place.quoted value) ∧ p.offset = q.offset + 1) ∧
      (value ≠ "" → (∀ q : Place, ¬ q.Covers source (Place.quoted value)) →
        p.IsFirst source value) := by
  have hplace := Defect.place_of_value hvalue source
  refine ⟨Problem.labels_of_ofText h, ?_, fun p hp => ?_⟩
  · rw [hplace]
    exact Place.ofValue_eq_none_iff source value
  · rw [hplace] at hp
    exact Place.isFirst_of_ofValue hp

/-- The name is in a comment first, after a letter of two bytes. -/
def remarkedName : String := "#é 1a\nimports=[\"1a\"]"

theorem value_place_exact_remarked :
    let d := Defect.badName "1a" "import" [] (.badStart '1')
    Manifest.ofText remarkedName = .error (.defect remarkedName d) ∧
    (Problem.defect remarkedName d).labels = [("invalid identifier", ⟨17, 2⟩)] ∧
    (⟨17, 2⟩ : Place).Covers remarkedName "1a" ∧
    ∃ q : Place, q.IsFirst remarkedName "\"1a\"" ∧ 17 = q.offset + 1 := by
  intro d
  have hdefect : (Manifest.parsed remarkedName).bind Manifest.defect = some d := by decide +kernel
  have hload := Manifest.ofText_defect_iff.2 ⟨hdefect, rfl⟩
  obtain ⟨hlabels, -, hplace⟩ := value_place_exact hload rfl
  have hfound : d.place remarkedName = some ⟨17, 2⟩ := by decide +kernel
  have hquoted : (⟨16, 4⟩ : Place).Covers remarkedName (Place.quoted "1a") :=
    ⟨"#é 1a\nimports=[", "]", by decide +kernel, by decide +kernel⟩
  obtain ⟨hcovers, -, hinside, -⟩ := hplace ⟨17, 2⟩ hfound
  rw [hfound] at hlabels
  exact ⟨hload, hlabels, hcovers, hinside (by decide) ⟨_, hquoted⟩⟩

end SwiftDecl
