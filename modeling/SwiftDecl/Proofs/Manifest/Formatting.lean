import SwiftDecl.Manifest.Rendering
import SwiftDecl.Proofs.Manifest.FirstDefect

/-!
# SwiftDecl.Proofs.Manifest.Formatting

The style that a manifest is emitted in. Each choice is the one that was made, or else the usual
one. What validation asks of the choices carries over to the style; of the separator between a
variable and its type it asks nothing.

* `Indent.isSupported_of_parse`, `IndentSetting.isSupported_of_resolve` — the indents there are.
* `Manifest.IsSound.indented` — which of them is used.
* `style_usable_iff` — when the whole style can be used.
-/

namespace SwiftDecl

/-- A tab, or two, three, four or eight spaces. -/
def Indent.IsSupported (i : Indent) : Prop :=
  i = .tab ∨ i = .spaces 2 ∨ i = .spaces 3 ∨ i = .spaces 4 ∨ i = .spaces 8

theorem Indent.isSupported_of_ofWidth {width : Int64} {i : Indent} (h : ofWidth width = some i) :
    i.IsSupported := by
  unfold ofWidth at h
  split at h
  · rename_i hwidth
    obtain rfl := Option.some.inj h
    rcases hwidth with rfl | rfl | rfl | rfl
    · exact .inr (.inl rfl)
    · exact .inr (.inr (.inl rfl))
    · exact .inr (.inr (.inr (.inl rfl)))
    · exact .inr (.inr (.inr (.inr rfl)))
  · cases h

theorem Indent.isSupported_of_parse {s : String} {i : Indent} (h : parse s = some i) :
    i.IsSupported := by
  unfold parse at h
  split at h
  · exact .inl (Option.some.inj h).symm
  · obtain ⟨width, -, hwidth⟩ := Option.bind_eq_some_iff.1 h
    exact isSupported_of_ofWidth hwidth

theorem IndentSetting.isSupported_of_resolve {setting : IndentSetting} {i : Indent}
    (h : setting.resolve = some i) : i.IsSupported := by
  cases setting with
  | width w => exact Indent.isSupported_of_ofWidth h
  | name s => exact Indent.isSupported_of_parse h

namespace Manifest

/-- The indent that is used: one that was given, else that of the manifest, else two spaces. -/
structure Indented (m : Manifest) (given : Option Indent) (used : Indent) : Prop where
  overridden : ∀ i, given = some i → used = i
  own : given = none → ∀ setting, m.format.indent = some setting → setting.resolve = some used
  usual : given = none → m.format.indent = none → used = .spaces 2

variable {m : Manifest}

theorem indent_style (m : Manifest) (given : Option Indent) :
    (m.style given).indent = (given.or m.indent).getD (.spaces 2) := by
  cases given <;> rfl

theorem IsSound.indented (h : m.IsSound) (given : Option Indent) :
    m.Indented given (m.style given).indent := by
  cases given with
  | some i =>
    refine ⟨fun j hj => ?_, nofun, nofun⟩
    rw [indent_style, hj, Option.some_or, Option.getD_some]
  | none =>
    refine ⟨nofun, fun _ setting hsetting => ?_, fun _ hnone => ?_⟩
    · obtain ⟨i, hi⟩ := h.indent setting hsetting
      have hown : m.indent = some i := by rw [Manifest.indent, hsetting, Option.bind_some, hi]
      rw [indent_style, Option.none_or, hown, Option.getD_some, hi]
    · have hown : m.indent = none := by rw [Manifest.indent, hnone, Option.bind_none]
      rw [indent_style, Option.none_or, hown, Option.getD_none]

theorem Indented.isSupported {given : Option Indent} {used : Indent} (h : m.Indented given used)
    (hgiven : ∀ i, given = some i → i.IsSupported) : used.IsSupported := by
  cases hg : given with
  | some i =>
    rw [h.overridden i hg]
    exact hgiven i hg
  | none =>
    cases hs : m.format.indent with
    | some setting => exact IndentSetting.isSupported_of_resolve (h.own hg setting hs)
    | none => exact .inr (.inl (h.usual hg hs))

end Manifest

/-! ## Separators -/

theorem getD_ne_empty_iff {given : Option String} {usual : String} (h : usual ≠ "") :
    given.getD usual ≠ "" ↔ given ≠ some "" := by
  cases given with
  | none => simp [h]
  | some text => simp

/-- All separators separate something, and the indent is supported. -/
structure Style.IsUsable (s : Style) : Prop where
  conformanceSeparator : s.conformanceSeparator ≠ ""
  listSeparator : s.listSeparator ≠ ""
  propertySeparator : s.propertySeparator ≠ ""
  indent : s.indent.IsSupported

/-- In the style of a manifest that was loaded, each separator is the one that the manifest sets, or
else the usual one. Those of conformances and of lists are never empty, and the indent is always a
supported one, if the indent that is given was read from a text. So the style is usable exactly if
the manifest does not set the separator between a variable and its type to the empty text. -/
theorem style_usable_iff {source : String} {m : Manifest} (h : Manifest.ofText source = .ok m)
    {given : Option Indent} (hgiven : ∀ i, given = some i → ∃ text, Indent.parse text = some i) :
    let s := m.style given
    s.conformanceSeparator = m.format.conformanceSeparator.getD " : " ∧
    s.listSeparator = m.format.listSeparator.getD ", " ∧
    s.propertySeparator = m.format.propertySeparator.getD " : " ∧
    s.conformanceSeparator ≠ "" ∧ s.listSeparator ≠ "" ∧
    m.Indented given s.indent ∧ s.indent.IsSupported ∧
    (s.IsUsable ↔ m.format.propertySeparator ≠ some "") := by
  intro s
  have hm := Manifest.isSound_of_ofText h
  have hconformance : s.conformanceSeparator ≠ "" :=
    (getD_ne_empty_iff (by decide)).2 hm.conformanceSeparator
  have hlist : s.listSeparator ≠ "" := (getD_ne_empty_iff (by decide)).2 hm.listSeparator
  have hproperty : s.propertySeparator ≠ "" ↔ m.format.propertySeparator ≠ some "" :=
    getD_ne_empty_iff (by decide)
  have hindent := hm.indented given
  have hsupported : s.indent.IsSupported := hindent.isSupported fun i hi => by
    obtain ⟨text, htext⟩ := hgiven i hi
    exact Indent.isSupported_of_parse htext
  exact ⟨rfl, rfl, rfl, hconformance, hlist, hindent, hsupported,
    fun hs => hproperty.1 hs.propertySeparator,
    fun hs => ⟨hconformance, hlist, hproperty.2 hs, hsupported⟩⟩

/-- Two separators and an indent that gives way to a tab. -/
def formattedText : String :=
  "[format]\nindent=4\ntype_conformance_separator=': '\nproperty_type_separator=': '\n"

theorem style_usable_iff_formatted : ∃ m, Manifest.ofText formattedText = .ok m ∧
    (m.style none).indent = .spaces 4 ∧ Indent.parse "TAB" = some .tab ∧
    (m.style (some .tab)).indent = .tab ∧ (m.style (some .tab)).IsUsable ∧
    (m.style (some .tab)).propertySeparator = ": " ∧
    (m.style (some .tab)).listSeparator = ", " := by
  have heval : ((Manifest.ofText formattedText).toOption.map fun m =>
      (m.format.propertySeparator, m.format.listSeparator, (m.style none).indent)) =
      some (some ": ", none, .spaces 4) := by decide +kernel
  obtain ⟨m, hload, hm⟩ := Option.map_eq_some_iff.1 heval
  simp only [Prod.mk.injEq] at hm
  obtain ⟨hproperty, hlist, hindent⟩ := hm
  have htab : Indent.parse "TAB" = some .tab := by decide
  have hgiven : ∀ i, some Indent.tab = some i → ∃ text, Indent.parse text = some i :=
    fun i hi => ⟨"TAB", htab.trans hi⟩
  obtain ⟨-, hlists, hproperties, -, -, hused, -, husable⟩ :=
    style_usable_iff (ok_of_toOption hload) hgiven
  refine ⟨m, ok_of_toOption hload, hindent, htab, hused.overridden _ rfl, husable.2 ?_, ?_, ?_⟩
  · rw [hproperty]
    decide
  · rw [hproperties, hproperty, Option.getD_some]
  · rw [hlists, hlist, Option.getD_none]

/-- Nothing stands between a variable and its type. -/
def gluedText : String :=
  "[format]\nproperty_type_separator = \"\"\n\n[[extension]]\nextended_type = \"A\"\n" ++
    "type_variables = [\x7b name = \"id\", type = \"Int\" \x7d]\n"

/-- The text is loaded, and in the Swift source the type is part of the name. -/
theorem property_separator_missing : ∃ m, Manifest.ofText gluedText = .ok m ∧
    (m.style none).propertySeparator = "" ∧
    (m.render (m.style none)).toOption =
      some "extension A \x7b\n\n  static let idInt\n\x7d\n" := by
  have heval : ((Manifest.ofText gluedText).toOption.map fun m =>
      ((m.style none).propertySeparator, (m.render (m.style none)).toOption)) =
      some ("", some "extension A \x7b\n\n  static let idInt\n\x7d\n") := by decide +kernel
  obtain ⟨m, hload, hm⟩ := Option.map_eq_some_iff.1 heval
  obtain ⟨hseparator, hsource⟩ := Prod.mk.inj hm
  exact ⟨m, ok_of_toOption hload, hseparator, hsource⟩

end SwiftDecl
