import SwiftDecl.CommandLine.Arguments
import SwiftDecl.Proofs.Manifest.Formatting
import SwiftDecl.Proofs.Version

/-!
# SwiftDecl.Proofs.CommandLine.Indents

Indents in manifests and on the command line. A manifest may give a number where the command line
has only text.

* `Indent.parse_eq_some_iff` — the texts that stand for an indent.
* `Indent.parse_toString_eq_some_iff` — the text of a number, of any sign and size, stands for that
  width.
* `CommandLine.parse_indent_attached`, `CommandLine.parse_indent_apart` — what the option accepts.
* `indent_alike_everywhere` — manifest and command line agree.
-/

namespace SwiftDecl

namespace Number

theorem IsNumeral.unique {cs : List Char} {m n : Nat} (hm : IsNumeral cs m) (hn : IsNumeral cs n) :
    m = n := by
  have hread : ∀ k, k < m + n + 1 → IsNumeral cs k → readUnsigned (m + n + 1) cs = some k :=
    fun k hk h => readUnsigned_eq_some_iff.2 ⟨h, hk⟩
  have h := (hread m (by omega) hm).symm.trans (hread n (by omega) hn)
  exact Option.some.inj h

theorem IsNumeral.isDigit_or_plus {cs : List Char} {n : Nat} (h : IsNumeral cs n) :
    ∀ c ∈ cs, c.isDigit = true ∨ c = '+' := by
  obtain ⟨ds, rfl | rfl, -, hdigits, -⟩ := h
  · exact fun c hc => .inl (hdigits c hc)
  · intro c hc
    rcases List.mem_cons.1 hc with rfl | hc
    · exact .inr rfl
    · exact .inl (hdigits c hc)

theorem toLower_of_isDigit_or_plus {c : Char} (h : c.isDigit = true ∨ c = '+') :
    c.toLower = c := by
  rcases h with h | rfl
  · have hle : c.toNat ≤ 57 := (Char.isDigit_iff_toNat.1 h).2
    unfold Char.toLower
    rw [dif_neg]
    rintro ⟨hA, -⟩
    have hA : 65 ≤ c.toNat := UInt32.le_iff_toNat_le.1 hA
    omega
  · decide

theorem not_isNumeral_minus {ds : List Char} {n : Nat} : ¬ IsNumeral ('-' :: ds) n := by
  intro h
  rcases h.isDigit_or_plus '-' List.mem_cons_self with h | h <;> revert h <;> decide

theorem toList_toString_negSucc (m : Nat) :
    (toString (Int.negSucc m)).toList = '-' :: Nat.toDigits 10 (m + 1) := by
  change ("-" ++ (m + 1).repr).toList = _
  rw [String.toList_append, Nat.toList_repr]
  rfl

/-- The text of a whole number is a numeral exactly if the number is not negative. -/
theorem isNumeral_toString_iff {i : Int} {n : Nat} : IsNumeral (toString i).toList n ↔ i = n := by
  cases i with
  | ofNat m =>
    have htext : (toString (Int.ofNat m)).toList = Nat.toDigits 10 m := Nat.toList_repr
    rw [htext, Int.ofNat_eq_natCast, Nat.cast_inj]
    constructor
    · exact fun h => (isNumeral_toDigits m).unique h
    · rintro rfl
      exact isNumeral_toDigits m
  | negSucc m =>
    rw [toList_toString_negSucc]
    exact iff_of_false not_isNumeral_minus (by simp)

theorem exists_filter_signed_iff {number : Option Nat} {n : Nat} (hn : n < signed64) :
    (∃ w : Int64, (number.filter (· < signed64)).map Int64.ofNat = some w ∧ w.toInt = n) ↔
      number = some n := by
  have htoInt : ∀ m, m < signed64 → (Int64.ofNat m).toInt = m := fun m hm =>
    Int64.toInt_ofNat_of_lt hm
  constructor
  · rintro ⟨w, hw, hwn⟩
    obtain ⟨m, hm, rfl⟩ := Option.map_eq_some_iff.1 hw
    obtain ⟨hm, hlt⟩ := Option.filter_eq_some_iff.1 hm
    rw [htoInt m (of_decide_eq_true hlt), Nat.cast_inj] at hwn
    rw [hm, hwn]
  · rintro rfl
    refine ⟨Int64.ofNat n, ?_, htoInt n hn⟩
    rw [Option.filter_some, if_pos (decide_eq_true hn), Option.map_some]

/-- Nothing after a minus sign stands for a positive number. -/
theorem exists_readInt64_iff {cs : List Char} {n : Nat} (hpos : 0 < n) (hn : n < signed64) :
    (∃ w, readInt64 cs = some w ∧ w.toInt = n) ↔ IsNumeral cs n := by
  unfold readInt64
  split
  · refine iff_of_false ?_ not_isNumeral_minus
    rintro ⟨w, hw, hwn⟩
    obtain ⟨i, hi, rfl⟩ := Option.map_eq_some_iff.1 hw
    obtain ⟨m, hm, hmi⟩ := Option.bind_eq_some_iff.1 hi
    cases hmi
    have hle : m ≤ signed64 := of_decide_eq_true (Option.filter_eq_some_iff.1 hm).2
    unfold signed64 at hle
    rw [Int64.toInt_ofInt_of_le (by omega) (by omega)] at hwn
    omega
  · rw [exists_filter_signed_iff hn, isNumeral_plus_iff]
  · rename_i hplus
    rw [exists_filter_signed_iff hn, isNumeral_iff_of_ne_plus hplus]

end Number

namespace Indent

open Number (IsNumeral)

def IsWidth (n : Nat) : Prop := n = 2 ∨ n = 3 ∨ n = 4 ∨ n = 8

/-- `tab` in any mixture of cases. -/
def IsTab (s : String) : Prop := s.toList.map Char.toLower = ['t', 'a', 'b']

theorem ofWidth_eq_some_iff {w : Int64} {i : Indent} :
    ofWidth w = some i ↔ ∃ n, IsWidth n ∧ w.toInt = n ∧ i = .spaces n := by
  unfold ofWidth
  split
  · rename_i hw
    constructor
    · intro h
      cases h
      refine ⟨w.toInt.toNat, ?_, ?_, rfl⟩
      · rcases hw with rfl | rfl | rfl | rfl <;> simp [IsWidth]
      · rcases hw with rfl | rfl | rfl | rfl <;> decide
    · rintro ⟨n, -, hn, rfl⟩
      rw [hn, Int.toNat_natCast]
  · rename_i hw
    refine iff_of_false nofun ?_
    rintro ⟨n, hwidth, hn, -⟩
    apply hw
    simp only [← Int64.toInt_inj, hn]
    rcases hwidth with rfl | rfl | rfl | rfl <;> decide

theorem IsTab.not_isNumeral {s : String} {n : Nat} (h : IsTab s) : ¬ IsNumeral s.toList n := by
  intro hn
  have ht : 't' ∈ s.toList.map Char.toLower := by
    rw [h]
    exact List.mem_cons_self
  obtain ⟨c, hc, hlower⟩ := List.mem_map.1 ht
  rw [Number.toLower_of_isDigit_or_plus (hn.isDigit_or_plus c hc)] at hlower
  subst hlower
  rcases hn.isDigit_or_plus 't' hc with h | h <;> revert h <;> decide

/-- The texts that stand for an indent: `tab`, and the numerals of the supported widths. -/
theorem parse_eq_some_iff {s : String} {i : Indent} : parse s = some i ↔
    (IsTab s ∧ i = .tab) ∨ ∃ n, IsWidth n ∧ IsNumeral s.toList n ∧ i = .spaces n := by
  unfold parse
  split
  · rename_i htab
    constructor
    · intro h
      exact .inl ⟨htab, (Option.some.inj h).symm⟩
    · rintro (⟨-, rfl⟩ | ⟨n, -, hn, -⟩)
      · rfl
      · exact absurd hn (IsTab.not_isNumeral htab)
  · rename_i htab
    have hread : ∀ n, IsWidth n →
        ((∃ w, Number.readInt64 s.toList = some w ∧ w.toInt = n) ↔ IsNumeral s.toList n) := by
      intro n hn
      have hpos : 0 < n := by unfold IsWidth at hn; omega
      have hlt : n < Number.signed64 := by unfold IsWidth at hn; unfold Number.signed64; omega
      exact Number.exists_readInt64_iff hpos hlt
    rw [Option.bind_eq_some_iff]
    simp only [ofWidth_eq_some_iff]
    constructor
    · rintro ⟨w, hw, n, hn, hwn, rfl⟩
      exact .inr ⟨n, hn, (hread n hn).1 ⟨w, hw, hwn⟩, rfl⟩
    · rintro (⟨h, -⟩ | ⟨n, hn, hs, rfl⟩)
      · exact absurd h htab
      · obtain ⟨w, hw, hwn⟩ := (hread n hn).2 hs
        exact ⟨w, hw, n, hn, hwn, rfl⟩

theorem not_isTab_dash {s : String} {cs : List Char} (h : s.toList = '-' :: cs) : ¬ IsTab s := by
  intro htab
  rw [IsTab, h] at htab
  exact absurd (List.cons.inj htab).1 (by decide)

/-- A text that begins with a dash is no indent. -/
theorem parse_dash {s : String} {cs : List Char} (h : s.toList = '-' :: cs) : parse s = none := by
  rw [Option.eq_none_iff_forall_ne_some]
  intro i hi
  rcases parse_eq_some_iff.1 hi with ⟨htab, -⟩ | ⟨n, -, hn, -⟩
  · exact not_isTab_dash h htab
  · rw [h] at hn
    exact Number.not_isNumeral_minus hn

/-- The text of a number, of any sign and size, stands for that width if it is supported. -/
theorem parse_toString_eq_some_iff {k : Int} {i : Indent} :
    parse (toString k) = some i ↔ ∃ n, IsWidth n ∧ k = n ∧ i = .spaces n := by
  rw [parse_eq_some_iff]
  simp only [Number.isNumeral_toString_iff]
  refine or_iff_right ?_
  rintro ⟨htab, -⟩
  cases k with
  | ofNat m => exact htab.not_isNumeral (Number.isNumeral_toString_iff.2 rfl)
  | negSucc m => exact not_isTab_dash (Number.toList_toString_negSucc m) htab

end Indent

namespace IndentSetting

theorem resolve_eq_parse_display (setting : IndentSetting) :
    setting.resolve = Indent.parse setting.display := by
  cases setting with
  | width w =>
    ext i
    rw [resolve, display, Indent.parse_toString_eq_some_iff, Indent.ofWidth_eq_some_iff]
  | name s => rfl

end IndentSetting

namespace Manifest

theorem readIndent_integer {k : Int} (h : Number.isInt64 k = true) :
    readIndent (.integer k) = .ok (.width (Int64.ofInt k)) := by
  have hword : Number.isWord64 k = true := by
    simp only [Number.isInt64, Number.isWord64, Bool.and_eq_true, decide_eq_true_eq] at h ⊢
    omega
  simp only [readIndent, Model.survey, hword, h, if_true]

theorem toOption_readIndent_integer {k : Int} (h : Number.isInt64 k = false) :
    (readIndent (.integer k)).toOption = none := by
  unfold readIndent
  split
  · rfl
  · simp only [h, Bool.false_eq_true, if_false]
    rfl

/-- A number that a manifest gives as its indent means what its text means. -/
theorem resolve_integer (k : Int) : (readIndent (.integer k)).toOption.bind IndentSetting.resolve =
    Indent.parse (toString k) := by
  ext i
  rw [Indent.parse_toString_eq_some_iff]
  cases h : Number.isInt64 k with
  | true =>
    rw [readIndent_integer h]
    change Indent.ofWidth (Int64.ofInt k) = some i ↔ _
    simp only [Number.isInt64, Bool.and_eq_true, decide_eq_true_eq] at h
    rw [Indent.ofWidth_eq_some_iff, Int64.toInt_ofInt_of_le (by omega) (by omega)]
  | false =>
    rw [toOption_readIndent_integer h, Option.bind_none]
    refine iff_of_false nofun ?_
    rintro ⟨n, hn, rfl, -⟩
    simp only [Number.isInt64, Bool.and_eq_false_iff, decide_eq_false_iff_not] at h
    unfold Indent.IsWidth at hn
    omega

theorem resolve_string (text : String) :
    (readIndent (.string text)).toOption.bind IndentSetting.resolve = Indent.parse text := rfl

/-- Validation finds fault with the indent of a manifest exactly if there is no such indent. -/
theorem defect_eq_unsupportedIndent_iff {m : Manifest} {setting : IndentSetting}
    (h : m.format.indent = some setting) :
    m.defect = some (.unsupportedIndent setting) ↔ setting.resolve = none := by
  constructor
  · intro hdefect
    obtain ⟨before, c, after, -, -, hc⟩ := (defect_eq_some_iff m _).1 hdefect
    cases c with
    | indent own =>
      cases hown : own.resolve with
      | some i => simp [Check.defect, hown] at hc
      | none =>
        simp only [Check.defect, hown, Option.some.injEq, Defect.unsupportedIndent.injEq] at hc
        rw [← hc, hown]
    | separator key value => simp [Check.defect] at hc
    | version v extendedType => simp [Check.defect] at hc
    | name path kind n => cases hflaw : NameFlaw.ofName n <;> simp [Check.defect, hflaw] at hc
  · intro hnone
    simp [Manifest.defect, FormatOptions.defect, Defect.ofIndent, h, hnone]

/-- The same manifest with another indent or none. -/
def withIndent (m : Manifest) (setting : Option IndentSetting) : Manifest :=
  { m with format := { m.format with indent := setting } }

/-- An indent that is given from outside goes before any in the manifest. -/
theorem style_withIndent {m : Manifest} {i : Indent} (h : m.indent = some i)
    (other : Option IndentSetting) : (m.withIndent other).style (some i) = m.style none := by
  simp [style, withIndent, h]

end Manifest

/-! ## The option -/

namespace CommandLine

theorem splitEquals_append {name : List Char} (h : '=' ∉ name) (value : List Char) :
    splitEquals (name ++ '=' :: value) = (name, some value) := by
  induction name with
  | nil => simp [splitEquals]
  | cons c name ih =>
    rw [List.mem_cons, not_or] at h
    simp [splitEquals, ih h.2, Ne.symm h.1]

theorem token_attached {name value arg : String} (h : '=' ∉ name.toList)
    (harg : arg.toList = '-' :: '-' :: (name.toList ++ '=' :: value.toList)) :
    token arg = .long name (some value) := by
  have hsplit := splitEquals_append h value.toList
  unfold token
  split
  · simp_all
  · rename_i cs _ hcs
    rw [harg] at hcs
    cases hcs
    rw [hsplit, Option.map_some, String.ofList_toList, String.ofList_toList]
  · simp_all
  · simp_all

/-- Only an argument that begins with a dash is no plain one. -/
theorem token_plain {arg : String} (h : ∀ cs, arg.toList ≠ '-' :: cs) : token arg = .plain arg := by
  unfold token
  split
  · rename_i harg
    exact absurd harg (h _)
  · rename_i harg
    exact absurd harg (h _)
  · rename_i harg
    exact absurd harg (h _)
  · rfl

def indentOption : OptionSpec :=
  { name := "indent", kind := .value, accepts := fun s => (Indent.parse s).isSome }

theorem find_indentOption : emitOptions.find? (·.name == "indent") = some indentOption := rfl

theorem long_indent_attached (text : String) (g : Given) :
    long emitOptions "indent" (some text) g = afterAdding (g.add indentOption text) := by
  rw [long, find_indentOption]
  rfl

theorem long_indent_apart (g : Given) :
    long emitOptions "indent" none g = .awaits indentOption g := by
  rw [long, find_indentOption]
  rfl

/-- What the arguments say if they give an indent and nothing else. -/
def onlyIndent (text : String) : Given := { values := [("indent", text)] }

theorem add_indentOption (text : String) : Given.add indentOption text {} =
    if (Indent.parse text).isSome then some (onlyIndent text) else none := by
  cases h : Indent.parse text <;> simp [Given.add, Given.has, indentOption, onlyIndent, h]

/-- The command that writes with the indent to the user, and gives no other option. -/
def emitIndented (i : Indent) : Command := .emit defaultManifest false { indent := some i }

theorem emitCommand_onlyIndent {text : String} {i : Indent} (h : Indent.parse text = some i) :
    emitCommand (onlyIndent text) = some (emitIndented i) := by
  simp [emitCommand, onlyIndent, emitIndented, Given.has, h]

theorem parse_emit (args : List String) :
    parse ("emit" :: args) = finish emitCommand (read emitOptions (fun _ => true) 0 args {}) := rfl

theorem parse_indent_attached (text : String) :
    parse ["emit", "--indent=" ++ text] = (Indent.parse text).map emitIndented := by
  have htoken : token ("--indent=" ++ text) = .long "indent" (some text) :=
    token_attached (by decide) (by simp [String.toList_append])
  rw [parse_emit, read, htoken]
  dsimp only
  rw [long_indent_attached, add_indentOption]
  cases h : Indent.parse text with
  | none => rfl
  | some i => exact emitCommand_onlyIndent h

theorem parse_indent_apart (text : String) :
    parse ["emit", "--indent", text] = (Indent.parse text).map emitIndented := by
  have htoken : token "--indent" = .long "indent" none := rfl
  rw [parse_emit, read, htoken]
  dsimp only
  rw [long_indent_apart]
  dsimp only
  rw [add_indentOption]
  cases h : Indent.parse text with
  | none => cases token text <;> rfl
  | some i =>
    have hplain : token text = .plain text := token_plain fun cs hcs => by
      rw [Indent.parse_dash hcs] at h
      cases h
    rw [hplain]
    exact emitCommand_onlyIndent h

end CommandLine

open CommandLine (emitIndented) in
/-- An indent in a manifest is the one that its text stands for, be it a number of any size or a
text, and the option of the command line takes exactly the texts that stand for one, next to its
name or after it. So validation finds fault with the indent of a manifest exactly if the option
refuses the same text. Otherwise the option gives the indent of the manifest, and a manifest with
that option is emitted in the same style, whatever indent it has of its own. -/
theorem indent_alike_everywhere :
    (∀ setting : IndentSetting, setting.resolve = Indent.parse setting.display) ∧
    (∀ k : Int, (Manifest.readIndent (.integer k)).toOption.bind IndentSetting.resolve =
      Indent.parse (toString k)) ∧
    (∀ text, (Manifest.readIndent (.string text)).toOption.bind IndentSetting.resolve =
      Indent.parse text) ∧
    (∀ text, CommandLine.parse ["emit", "--indent=" ++ text] =
        (Indent.parse text).map emitIndented ∧
      CommandLine.parse ["emit", "--indent", text] = (Indent.parse text).map emitIndented) ∧
    ∀ (m : Manifest) (setting : IndentSetting), m.format.indent = some setting →
      (m.defect = some (.unsupportedIndent setting) ↔
        CommandLine.parse ["emit", "--indent=" ++ setting.display] = none) ∧
      (∀ i, m.indent = some i ↔
        CommandLine.parse ["emit", "--indent=" ++ setting.display] = some (emitIndented i)) ∧
      ∀ i, m.indent = some i → ∀ other, (m.withIndent other).style (some i) = m.style none := by
  refine ⟨IndentSetting.resolve_eq_parse_display, Manifest.resolve_integer,
    Manifest.resolve_string, fun text => ⟨CommandLine.parse_indent_attached text,
      CommandLine.parse_indent_apart text⟩, fun m setting h => ⟨?_, fun i => ?_, fun i hi => ?_⟩⟩
  · rw [Manifest.defect_eq_unsupportedIndent_iff h, CommandLine.parse_indent_attached,
      Option.map_eq_none_iff, setting.resolve_eq_parse_display]
  · have hown : m.indent = Indent.parse setting.display := by
      rw [Manifest.indent, h, Option.bind_some, setting.resolve_eq_parse_display]
    rw [hown, CommandLine.parse_indent_attached, Option.map_eq_some_iff]
    constructor
    · intro hi
      exact ⟨i, hi, rfl⟩
    · rintro ⟨j, hj, hij⟩
      cases hij
      exact hj
  · exact Manifest.style_withIndent hi

/-- A manifest that says nothing but the width of its indent. -/
def widthManifest (w : Int64) : Manifest := { format := { indent := some (.width w) } }

theorem indent_alike_everywhere_widths :
    (widthManifest 4).indent = some (.spaces 4) ∧
    CommandLine.parse ["emit", "--indent=4"] =
      some (CommandLine.emitIndented (.spaces 4)) ∧
    ((widthManifest 4).withIndent (some (.name "Tab"))).style (some (.spaces 4)) =
      (widthManifest 4).style none ∧
    (widthManifest Int64.minValue).defect =
      some (.unsupportedIndent (.width Int64.minValue)) ∧
    CommandLine.parse ["emit", "--indent=-9223372036854775808"] = none := by
  obtain ⟨-, -, -, -, hagree⟩ := indent_alike_everywhere
  have hfour : (widthManifest 4).indent = some (.spaces 4) := rfl
  have hleast : (widthManifest Int64.minValue).defect =
    some (.unsupportedIndent (.width Int64.minValue)) := by decide
  have hfourText : "--indent=" ++ (IndentSetting.width 4).display = "--indent=4" := by decide
  have hleastText : "--indent=" ++ (IndentSetting.width Int64.minValue).display =
    "--indent=-9223372036854775808" := by decide
  obtain ⟨-, hmeans, hstyle⟩ := hagree (widthManifest 4) (.width 4) rfl
  obtain ⟨hrefused, -⟩ := hagree (widthManifest Int64.minValue) (.width Int64.minValue) rfl
  rw [hfourText] at hmeans
  rw [hleastText] at hrefused
  exact ⟨hfour, (hmeans _).1 hfour, hstyle _ hfour _, hleast, hrefused.1 hleast⟩

end SwiftDecl
