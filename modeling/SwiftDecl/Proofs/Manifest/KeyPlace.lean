import SwiftDecl.Proofs.Manifest.ValuePlace
import SwiftDecl.Proofs.Text.Lines

/-!
# SwiftDecl.Proofs.Manifest.KeyPlace

Places that are found for a key. The line that is found is the first one that assigns to the key,
in texts with line ends of either kind. Its offset is counted as if every line end were one byte, so
that it falls behind by one with each line end of two.

* `exists_firstAssignment` — the line that is found, and how far behind it the place is.
* `key_place_true_iff` — when that is the offset of the line.
* `key_place_drifts` — a text where it is not.
-/

namespace SwiftDecl

open Text (byteLength dropBlanks dropBlanksEnd leadingBlanks isBlank crlfs)

namespace Place

/-- Without the blanks around it, the line starts with the key and goes on, perhaps after blanks,
with an equals sign. -/
def Assigns (key line : String) : Prop :=
  ∃ gap rest, Text.trim line = key ++ gap ++ "=" ++ rest ∧
    ∀ c ∈ gap.toList, isBlank c = true

theorem assigns_eq_true_iff {key line : List Char} : assigns key line = true ↔
    ∃ gap rest, dropBlanksEnd (dropBlanks line) = key ++ gap ++ '=' :: rest ∧
      ∀ c ∈ gap, isBlank c = true := by
  have hequals : isBlank '=' = false := by decide
  constructor
  · intro h
    unfold assigns at h
    split at h
    · cases h
    · rename_i rest hrest
      obtain ⟨r, hr⟩ : ∃ r, dropBlanks rest = '=' :: r := by
        cases hd : dropBlanks rest with
        | nil => simp [hd] at h
        | cons c r => exact ⟨r, by simpa [hd] using h⟩
      have hline : dropBlanks line = key ++ leadingBlanks rest ++ '=' :: r := by
        rw [List.append_assoc, ← hr, Text.leadingBlanks_append_dropBlanks]
        exact Text.afterStart_eq_some_iff.1 hrest
      refine ⟨leadingBlanks rest, dropBlanksEnd r, ?_, fun c hc => ?_⟩
      · rw [hline, Text.dropBlanksEnd_append_cons hequals]
      · exact List.all_eq_true.1 (List.all_takeWhile ..) c hc
  · rintro ⟨gap, rest, htrim, hgap⟩
    obtain ⟨blanks, hblanks, -⟩ := Text.exists_dropBlanksEnd_append (dropBlanks line)
    have hstart : Text.afterStart key (dropBlanks line) =
        some (gap ++ '=' :: (rest ++ blanks)) := by
      rw [Text.afterStart_eq_some_iff, hblanks, htrim]
      simp
    simp only [assigns, hstart, Text.dropBlanks_append_cons hgap hequals, List.head?_cons,
      beq_self_eq_true]

theorem assigns_toList_iff (key line : String) :
    assigns key.toList line.toList = true ↔ Assigns key line := by
  rw [assigns_eq_true_iff]
  constructor
  · rintro ⟨gap, rest, htrim, hgap⟩
    refine ⟨.ofList gap, .ofList rest, String.toList_injective ?_, by simpa using hgap⟩
    simpa [Text.trim] using htrim
  · rintro ⟨gap, rest, htrim, hgap⟩
    refine ⟨gap.toList, rest.toList, ?_, hgap⟩
    have hlist := congrArg String.toList htrim
    simpa [Text.trim] using hlist

theorem ofKeyFrom_eq_none_iff {offset : Nat} {key : List Char} {lines : List (List Char)} :
    ofKeyFrom offset key lines = none ↔ ∀ l ∈ lines, ¬ assigns key l = true := by
  induction lines generalizing offset with
  | nil => simp [ofKeyFrom]
  | cons line lines ih =>
    rw [ofKeyFrom]
    split
    · rename_i h
      simp [h]
    · rename_i h
      simp [ih, h]

theorem ofKeyFrom_eq_some {offset : Nat} {key : List Char} {lines : List (List Char)} {p : Place}
    (h : ofKeyFrom offset key lines = some p) :
    ∃ earlier line later, lines = earlier ++ line :: later ∧
      (∀ l ∈ earlier, ¬ assigns key l = true) ∧ assigns key line = true ∧
      p = ⟨offset + Text.lfLength earlier + byteLength (leadingBlanks line),
        byteLength (dropBlanksEnd (dropBlanks line))⟩ := by
  induction lines generalizing offset with
  | nil => cases h
  | cons line lines ih =>
    rw [ofKeyFrom] at h
    split at h
    · rename_i hassigns
      have hline := congrArg byteLength (Text.leadingBlanks_append_dropBlanks line)
      rw [Text.byteLength_append] at hline
      have hindent : byteLength line - byteLength (dropBlanks line) =
          byteLength (leadingBlanks line) := by omega
      refine ⟨[], line, lines, rfl, by simp, hassigns, ?_⟩
      rw [← Option.some.inj h, hindent]
      rfl
    · rename_i hother
      obtain ⟨earlier, found, later, rfl, hnone, hassigns, rfl⟩ := ih h
      refine ⟨line :: earlier, found, later, rfl, List.forall_mem_cons.2 ⟨hother, hnone⟩,
        hassigns, ?_⟩
      rw [Text.lfLength]
      congr 1
      omega

/-- Where a line stands without the blanks around it. -/
def ofTrimmed (before line : String) : Place :=
  ⟨(before ++ String.ofList (leadingBlanks line.toList)).utf8ByteSize,
    (Text.trim line).utf8ByteSize⟩

theorem ofTrimmed_eq (before line : String) : ofTrimmed before line =
    ⟨byteLength before.toList + byteLength (leadingBlanks line.toList),
      byteLength (dropBlanksEnd (dropBlanks line.toList))⟩ := by
  simp only [ofTrimmed, ← Text.byteLength_toList, String.toList_append, String.toList_ofList,
    Text.byteLength_append, Text.trim]

/-- The first line of the source that assigns to the key, with the texts around it. -/
structure FirstAssignment (source key before line after : String) : Prop where
  split : source = before ++ line ++ after
  /-- All the lines before it are whole. -/
  start : before = "" ∨ before.toList.getLast? = some '\n'
  lines : ∃ later, Text.lines source = Text.lines before ++ line :: later
  assigns : Assigns key line
  least : ∀ l ∈ Text.lines before, ¬ Assigns key l

theorem FirstAssignment.covers {source key before line after : String}
    (h : FirstAssignment source key before line after) :
    (ofTrimmed before line).Covers source (Text.trim line) := by
  obtain ⟨blanks, hblanks, -⟩ := Text.exists_dropBlanksEnd_append (dropBlanks line.toList)
  have htrim : (Text.trim line).toList = dropBlanksEnd (dropBlanks line.toList) :=
    String.toList_ofList
  have hline : line.toList =
      leadingBlanks line.toList ++ ((Text.trim line).toList ++ blanks) := by
    rw [htrim, ← hblanks, Text.leadingBlanks_append_dropBlanks]
  refine covers_iff.2 ⟨before.toList ++ leadingBlanks line.toList, blanks ++ after.toList, ?_, ?_⟩
  · calc source.toList = before.toList ++ line.toList ++ after.toList := by
          rw [h.split, String.toList_append, String.toList_append]
      _ = before.toList ++ (leadingBlanks line.toList ++ ((Text.trim line).toList ++ blanks)) ++
          after.toList := congrArg (before.toList ++ · ++ after.toList) hline
      _ = _ := by simp only [List.append_assoc]
  · rw [ofTrimmed_eq, Text.byteLength_append, htrim]

theorem ofKey_eq_none_iff {source key : String} :
    ofKey source key = none ↔ ∀ line ∈ Text.lines source, ¬ Assigns key line := by
  rw [ofKey, ofKeyFrom_eq_none_iff, Text.lines, List.forall_mem_map]
  simp only [← assigns_toList_iff, String.toList_ofList]

/-- The place that is found falls behind that of the line by one byte with each line end of two. -/
theorem exists_firstAssignment {source key : String} {p : Place} (h : ofKey source key = some p) :
    ∃ before line after, FirstAssignment source key before line after ∧
      p.length = (ofTrimmed before line).length ∧
      p.offset + crlfs before.toList = (ofTrimmed before line).offset := by
  obtain ⟨earlier, l, later, hlines, hnone, hassigns, rfl⟩ := ofKeyFrom_eq_some h
  obtain ⟨before, after, hsplit, rfl, hstart, hbytes⟩ := Text.exists_before_of_splitLines hlines
  have hfirst : FirstAssignment source key (.ofList before) (.ofList l) (.ofList after) := by
    refine ⟨String.toList_injective (by simpa using hsplit), by simpa using hstart,
      ⟨later.map .ofList, ?_⟩, ?_, ?_⟩
    · rw [Text.lines, Text.lines, hlines, String.toList_ofList, List.map_append, List.map_cons]
    · simpa [← assigns_toList_iff] using hassigns
    · rw [Text.lines, String.toList_ofList, List.forall_mem_map]
      simpa [← assigns_toList_iff] using hnone
  have hplace := ofTrimmed_eq (.ofList before) (.ofList l)
  simp only [String.toList_ofList] at hplace
  refine ⟨_, _, _, hfirst, by rw [hplace], ?_⟩
  simp only [hplace, String.toList_ofList]
  omega

end Place

/-! ## Defects of keys -/

namespace Defect

/-- The key whose setting a defect is about. -/
def key : Defect → Option String
  | .unsupportedIndent _ => some "indent"
  | .emptySeparator key => some key
  | .unsupportedVersion _ _ => none
  | .badName _ _ _ _ => none

theorem place_of_key {d : Defect} {key : String} (h : d.key = some key) (source : String) :
    d.place source = Place.ofKey source key := by
  cases d with
  | unsupportedIndent setting => exact congrArg (Place.ofKey source) (Option.some.inj h)
  | emptySeparator separator => exact congrArg (Place.ofKey source) (Option.some.inj h)
  | unsupportedVersion v extendedType => cases h
  | badName name kind path flaw => cases h

end Defect

open Place

/-- The place for a key is found exactly if some line assigns to the key, and it is meant to be that
of the first such line, without the blanks around it. That line is found by its text alone and may
also stand within a string of several lines, before the line that does give the key its value. The
place has the right length. Its offset is too small by the number of line ends of two bytes before
the line, so that it is right exactly if there are none. The remark on a bad setting is on the place
for its key. -/
theorem key_place_true_iff (source key : String) :
    (ofKey source key = none ↔ ∀ line ∈ Text.lines source, ¬ Assigns key line) ∧
    (∀ p, ofKey source key = some p →
      ∃ before line after, FirstAssignment source key before line after ∧
        (ofTrimmed before line).Covers source (Text.trim line) ∧
        p.length = (ofTrimmed before line).length ∧
        p.offset + crlfs before.toList = (ofTrimmed before line).offset ∧
        (p = ofTrimmed before line ↔ ¬ ['\r', '\n'] <:+: before.toList)) ∧
    ∀ text d, Manifest.ofText source = .error (.defect text d) → d.key = some key →
      (Problem.defect text d).labels = (ofKey source key).toList.map (d.label, ·) := by
  refine ⟨ofKey_eq_none_iff, fun p hp => ?_, fun text d hload hkey => ?_⟩
  · obtain ⟨before, line, after, hfirst, hlength, hoffset⟩ := exists_firstAssignment hp
    refine ⟨before, line, after, hfirst, hfirst.covers, hlength, hoffset, ?_⟩
    rw [← Text.crlfs_eq_zero_iff]
    constructor
    · rintro rfl
      omega
    · intro hnone
      rw [hnone, Nat.add_zero] at hoffset
      cases p
      cases hoffset
      cases hlength
      rfl
  · rw [Problem.labels_of_ofText hload, Defect.place_of_key hkey]

/-- A bad setting after a line end of two bytes. -/
def crlfManifest : String := "[format]\r\nindent = 5\r\n"

/-- The place begins at the line feed before the setting and ends before the number, so that it is
the place of no line. -/
theorem key_place_drifts :
    let d := Defect.unsupportedIndent (.width 5)
    Manifest.ofText crlfManifest = .error (.defect crlfManifest d) ∧
    (Problem.defect crlfManifest d).labels = [("unsupported indent", ⟨9, 10⟩)] ∧
    (⟨9, 10⟩ : Place).Covers crlfManifest "\nindent = " ∧
    ∀ line ∈ Text.lines crlfManifest, ¬ (⟨9, 10⟩ : Place).Covers crlfManifest (Text.trim line) := by
  intro d
  have hdefect : (Manifest.parsed crlfManifest).bind Manifest.defect = some d := by
    decide +kernel
  have hcovers : (⟨9, 10⟩ : Place).Covers crlfManifest "\nindent = " :=
    ⟨"[format]\r", "5\r\n", by decide +kernel, by decide +kernel⟩
  refine ⟨Manifest.ofText_defect_iff.2 ⟨hdefect, rfl⟩, by decide +kernel, hcovers,
    fun line hline hline' => ?_⟩
  have hnone : ∀ l ∈ Text.lines crlfManifest, Text.trim l ≠ "\nindent = " := by decide +kernel
  exact hnone line hline (hline'.unique hcovers)

end SwiftDecl
