import Mathlib.Data.List.DropRight
import Mathlib.Data.List.TakeWhile
import SwiftDecl.TypeRef.Parser

/-!
# SwiftDecl.Proofs.TypeRef.Tokens

The text of a type as a sequence of tokens: names, each as long as it can be, and single
characters. Blanks separate tokens and are none. Every text has tokens, also one that is no type.

* `tokens_blank`, `tokens_name`, `tokens_mark` — the first token and the text after it.
* `isName_of_mem_tokens` — a name among the tokens is spelled as names are.
* `tokens_append` — tokens of two texts side by side, if no name runs over the border.
* `eat_of_tokens`, `eat_of_tokens_ne` — eating a mark is reading one token.
-/

namespace SwiftDecl

/-- The code points of a table of ranges, one by one. -/
def Ranges.points (rs : Ranges) : List Nat :=
  rs.flatMap fun r => List.range' r.1 (r.2 + 1 - r.1)

theorem Ranges.mem_points_of_covers {rs : Ranges} {n : Nat} (h : rs.covers n = true) :
    n ∈ rs.points := by
  obtain ⟨r, hr, hlo, hhi⟩ := exists_of_covers h
  simp only [points, List.mem_flatMap, List.mem_range'_1]
  exact ⟨r, hr, hlo, by omega⟩

namespace TypeRef

open Text (isBlank dropBlanks)

theorem alphabetic_blank_disjoint :
    ∀ n ∈ Text.blankRanges.points, Text.alphabeticRanges.covers n = false := by decide +kernel

theorem isAlphabetic_of_isBlank {c : Char} (h : isBlank c = true) : Text.isAlphabetic c = false :=
  alphabetic_blank_disjoint _ (Ranges.mem_points_of_covers h)

theorem isNamePart_of_isBlank {c : Char} (h : isBlank c = true) : isNamePart c = false := by
  have hne : ∀ d : Char, isBlank d = false → c ≠ d := fun d hd =>
    ne_of_apply_ne isBlank (by simp [h, hd])
  have hd : c.isDigit = false := by
    have hp : c.toNat ∈ Text.blankRanges.points := Ranges.mem_points_of_covers h
    have hall : ∀ n ∈ Text.blankRanges.points, n < 48 ∨ 57 < n := by decide +kernel
    have hn := hall _ hp
    simp only [Char.isDigit, Bool.and_eq_false_iff, decide_eq_false_iff_not, ge_iff_le,
      UInt32.le_iff_toNat_le, Nat.not_le]
    exact hn
  simp [isNamePart, isNameStart, isAlphabetic_of_isBlank h, hd, hne '.' (by decide),
    hne '_' (by decide), hne '\x60' (by decide)]

theorem isNamePart_of_isNameStart {c : Char} (h : isNameStart c = true) : isNamePart c = true := by
  simp [isNamePart, h]

theorem isNameStart_eq_false {c : Char} (h : isNamePart c = false) : isNameStart c = false := by
  simp only [isNamePart, Bool.or_eq_false_iff] at h
  exact h.1.2

theorem isBlank_of_isNamePart {c : Char} (h : isNamePart c = true) : isBlank c = false := by
  cases hb : isBlank c with
  | false => rfl
  | true =>
    rw [isNamePart_of_isBlank hb] at h
    cases h

/-- The spelling of a name: it begins as names do, and goes on with characters of a name. -/
def isName (s : String) : Bool :=
  match s.toList with
  | [] => false
  | c :: cs => isNameStart c && cs.all isNamePart

theorem isName_cons {c : Char} {cs : List Char} :
    isName (String.ofList (c :: cs)) = (isNameStart c && cs.all isNamePart) := by
  simp [isName]

theorem isName_eq_true {s : String} (h : isName s = true) :
    ∃ c cs, s = String.ofList (c :: cs) ∧ isNameStart c = true ∧ ∀ d ∈ cs, isNamePart d = true := by
  unfold isName at h
  split at h
  · cases h
  · rename_i c cs hs
    simp only [Bool.and_eq_true, List.all_eq_true] at h
    refine ⟨c, cs, ?_, h.1, h.2⟩
    rw [← hs, String.ofList_toList]

inductive Token where
  | mark (c : Char)
  | name (s : String)
  deriving DecidableEq

def tokens (cs : List Char) : List Token :=
  match _h : dropBlanks cs with
  | [] => []
  | c :: rest =>
    if isNameStart c then
      .name (String.ofList (c :: rest.takeWhile isNamePart)) :: tokens (rest.dropWhile isNamePart)
    else .mark c :: tokens rest
termination_by cs.length
decreasing_by
  · exact Nat.lt_of_le_of_lt (List.dropWhile_sublist _).length_le (length_lt_of_dropBlanks _h)
  · exact length_lt_of_dropBlanks _h

theorem tokens_dropBlanks (cs : List Char) : tokens (dropBlanks cs) = tokens cs := by
  rw [tokens, tokens, dropBlanks, dropBlanks, List.dropWhile_idempotent]

theorem tokens_eq_nil_iff {cs : List Char} : tokens cs = [] ↔ dropBlanks cs = [] := by
  rw [tokens]
  split
  · rename_i h; simp [h]
  · rename_i c rest h
    rw [h]
    split <;> simp

@[simp] theorem tokens_nil : tokens [] = [] := tokens_eq_nil_iff.2 rfl

theorem dropBlanks_of_not_isBlank {c : Char} (cs : List Char) (h : isBlank c = false) :
    dropBlanks (c :: cs) = c :: cs := by
  simp [dropBlanks, h]

theorem tokens_blank {c : Char} {cs : List Char} (h : isBlank c = true) :
    tokens (c :: cs) = tokens cs := by
  rw [← tokens_dropBlanks (c :: cs), dropBlanks, List.dropWhile_cons_of_pos h, ← dropBlanks,
    tokens_dropBlanks]

theorem tokens_name {c : Char} {cs : List Char} (h : isNameStart c = true) :
    tokens (c :: cs) =
      .name (String.ofList (c :: cs.takeWhile isNamePart)) :: tokens (cs.dropWhile isNamePart) := by
  have hb := dropBlanks_of_not_isBlank cs
    (isBlank_of_isNamePart (isNamePart_of_isNameStart h))
  rw [tokens]
  split
  · rename_i hd; rw [hb] at hd; cases hd
  · rename_i d rest hd
    rw [hb] at hd
    cases hd
    rw [if_pos h]

theorem tokens_mark {c : Char} {cs : List Char} (hb : isBlank c = false)
    (h : isNameStart c = false) : tokens (c :: cs) = .mark c :: tokens cs := by
  have hb := dropBlanks_of_not_isBlank cs hb
  rw [tokens]
  split
  · rename_i hd; rw [hb] at hd; cases hd
  · rename_i d rest hd
    rw [hb] at hd
    cases hd
    rw [if_neg (by simp [h])]

theorem tokens_blanks {w : List Char} (h : ∀ c ∈ w, isBlank c = true) : tokens w = [] := by
  rw [tokens_eq_nil_iff, dropBlanks, List.dropWhile_eq_nil_iff]
  exact h

theorem dropBlanks_of_tokens_mark {cs : List Char} {m : Char} {us : List Token}
    (h : tokens cs = .mark m :: us) : ∃ r, dropBlanks cs = m :: r ∧ tokens r = us := by
  rw [tokens] at h
  split at h
  · cases h
  · rename_i c r hd
    split at h
    · cases h
    · cases h
      exact ⟨r, hd, rfl⟩

theorem dropBlanks_of_tokens_name {cs : List Char} {s : String} {us : List Token}
    (h : tokens cs = .name s :: us) :
    ∃ c r, dropBlanks cs = c :: r ∧ isNameStart c = true ∧
      s = String.ofList (c :: r.takeWhile isNamePart) ∧ tokens (r.dropWhile isNamePart) = us := by
  rw [tokens] at h
  split at h
  · cases h
  · rename_i c r hd
    split at h
    · rename_i hc
      cases h
      exact ⟨c, r, hd, hc, rfl, rfl⟩
    · cases h

/-- A name among the tokens is spelled as names are. -/
theorem isName_of_mem_tokens {cs : List Char} {s : String} (h : .name s ∈ tokens cs) :
    isName s = true := by
  fun_induction tokens cs with
  | case1 => cases h
  | case2 cs c rest hd hc ih =>
    rcases List.mem_cons.1 h with h | h
    · cases h
      rw [isName_cons, hc, Bool.true_and, List.all_takeWhile]
    · exact ih h
  | case3 cs c rest hd hc ih =>
    rcases List.mem_cons.1 h with h | h
    · cases h
    · exact ih h

/-- No name runs over the border between two texts. -/
def Apart (a b : List Char) : Prop :=
  ∀ c d, a.getLast? = some c → b.head? = some d → isNamePart c = true → isNamePart d = false

theorem Apart.suffix {a b s : List Char} (h : Apart a b) (hs : s <:+ a) : Apart s b := by
  intro c d hc hd
  obtain ⟨p, rfl⟩ := hs
  exact h c d (by simp [List.getLast?_append, hc]) hd

theorem apart_of_head {a b : List Char} (h : ∀ d, b.head? = some d → isNamePart d = false) :
    Apart a b := fun _ d _ hd _ => h d hd

/-- A run of name characters at the end of one text stops at the border. -/
theorem Apart.head {c : Char} {cs b : List Char} (h : Apart (c :: cs) b)
    (hc : isNamePart c = true) (hcs : ∀ d ∈ cs, isNamePart d = true) :
    ∀ d, b.head? = some d → isNamePart d = false := by
  intro d hd
  obtain ⟨l, hl⟩ : ∃ l, (c :: cs).getLast? = some l := ⟨_, List.getLast?_cons⟩
  refine h l d hl hd ?_
  rcases List.mem_cons.1 (List.mem_of_getLast? hl) with rfl | hm
  · exact hc
  · exact hcs l hm

theorem takeWhile_of_head {p : Char → Bool} {cs : List Char}
    (h : ∀ d, cs.head? = some d → p d = false) : cs.takeWhile p = [] ∧ cs.dropWhile p = cs := by
  cases cs with
  | nil => exact ⟨rfl, rfl⟩
  | cons d cs =>
    have hd := h d rfl
    simp [hd]

theorem dropBlanks_append {a rest : List Char} {c : Char} (b : List Char)
    (ha : dropBlanks a = c :: rest) : dropBlanks (a ++ b) = c :: (rest ++ b) := by
  rw [dropBlanks, List.dropWhile_append, ← dropBlanks, ha]
  rfl

/-- The rest of a name that starts one text ends there, if the other does not go on with it. -/
theorem namePart_append {rest b : List Char}
    (h : (∀ d ∈ rest, isNamePart d = true) → ∀ d, b.head? = some d → isNamePart d = false) :
    (rest ++ b).takeWhile isNamePart = rest.takeWhile isNamePart ∧
      (rest ++ b).dropWhile isNamePart = rest.dropWhile isNamePart ++ b := by
  by_cases hall : ∀ d ∈ rest, isNamePart d = true
  · obtain ⟨ht, hd⟩ := takeWhile_of_head (h hall)
    rw [List.takeWhile_append_of_pos hall, List.dropWhile_append_of_pos hall, ht, hd,
      List.takeWhile_eq_self_iff.2 hall, List.dropWhile_eq_nil_iff.2 hall, List.append_nil]
    exact ⟨rfl, rfl⟩
  · have hne : rest.dropWhile isNamePart ≠ [] := fun he => hall (List.dropWhile_eq_nil_iff.1 he)
    have hlen : (rest.takeWhile isNamePart).length ≠ rest.length := by
      intro hl
      refine hall (List.takeWhile_eq_self_iff.1 ?_)
      exact (List.takeWhile_sublist _).eq_of_length hl
    rw [List.takeWhile_append, List.dropWhile_append, if_neg hlen, if_neg (by simpa using hne)]
    exact ⟨rfl, rfl⟩

theorem tokens_append {a b : List Char} (h : Apart a b) :
    tokens (a ++ b) = tokens a ++ tokens b := by
  fun_induction tokens a with
  | case1 a ha =>
    rw [← tokens_dropBlanks (a ++ b), dropBlanks, List.dropWhile_append, ← dropBlanks, ha]
    exact tokens_dropBlanks b
  | case2 a c rest ha hc ih =>
    have hsuf : c :: rest <:+ a := ha ▸ List.dropWhile_suffix _
    have hbody := namePart_append ((h.suffix hsuf).head (isNamePart_of_isNameStart hc))
    have hrest : rest.dropWhile isNamePart <:+ a :=
      (List.dropWhile_suffix _).trans ((List.suffix_cons c rest).trans hsuf)
    rw [← tokens_dropBlanks (a ++ b), dropBlanks_append b ha, tokens_name hc, hbody.1, hbody.2,
      ih (h.suffix hrest)]
    rfl
  | case3 a c rest ha hc ih =>
    have hsuf : c :: rest <:+ a := ha ▸ List.dropWhile_suffix _
    have hrest : rest <:+ a := (List.suffix_cons c rest).trans hsuf
    rw [← tokens_dropBlanks (a ++ b), dropBlanks_append b ha,
      tokens_mark (Text.dropBlanks_head ha) (by simpa using hc), ih (h.suffix hrest)]
    rfl

theorem tokens_append_mark {m : Char} (cs rest : List Char) (hm : isNamePart m = false)
    (hb : isBlank m = false) : tokens (cs ++ m :: rest) = tokens cs ++ .mark m :: tokens rest := by
  have happ : Apart cs (m :: rest) := apart_of_head fun d hd => by cases hd; exact hm
  rw [tokens_append happ, tokens_mark hb (isNameStart_eq_false hm)]

theorem tokens_append_blank {b : Char} (cs rest : List Char) (hb : isBlank b = true) :
    tokens (cs ++ b :: rest) = tokens cs ++ tokens rest := by
  have happ : Apart cs (b :: rest) :=
    apart_of_head fun d hd => by cases hd; exact isNamePart_of_isBlank hb
  rw [tokens_append happ, tokens_blank hb]

/-- The tokens of a name are that name. -/
theorem tokens_isName {s : String} (h : isName s = true) : tokens s.toList = [.name s] := by
  obtain ⟨c, cs, rfl, hc, hcs⟩ := isName_eq_true h
  rw [String.toList_ofList, tokens_name hc, List.takeWhile_eq_self_iff.2 hcs,
    List.dropWhile_eq_nil_iff.2 hcs, tokens_nil]

/-- Blanks between two texts change no token, unless without them a name would run over the
border. -/
theorem tokens_blanks_between {a w b : List Char} (hw : ∀ c ∈ w, isBlank c = true)
    (h : Apart a b) : tokens (a ++ w ++ b) = tokens (a ++ b) := by
  have hnil := tokens_blanks hw
  have hwb : Apart w b := by
    intro c d hc _ hp
    have hb := hw c (List.mem_of_getLast? hc)
    rw [isNamePart_of_isBlank hb] at hp
    cases hp
  have hawb : Apart a (w ++ b) := by
    cases w with
    | nil => exact h
    | cons c w =>
      refine apart_of_head fun d hd => ?_
      cases hd
      exact isNamePart_of_isBlank (hw _ List.mem_cons_self)
  rw [List.append_assoc, tokens_append hawb, tokens_append hwb, hnil, tokens_append h,
    List.nil_append]

/-! ## Eating a mark -/

section Eat

variable {m : Char} {cs rest : List Char}

/-- Eating a mark succeeds if it is the next token. -/
theorem tokens_of_eat_true (hm : isNameStart m = false) (h : eat m cs = (true, rest)) :
    tokens cs = .mark m :: tokens rest := by
  unfold eat at h
  split at h
  · cases h
  · rename_i c r hd
    split at h
    · rename_i hc
      cases h
      rw [← tokens_dropBlanks cs, hd, tokens_mark (Text.dropBlanks_head hd) (hc ▸ hm), hc]
    · cases h

theorem tokens_of_eat_false (h : eat m cs = (false, rest)) : tokens rest = tokens cs := by
  rw [eat_false h, tokens_dropBlanks]

theorem eat_of_tokens {us : List Token} (h : tokens cs = .mark m :: us) :
    ∃ rest, eat m cs = (true, rest) ∧ tokens rest = us := by
  obtain ⟨r, hd, hr⟩ := dropBlanks_of_tokens_mark h
  exact ⟨r, by simp [eat, hd], hr⟩

theorem eat_of_tokens_ne (m : Char) (cs : List Char) (hm : isNameStart m = false)
    (h : (tokens cs).head? ≠ some (.mark m)) :
    eat m cs = (false, dropBlanks cs) := by
  cases he : eat m cs with
  | mk ok rest =>
    cases ok with
    | true => rw [tokens_of_eat_true hm he] at h; exact absurd rfl h
    | false => rw [eat_false he]

end Eat

end TypeRef
end SwiftDecl
