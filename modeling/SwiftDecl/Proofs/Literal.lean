import SwiftDecl.Expression
import SwiftDecl.Number.Digits

/-!
# SwiftDecl.Proofs.Literal

String literals, read back. A literal is looked at in two ways that share nothing with its writer:
as a sequence of marks, where a backslash takes the character after it along, and through a reader
of Swift's escapes.

* `isEnclosed_literalChar` — no mark of a literal ends it or opens an interpolation.
* `readBody_literalChar` — reading takes up a written character, whatever stands after it.
* `string_literal_decodes` — the two together, for the literal of any text.
-/

namespace SwiftDecl

namespace Number

/-- The digits of a number, letters in upper case. -/
def upperHex (n : Nat) : List Char := (Nat.toDigits 16 n).map Char.toUpper

theorem digitValue_upperHex :
    ∀ d, d < 16 → digitValue 16 (Nat.digitChar d).toUpper = some d := by decide

theorem upperHex_eq (n : Nat) : upperHex n =
    if n < 16 then [(Nat.digitChar n).toUpper]
    else upperHex (n / 16) ++ [(Nat.digitChar (n % 16)).toUpper] := by
  rw [upperHex, Nat.toDigits_eq_if (by decide)]
  split
  · rfl
  · rw [List.map_append]
    rfl

theorem exists_digit_of_mem_upperHex {n : Nat} {c : Char} (h : c ∈ upperHex n) :
    ∃ d, d < 16 ∧ c = (Nat.digitChar d).toUpper := by
  induction n using Nat.strongRecOn with
  | ind n ih =>
    rw [upperHex_eq] at h
    split at h
    · rename_i hn
      exact ⟨n, hn, List.mem_singleton.1 h⟩
    · rename_i hn
      rcases List.mem_append.1 h with h | h
      · exact ih (n / 16) (Nat.div_lt_self (by omega) (by decide)) h
      · exact ⟨n % 16, Nat.mod_lt n (by decide), List.mem_singleton.1 h⟩

theorem readBase_upperHex (n : Nat) : readBase 16 (upperHex n) = some n := by
  induction n using Nat.strongRecOn with
  | ind n ih =>
    rw [upperHex_eq]
    split
    · rename_i hn
      simp [readBase, digitValue_upperHex n hn]
    · rename_i hn
      have hfront := ih (n / 16) (Nat.div_lt_self (by omega) (by decide))
      have hlast := digitValue_upperHex (n % 16) (Nat.mod_lt n (by decide))
      have hsum : 16 * (n / 16) + n % 16 = n := Nat.div_add_mod n 16
      rw [readBase] at hfront
      simp [readBase, List.foldlM_append, hfront, hlast, hsum]

theorem isDigitOf_of_mem_upperHex {n : Nat} {c : Char} (h : c ∈ upperHex n) :
    isDigitOf 16 c = true := by
  obtain ⟨d, hd, rfl⟩ := exists_digit_of_mem_upperHex h
  rw [isDigitOf, digitValue_upperHex d hd]
  rfl

theorem length_upperHex (n : Nat) :
    0 < (upperHex n).length ∧ (n < 0x100000000 → (upperHex n).length ≤ 8) := by
  rw [upperHex, List.length_map]
  refine ⟨Nat.length_toDigits_pos, fun hn => ?_⟩
  exact (Nat.length_toDigits_le_iff (by decide) (by decide)).2 hn

end Number

namespace Literal

open Number (upperHex)

/-- A character of a literal: by itself, or together with the backslash before it. -/
inductive Mark where
  | plain (c : Char)
  | escaped (c : Char)
  deriving DecidableEq

def marks : List Char → List Mark
  | [] => []
  | ['\\'] => [.plain '\\']
  | '\\' :: c :: cs => .escaped c :: marks cs
  | c :: cs => .plain c :: marks cs

/-- Whatever follows, the text makes marks of its own, none of which ends a literal or opens an
interpolation. -/
def IsEnclosed (cs : List Char) : Prop :=
  ∃ ms, (∀ rest, marks (cs ++ rest) = ms ++ marks rest) ∧
    .plain '"' ∉ ms ∧ .escaped '(' ∉ ms

theorem isEnclosed_nil : IsEnclosed [] := ⟨[], fun _ => rfl, by simp, by simp⟩

theorem IsEnclosed.append {xs ys : List Char} (hx : IsEnclosed xs) (hy : IsEnclosed ys) :
    IsEnclosed (xs ++ ys) := by
  obtain ⟨ms, hms, hquote, hparen⟩ := hx
  obtain ⟨ns, hns, hquote', hparen'⟩ := hy
  refine ⟨ms ++ ns, fun rest => ?_, ?_, ?_⟩
  · rw [List.append_assoc, hms, hns, List.append_assoc]
  · rw [List.mem_append, not_or]
    exact ⟨hquote, hquote'⟩
  · rw [List.mem_append, not_or]
    exact ⟨hparen, hparen'⟩

theorem isEnclosed_flatMap {α : Type} {f : α → List Char} {xs : List α}
    (h : ∀ x ∈ xs, IsEnclosed (f x)) : IsEnclosed (xs.flatMap f) := by
  induction xs with
  | nil => exact isEnclosed_nil
  | cons x xs ih =>
    rw [List.flatMap_cons]
    exact (h x (.head _)).append (ih fun y hy => h y (.tail _ hy))

theorem isEnclosed_plain {c : Char} (hquote : c ≠ '"') (hslash : c ≠ '\\') : IsEnclosed [c] := by
  refine ⟨[.plain c], fun rest => ?_, ?_, ?_⟩
  · rw [List.singleton_append, marks]
    · rfl
    · rintro rfl
      exact absurd rfl hslash
    · rintro d ds rfl
      exact absurd rfl hslash
  · simpa using hquote.symm
  · simp

theorem isEnclosed_escaped {c : Char} (hparen : c ≠ '(') : IsEnclosed ['\\', c] :=
  ⟨[.escaped c], fun _ => rfl, by simp, by simpa using hparen.symm⟩

theorem isEnclosed_upperHex (n : Nat) : IsEnclosed (upperHex n) := by
  have hdigit : ∀ d, d < 16 →
      (Nat.digitChar d).toUpper ≠ '"' ∧ (Nat.digitChar d).toUpper ≠ '\\' := by decide
  have heach : IsEnclosed ((upperHex n).flatMap fun c => [c]) := by
    refine isEnclosed_flatMap fun c hc => ?_
    obtain ⟨d, hd, rfl⟩ := Number.exists_digit_of_mem_upperHex hc
    exact isEnclosed_plain (hdigit d hd).1 (hdigit d hd).2
  rwa [List.flatMap_singleton'] at heach

/-- The characters with an escape of their own, each after the letter for it. -/
def named : List (Char × Char) :=
  [('"', '"'), ('\\', '\\'), ('n', '\n'), ('r', '\r'), ('t', '\t'), ('0', '\x00')]

/-- A character has a named escape, or it is a control character and has its code, or it stands for
itself. -/
theorem literalChar_cases (c : Char) :
    (∃ d, (d, c) ∈ named ∧ literalChar c = ['\\', d]) ∨
    literalChar c = ['\\', 'u', '\x7b'] ++ upperHex c.toNat ++ ['\x7d'] ∨
    (literalChar c = [c] ∧ c ≠ '"' ∧ c ≠ '\\' ∧ isControl c = false) := by
  by_cases hnamed : ∃ p ∈ named, c = p.2
  · obtain ⟨p, hp, rfl⟩ := hnamed
    have heach : ∀ p ∈ named, literalChar p.2 = ['\\', p.1] := by decide
    exact .inl ⟨p.1, hp, heach p hp⟩
  · obtain ⟨hquote, hslash, hlf, hcr, htab, hnul⟩ : c ≠ '"' ∧ c ≠ '\\' ∧ c ≠ '\n' ∧ c ≠ '\r' ∧
        c ≠ '\t' ∧ c ≠ '\x00' := by simpa [named] using hnamed
    simp only [literalChar, if_neg hquote, if_neg hslash, if_neg hlf, if_neg hcr, if_neg htab,
      if_neg hnul]
    by_cases hcontrol : isControl c = true
    · rw [if_pos hcontrol]
      exact .inr (.inl rfl)
    · rw [if_neg hcontrol]
      exact .inr (.inr ⟨rfl, hquote, hslash, Bool.eq_false_iff.2 hcontrol⟩)

theorem isEnclosed_literalChar (c : Char) : IsEnclosed (literalChar c) := by
  rcases literalChar_cases c with ⟨d, hd, h⟩ | h | ⟨h, hquote, hslash, -⟩
  · have hparen : ∀ p ∈ named, p.1 ≠ '(' := by decide
    rw [h]
    exact isEnclosed_escaped (hparen (d, c) hd)
  · -- The braces and the digits are marks by themselves.
    have hopen : IsEnclosed (['\\', 'u'] ++ ['\x7b']) :=
      (isEnclosed_escaped (by decide)).append (isEnclosed_plain (by decide) (by decide))
    have hclose : IsEnclosed ['\x7d'] := isEnclosed_plain (by decide) (by decide)
    rw [h]
    exact (hopen.append (isEnclosed_upperHex c.toNat)).append hclose
  · rw [h]
    exact isEnclosed_plain hquote hslash

theorem isControl_of_mem_literalChar {c x : Char} (hx : x ∈ literalChar c) :
    isControl x = false := by
  rcases literalChar_cases c with ⟨d, hd, h⟩ | h | ⟨h, -, -, hcontrol⟩
  · have hshown : ∀ p ∈ named, ∀ x ∈ ['\\', p.1], isControl x = false := by
      simp [named, isControl]
    exact hshown (d, c) hd x (h ▸ hx)
  · have hframe : ∀ x ∈ ['\\', 'u', '\x7b', '\x7d'], isControl x = false := by
      simp [isControl]
    have hdigit : ∀ d, d < 16 → isControl (Nat.digitChar d).toUpper = false := by decide
    rw [h, List.mem_append, List.mem_append] at hx
    rcases hx with (hx | hx) | hx
    · exact hframe x (List.mem_append_left ['\x7d'] hx)
    · obtain ⟨d, hd, rfl⟩ := Number.exists_digit_of_mem_upperHex hx
      exact hdigit d hd
    · exact hframe x (List.mem_append_right ['\\', 'u', '\x7b'] hx)
  · rw [h, List.mem_singleton] at hx
    exact hx ▸ hcontrol

/-! ## Reading -/

/-- The character with the code before a closing brace, and the length of the code with the
brace. -/
def codePoint (cs : List Char) : Option (Char × Nat) :=
  let digits := cs.takeWhile (Number.isDigitOf 16)
  if 0 < digits.length ∧ digits.length ≤ 8 ∧ cs[digits.length]? = some '\x7d' then
    match Number.readBase 16 digits with
    | none => none
    | some code =>
      if code.isValidChar then some (Char.ofNat code, digits.length + 1) else none
  else none

/-- The character that the text after a backslash stands for, and the length of that text. An
interpolation stands for none. -/
def escape : List Char → Option (Char × Nat)
  | 'u' :: '\x7b' :: cs => (codePoint cs).map fun r => (r.1, r.2 + 2)
  | d :: _ => (named.lookup d).map (·, 1)
  | [] => none

/-- What the rest of a literal after its opening quote says, and the text after its closing
quote. -/
def readBody (cs : List Char) : Option (List Char × List Char) :=
  match cs with
  | [] => none
  | '"' :: rest => some ([], rest)
  | '\\' :: rest =>
    match escape rest with
    | none => none
    | some (c, n) => (readBody (rest.drop n)).map fun r => (c :: r.1, r.2)
  | c :: rest =>
    if c = '\n' ∨ c = '\r' then none else (readBody rest).map fun r => (c :: r.1, r.2)
termination_by cs.length
decreasing_by
  · simp only [List.length_drop, List.length_cons]; omega
  · simp only [List.length_cons]; omega

/-- What a text says that is one literal and nothing else. Three quotes open a literal of another
kind. -/
def read : List Char → Option (List Char)
  | '"' :: '"' :: '"' :: _ => none
  | '"' :: cs =>
    match readBody cs with
    | some (value, []) => some value
    | _ => none
  | _ => none

theorem codePoint_upperHex (c : Char) (rest : List Char) :
    codePoint (upperHex c.toNat ++ '\x7d' :: rest) =
      some (c, (upperHex c.toNat).length + 1) := by
  have hbrace : ¬ Number.isDigitOf 16 '\x7d' = true := by decide
  have htake : (upperHex c.toNat ++ '\x7d' :: rest).takeWhile (Number.isDigitOf 16) =
      upperHex c.toNat := by
    rw [List.takeWhile_append_of_pos fun _ => Number.isDigitOf_of_mem_upperHex,
      List.takeWhile_cons_of_neg hbrace, List.append_nil]
  have hvalid : c.toNat.isValidChar := c.valid
  have hsmall : c.toNat < 0x100000000 := by
    rcases hvalid with h | ⟨-, h⟩ <;> omega
  obtain ⟨hpos, hlength⟩ := Number.length_upperHex c.toNat
  have hframe : 0 < (upperHex c.toNat).length ∧ (upperHex c.toNat).length ≤ 8 ∧
      (upperHex c.toNat ++ '\x7d' :: rest)[(upperHex c.toNat).length]? = some '\x7d' :=
    ⟨hpos, hlength hsmall, by simp⟩
  simp only [codePoint, htake, if_pos hframe, Number.readBase_upperHex, if_pos hvalid,
    Char.ofNat_toNat]

theorem escape_of_named {c d : Char} (h : (d, c) ∈ named) (rest : List Char) :
    escape (d :: rest) = some (c, 1) := by
  have hlookup : ∀ p ∈ named, p.1 ≠ 'u' ∧ named.lookup p.1 = some p.2 := by decide
  obtain ⟨hu, hfound⟩ := hlookup (d, c) h
  rw [escape]
  · rw [hfound]
    rfl
  · rintro cs rfl
    exact absurd rfl hu

/-- A written character is read back and nothing after it is touched. -/
theorem readBody_literalChar (c : Char) (rest : List Char) :
    readBody (literalChar c ++ rest) = (readBody rest).map fun r => (c :: r.1, r.2) := by
  rcases literalChar_cases c with ⟨d, hd, h⟩ | h | ⟨h, hquote, hslash, hcontrol⟩
  · have hescape := escape_of_named hd rest
    rw [h, List.cons_append, List.singleton_append, readBody, hescape]
    rfl
  · have hescape : escape ('u' :: '\x7b' :: (upperHex c.toNat ++ '\x7d' :: rest)) =
        some (c, (upperHex c.toNat).length + 3) := by
      rw [escape, codePoint_upperHex]
      rfl
    have hdrop : ('u' :: '\x7b' :: (upperHex c.toNat ++ '\x7d' :: rest)).drop
        ((upperHex c.toNat).length + 3) = rest := by simp
    have hshape : ['\\', 'u', '\x7b'] ++ upperHex c.toNat ++ ['\x7d'] ++ rest =
        '\\' :: 'u' :: '\x7b' :: (upperHex c.toNat ++ '\x7d' :: rest) := by simp
    rw [h, hshape, readBody, hescape]
    simp only [hdrop]
  · have hline : ¬ (c = '\n' ∨ c = '\r') := by
      rintro (rfl | rfl)
      · cases hcontrol
      · cases hcontrol
    rw [h, List.singleton_append, readBody, if_neg hline]
    · exact fun hc => hquote hc
    · exact fun hc => hslash hc

theorem readBody_flatMap (cs rest : List Char) :
    readBody (cs.flatMap literalChar ++ '"' :: rest) = some (cs, rest) := by
  induction cs with
  | nil => rw [List.flatMap_nil, List.nil_append, readBody]
  | cons c cs ih =>
    rw [List.flatMap_cons, List.append_assoc, readBody_literalChar, ih]
    rfl

theorem head?_literalChar_ne (c : Char) (rest : List Char) :
    (literalChar c ++ rest).head? ≠ some '"' := by
  rcases literalChar_cases c with ⟨d, -, h⟩ | h | ⟨h, hquote, -, -⟩
  · simp [h]
  · simp [h]
  · simpa [h] using hquote

theorem toList_stringLiteral (s : String) :
    (stringLiteral s).toList = '"' :: (s.toList.flatMap literalChar ++ ['"']) :=
  String.toList_ofList

theorem read_stringLiteral (s : String) : read (stringLiteral s).toList = some s.toList := by
  have hbody := readBody_flatMap s.toList []
  rw [toList_stringLiteral, read]
  · rw [hbody]
  · -- Only the literal of the empty text has a second quote at its beginning, and no third one.
    intro rest hquotes
    cases hs : s.toList with
    | nil => simp [hs] at hquotes
    | cons c cs =>
      rw [hs, List.flatMap_cons, List.append_assoc] at hquotes
      exact head?_literalChar_ne c _ (congrArg List.head? hquotes)

/-- The literal of any text is one literal: after its opening quote, its last character is the
first quote that no backslash belongs to; it stays on one line and has no interpolation; and Swift's
escapes give the text back. So no two texts have the same literal. -/
theorem string_literal_decodes (s : String) :
    ∃ body, (Expression.string s).swift.toList = '"' :: (body ++ ['"']) ∧
      (∃ inside, marks (body ++ ['"']) = inside ++ [.plain '"'] ∧
        .plain '"' ∉ inside ∧ .escaped '(' ∉ inside) ∧
      (∀ c ∈ (Expression.string s).swift.toList, isControl c = false ∧ c ≠ '\n' ∧ c ≠ '\r') ∧
      read (Expression.string s).swift.toList = some s.toList ∧
      ∀ t, (Expression.string t).swift = (Expression.string s).swift → t = s := by
  have hshape := toList_stringLiteral s
  refine ⟨s.toList.flatMap literalChar, hshape, ?_, fun c hc => ?_, read_stringLiteral s,
    fun t ht => ?_⟩
  · obtain ⟨inside, hinside, hquote, hparen⟩ :=
      isEnclosed_flatMap fun c (_ : c ∈ s.toList) => isEnclosed_literalChar c
    exact ⟨inside, hinside ['"'], hquote, hparen⟩
  · have hcontrol : isControl c = false := by
      rw [Expression.swift, hshape, List.mem_cons, List.mem_append, List.mem_singleton] at hc
      rcases hc with rfl | hc | rfl
      · rfl
      · obtain ⟨d, -, hd⟩ := List.mem_flatMap.1 hc
        exact isControl_of_mem_literalChar hd
      · rfl
    refine ⟨hcontrol, ?_, ?_⟩
    · rintro rfl
      cases hcontrol
    · rintro rfl
      cases hcontrol
  · have ht' := read_stringLiteral t
    rw [show stringLiteral t = stringLiteral s from ht, read_stringLiteral s] at ht'
    exact String.toList_injective (Option.some.inj ht').symm

/-- Backslashes, a quote, what would be an interpolation, and a control character. -/
example : stringLiteral "\\(a)\"\x7f" = "\"\\\\(a)\\\"\\u\x7b7F\x7d\"" := by decide

end Literal
end SwiftDecl
