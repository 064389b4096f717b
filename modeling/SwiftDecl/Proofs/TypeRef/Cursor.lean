import SwiftDecl.Proofs.TypeRef.Readers

/-!
# SwiftDecl.Proofs.TypeRef.Cursor

Reading a type with a cursor, a number of bytes into the text. Nothing keeps such a cursor inside
the text or between two characters, and nothing bounds the loops over blanks, question marks and
list items: a walk may leave the text, and it may go on for ever.

* `slice_ofPos` — between two positions there is always a part of the text.
* `skip_ofPos` — a loop over characters ends where the characters do.
* `eat_of_true`, `eat_of_false` — eating a mark, with the cursor and without.
-/

namespace SwiftDecl
namespace TypeRef

/-- A number of bytes into a text. -/
structure Cursor (s : String) where
  offset : String.Pos.Raw

namespace Cursor

open Text (isBlank dropBlanks)

/-- Why a walk ends without a result. -/
inductive Halt where
  | fault (f : Fault)
  /-- A part of the text was asked for that does not begin and end between characters of it. -/
  | outside

/-- What a walk comes to; `none` if it never ends. -/
abbrev Walk (α : Type) := ExceptT Halt Option α

theorem throw_bind {α β : Type} (h : Halt) (k : α → Walk β) :
    (throw h : Walk α) >>= k = throw h := rfl

section Walks

variable {s : String}

/-- The text from one cursor to another. -/
def slice (a b : Cursor s) : Walk String :=
  if h : a.offset.IsValid s ∧ b.offset.IsValid s ∧ a.offset ≤ b.offset then
    return (s.slice (s.pos a.offset h.1) (s.pos b.offset h.2.1) h.2.2).copy
  else throw .outside

/-- The text that is left. -/
def unread (c : Cursor s) : Walk String := c.slice ⟨s.rawEndPos⟩

/-- The next character, if the text does not end here. -/
def peek (c : Cursor s) : Walk (Option Char) := do
  let rest ← c.unread
  return rest.toList.head?

def bump (c : Cursor s) : Walk (Cursor s) := do
  match ← c.peek with
  | none => return c
  | some x => return ⟨c.offset + x⟩

-- Recursive calls are written with `|>.`, which keeps no source position in the fixpoint.
/-- Goes on as long as the characters have the property. -/
def skip (c : Cursor s) (p : Char → Bool) : Walk (Cursor s) := do
  match ← c.peek with
  | none => return c
  | some x =>
    if p x then
      let c ← c.bump
      c |>.skip p
    else return c
partial_fixpoint

def eat (c : Cursor s) (mark : Char) : Walk (Bool × Cursor s) := do
  let c ← c.skip isBlank
  match ← c.peek with
  | none => return (false, c)
  | some x => if x = mark then return (true, ← c.bump) else return (false, c)

def expect (c : Cursor s) (mark : Char) : Walk (Cursor s) := do
  match ← c.eat mark with
  | (true, c) => return c
  | (false, _) => throw (.fault (.expected mark))

mutual
def readType (c : Cursor s) : Walk (TypeRef × Cursor s) := do
  let (t, c) ← c |>.readPrimary
  c |>.marks t
partial_fixpoint

def marks (c : Cursor s) (t : TypeRef) : Walk (TypeRef × Cursor s) := do
  match ← c.eat '?' with
  | (true, c) => c |>.marks (.optional t)
  | (false, c) => return (t, c)
partial_fixpoint

def readPrimary (c : Cursor s) : Walk (TypeRef × Cursor s) := do
  let c ← c.skip isBlank
  match ← c.peek with
  | none => throw (.fault .missingName)
  | some x =>
    if x = '[' then
      let c ← c.bump
      let (element, c) ← c |>.readType
      match ← c.eat ':' with
      | (true, c) =>
        let (value, c) ← c |>.readType
        return (.dictionary element value, ← c.expect ']')
      | (false, c) => return (.array element, ← c.expect ']')
    else if x = '(' then
      let c ← c.bump
      let (ts, c) ← c |>.readList ')'
      return (grouped ts, c)
    else if isNameStart x then
      let stop ← c.skip isNamePart
      let name ← c.slice stop
      match ← stop.eat '<' with
      | (true, c) =>
        match ← c |>.readList '>' with
        | ([], _) => throw (.fault .emptyArguments)
        | (args, c) => return (.generic name args, c)
      | (false, c) => return (.named name, c)
    else throw (.fault (.unexpected x))
partial_fixpoint

def readList (c : Cursor s) (close : Char) : Walk (List TypeRef × Cursor s) := do
  match ← c.eat close with
  | (true, c) => return ([], c)
  | (false, c) => c |>.readItems close []
partial_fixpoint

/-- Adds types to those that were read before, one in each round. -/
def readItems (c : Cursor s) (close : Char) (before : List TypeRef) :
    Walk (List TypeRef × Cursor s) := do
  let (t, c) ← c |>.readType
  match ← c.eat ',' with
  | (true, c) => c |>.readItems close (before ++ [t])
  | (false, c) => return (before ++ [t], ← c.expect close)
partial_fixpoint
end

/-- The type that the whole text stands for. -/
def parse (s : String) : Walk TypeRef := do
  let (t, c) ← readType (⟨0⟩ : Cursor s)
  let c ← c.skip isBlank
  if c.offset = s.rawEndPos then return t
  else throw (.fault (.trailing (← c.unread)))

end Walks

variable {s : String} {p q : s.Pos}

/-- The cursor at a position, which is always one between two characters. -/
def ofPos (p : s.Pos) : Cursor s := ⟨p.offset⟩

theorem ofPos_startPos : ofPos s.startPos = ⟨0⟩ := congrArg mk s.offset_startPos

theorem ofPos_endPos : ofPos s.endPos = ⟨s.rawEndPos⟩ := congrArg mk s.offset_endPos

-- It stays closed: positions are compared through the lemmas below, and never by their texts.
/-- The text after a position. -/
@[irreducible]
def ahead (p : s.Pos) : List Char := (s.sliceFrom p).copy.toList

theorem ahead_eq_of_splits {a b : String} (h : p.Splits a b) : ahead p = b.toList := by
  rw [ahead, h.copy_sliceFrom_eq]

theorem ahead_startPos : ahead s.startPos = s.toList := ahead_eq_of_splits s.splits_startPos

theorem ahead_endPos : ahead s.endPos = [] := ahead_eq_of_splits s.splits_endPos

theorem offset_eq_rawEndPos_iff : (ofPos p).offset = s.rawEndPos ↔ ahead p = [] := by
  rw [ahead, String.toList_eq_nil_iff, ← p.splits.eq_endPos_iff, String.Pos.ext_iff,
    String.offset_endPos]
  rfl

/-- Past a character there is another position, further on by the bytes of the character. -/
theorem exists_next {c : Char} {cs : List Char} (h : ahead p = c :: cs) :
    ∃ q : s.Pos, p < q ∧ ofPos q = ⟨p.offset + c⟩ ∧ ahead q = cs := by
  have hp : p.Splits (s.sliceTo p).copy (String.singleton c ++ String.ofList cs) := by
    rw [ahead] at h
    rw [← String.ofList_cons, ← h, String.ofList_toList]
    exact p.splits
  refine ⟨p.next hp.ne_endPos_of_singleton, by simp, ?_, ?_⟩
  · rw [ofPos, hp.next.offset_eq_rawEndPos, hp.offset_eq_rawEndPos]
    simp
  · rw [ahead_eq_of_splits hp.next, String.toList_ofList]

/-- The text between two positions is what stands after the first and not after the second. -/
theorem slice_ofPos {w : List Char} (h : p ≤ q) (hw : ahead p = w ++ ahead q) :
    slice (ofPos p) (ofPos q) = return String.ofList w := by
  obtain ⟨t, hleft, hright⟩ := (p.splits.le_iff_exists_eq_append q.splits).1 h
  have ht : t.toList = w := by
    unfold ahead at hw
    rw [hright, String.toList_append] at hw
    exact List.append_cancel_right hw
  have hvalid : (ofPos p).offset.IsValid s ∧ (ofPos q).offset.IsValid s ∧
      (ofPos p).offset ≤ (ofPos q).offset := ⟨p.isValid, q.isValid, h⟩
  obtain ⟨_, hcopy⟩ := String.copy_slice_eq_iff_splits.2
    ⟨_, _, hright ▸ p.splits, hleft ▸ q.splits⟩
  rw [slice, dif_pos hvalid, ← ht, String.ofList_toList]
  exact congrArg pure hcopy

theorem unread_ofPos (p : s.Pos) : unread (ofPos p) = return String.ofList (ahead p) := by
  have hw : ahead p = ahead p ++ ahead s.endPos := by rw [ahead_endPos, List.append_nil]
  rw [unread, ← ofPos_endPos, slice_ofPos (String.Pos.le_endPos p) hw]

-- A cursor that is at no position, in the middle of a character.
example : unread (⟨⟨1⟩⟩ : Cursor "é") = throw .outside := rfl

theorem peek_ofPos (p : s.Pos) : peek (ofPos p) = return (ahead p).head? := by
  rw [peek, unread_ofPos, pure_bind, String.toList_ofList]

theorem bump_ofPos {c : Char} {cs : List Char} (h : ahead p = c :: cs) :
    ∃ q : s.Pos, p < q ∧ ahead q = cs ∧ bump (ofPos p) = return ofPos q := by
  obtain ⟨q, hlt, hq, hcs⟩ := exists_next h
  refine ⟨q, hlt, hcs, ?_⟩
  rw [bump, peek_ofPos, h, hq]
  rfl

theorem skip_ofPos (f : Char → Bool) (p : s.Pos) : ∃ q : s.Pos, p ≤ q ∧
    ahead p = (ahead p).takeWhile f ++ ahead q ∧ ahead q = (ahead p).dropWhile f ∧
    skip (ofPos p) f = return ofPos q := by
  generalize hcs : ahead p = cs
  induction cs generalizing p with
  | nil =>
    refine ⟨p, String.Pos.le_refl p, by simp [hcs], by simp [hcs], ?_⟩
    rw [skip, peek_ofPos, hcs]
    rfl
  | cons c cs ih =>
    by_cases hc : f c = true
    · obtain ⟨r, hlt, hr, hbump⟩ := bump_ofPos hcs
      obtain ⟨q, hle, htake, hdrop, hskip⟩ := ih r hr
      refine ⟨q, String.Pos.le_trans (String.Pos.le_of_lt hlt) hle, ?_, ?_, ?_⟩
      · rw [List.takeWhile_cons_of_pos hc, List.cons_append, ← htake]
      · rw [List.dropWhile_cons_of_pos hc, hdrop]
      · rw [skip, peek_ofPos, hcs, List.head?_cons, pure_bind]
        dsimp only
        rw [if_pos hc, hbump, pure_bind, hskip]
    · refine ⟨p, String.Pos.le_refl p, ?_, ?_, ?_⟩
      · rw [List.takeWhile_cons_of_neg hc, hcs, List.nil_append]
      · rw [List.dropWhile_cons_of_neg hc, hcs]
      · rw [skip, peek_ofPos, hcs, List.head?_cons, pure_bind]
        dsimp only
        rw [if_neg hc]

/-! ## Eating a mark -/

section Eat

variable {mark : Char} {rest : List Char}

theorem eat_of_true (h : TypeRef.eat mark (ahead p) = (true, rest)) :
    ∃ q : s.Pos, p < q ∧ ahead q = rest ∧ eat (ofPos p) mark = return (true, ofPos q) := by
  obtain ⟨r, hle, -, hblanks, hskip⟩ := skip_ofPos isBlank p
  unfold TypeRef.eat dropBlanks at h
  rw [← hblanks] at h
  split at h
  · cases h
  · rename_i c cs hr
    split at h
    · rename_i hc
      cases h
      obtain ⟨q, hlt, hq, hbump⟩ := bump_ofPos hr
      refine ⟨q, Std.lt_of_le_of_lt hle hlt, hq, ?_⟩
      rw [eat, hskip, pure_bind, peek_ofPos, hr, List.head?_cons, pure_bind]
      dsimp only
      rw [if_pos hc, hbump, pure_bind]
    · cases h

/-- A mark that is not eaten leaves the cursor behind the blanks before it. -/
theorem eat_of_false (h : TypeRef.eat mark (ahead p) = (false, rest)) :
    ∃ q : s.Pos, p ≤ q ∧ ahead p = (ahead p).takeWhile isBlank ++ ahead q ∧ ahead q = rest ∧
      eat (ofPos p) mark = return (false, ofPos q) := by
  obtain ⟨q, hle, htake, hblanks, hskip⟩ := skip_ofPos isBlank p
  unfold TypeRef.eat dropBlanks at h
  rw [← hblanks] at h
  split at h
  · rename_i hq
    cases h
    refine ⟨q, hle, htake, hq, ?_⟩
    rw [eat, hskip, pure_bind, peek_ofPos, hq]
    rfl
  · rename_i c cs hq
    split at h
    · cases h
    · rename_i hc
      cases h
      refine ⟨q, hle, htake, hq, ?_⟩
      rw [eat, hskip, pure_bind, peek_ofPos, hq, List.head?_cons, pure_bind]
      dsimp only
      rw [if_neg hc]

theorem expect_of_true (h : TypeRef.eat mark (ahead p) = (true, rest)) :
    ∃ q : s.Pos, p < q ∧ ahead q = rest ∧ expect (ofPos p) mark = return ofPos q := by
  obtain ⟨q, hlt, hq, heat⟩ := eat_of_true h
  refine ⟨q, hlt, hq, ?_⟩
  rw [expect, heat, pure_bind]

theorem expect_of_false (h : TypeRef.eat mark (ahead p) = (false, rest)) :
    expect (ofPos p) mark = throw (.fault (.expected mark)) := by
  obtain ⟨q, -, -, -, heat⟩ := eat_of_false h
  rw [expect, heat, pure_bind]

end Eat

end Cursor
end TypeRef
end SwiftDecl
