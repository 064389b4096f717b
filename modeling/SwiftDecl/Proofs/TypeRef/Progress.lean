import SwiftDecl.Proofs.TypeRef.Cursor

/-!
# SwiftDecl.Proofs.TypeRef.Progress

Walks with a cursor come to what the readers come to.

* `followsAt` — from every position, by induction on the bytes that are left.
* `reading_gets_ahead` — every walk ends, inside the text and past where it began.
-/

namespace SwiftDecl
namespace TypeRef
namespace Cursor

open Text (isBlank dropBlanks Rest)

variable {s : String} {p q : s.Pos}

/-- The walk ends as the reading does: with the same fault, or with what was read and the cursor
before the text that is left, which is past the position where it began. -/
inductive Follows {α : Type} (p : s.Pos) (walk : Walk (α × Cursor s)) :
    Except Fault (α × Rest (ahead p)) → Prop where
  | fails {f : Fault} (h : walk = throw (.fault f)) : Follows p walk (.error f)
  | reads {a : α} {q : s.Pos} {hlen : (ahead q).length < (ahead p).length} (hlt : p < q)
      (h : walk = return (a, ofPos q)) : Follows p walk (.ok (a, ⟨ahead q, hlen⟩))

/-- The text that is left may be given in another way than as the text after a position. -/
theorem Follows.of_ahead {α : Type} {a : α} {walk : Walk (α × Cursor s)} {rest : List Char}
    {hlen : rest.length < (ahead p).length} (hlt : p < q) (hq : ahead q = rest)
    (h : walk = return (a, ofPos q)) : Follows p walk (.ok (a, ⟨rest, hlen⟩)) := by
  subst hq
  exact .reads hlt h

/-- The closing mark after what was read. -/
theorem follows_expect {α : Type} (a : α) (mark : Char) (hle : p ≤ q)
    (hlen : ∀ rest, TypeRef.eat mark (ahead q) = (true, rest) → rest.length < (ahead p).length) :
    Follows p (do return (a, ← expect (ofPos q) mark))
      (match h : TypeRef.eat mark (ahead q) with
        | (true, rest) => .ok (a, ⟨rest, hlen rest h⟩)
        | (false, _) => .error (.expected mark)) := by
  split
  · rename_i rest heat
    obtain ⟨r, hlt, hr, hwalk⟩ := expect_of_true heat
    refine .of_ahead (Std.lt_of_le_of_lt hle hlt) hr ?_
    rw [hwalk, pure_bind]
  · rename_i heat
    refine .fails ?_
    rw [expect_of_false heat, throw_bind]

/-- Each round eats a mark, so there are no more rounds than bytes. -/
theorem marks_ofPos (t : TypeRef) (p : s.Pos) : ∃ q : s.Pos, p ≤ q ∧
    ahead q = (TypeRef.marks t (ahead p)).2 ∧
    marks (ofPos p) t = return ((TypeRef.marks t (ahead p)).1, ofPos q) := by
  generalize hcs : ahead p = cs
  fun_induction TypeRef.marks t cs generalizing p with
  | case1 t cs rest h ih =>
    subst hcs
    obtain ⟨r, hlt, hr, heat⟩ := eat_of_true h
    obtain ⟨q, hle, hq, hmarks⟩ := ih r hr
    refine ⟨q, String.Pos.le_trans (String.Pos.le_of_lt hlt) hle, hq, ?_⟩
    rw [marks, heat, pure_bind]
    exact hmarks
  | case2 t cs rest h =>
    subst hcs
    obtain ⟨q, hle, -, hq, heat⟩ := eat_of_false h
    refine ⟨q, hle, hq, ?_⟩
    rw [marks, heat, pure_bind]

/-- Reading a type, or the rest of a list after the types `before`, from this position. -/
structure FollowsAt (p : s.Pos) : Prop where
  type : Follows p (readType (ofPos p)) (TypeRef.readType (ahead p))
  items : ∀ close before, Follows p (readItems (ofPos p) close before)
    ((TypeRef.readItems close (ahead p)).map fun x => (before ++ x.1, x.2))

theorem follows_readType (h : Follows p (readPrimary (ofPos p)) (TypeRef.readPrimary (ahead p))) :
    Follows p (readType (ofPos p)) (TypeRef.readType (ahead p)) := by
  rw [TypeRef.readType, readType]
  generalize TypeRef.readPrimary (ahead p) = reading at h ⊢
  cases h with
  | fails hwalk => exact .fails (by rw [hwalk, throw_bind])
  | @reads t q _ hlt hwalk =>
    obtain ⟨r, hle, hr, hmarks⟩ := marks_ofPos t q
    refine .of_ahead (String.Pos.lt_of_lt_of_le hlt hle) hr ?_
    rw [hwalk, pure_bind]
    exact hmarks

theorem follows_readList (h : ∀ q, p ≤ q → FollowsAt q) (close : Char) :
    Follows p (readList (ofPos p) close) (TypeRef.readList close (ahead p)) := by
  rw [TypeRef.readList, readList]
  split
  · rename_i rest heat
    obtain ⟨q, hlt, hq, hwalk⟩ := eat_of_true heat
    refine .of_ahead hlt hq ?_
    rw [hwalk, pure_bind]
  · rename_i rest heat
    obtain ⟨q, hle, -, rfl, hwalk⟩ := eat_of_false heat
    rw [hwalk, pure_bind]
    dsimp only
    have hitems := (h q hle).items close []
    generalize TypeRef.readItems close (ahead q) = reading at hitems ⊢
    obtain f | ⟨ts, rest, hlen⟩ := reading
    · cases hitems with
      | fails hwalk => exact .fails hwalk
    · cases hitems with
      | reads hlt hwalk => exact .reads (Std.lt_of_le_of_lt hle hlt) hwalk

theorem follows_readItems (htype : Follows p (readType (ofPos p)) (TypeRef.readType (ahead p)))
    (h : ∀ q, p < q → FollowsAt q) (close : Char) (before : List TypeRef) :
    Follows p (readItems (ofPos p) close before)
      ((TypeRef.readItems close (ahead p)).map fun x => (before ++ x.1, x.2)) := by
  rw [TypeRef.readItems, readItems]
  generalize TypeRef.readType (ahead p) = reading at htype ⊢
  cases htype with
  | fails hwalk => exact .fails (by rw [hwalk, throw_bind])
  | @reads t q _ hlt hwalk =>
    rw [hwalk, pure_bind]
    dsimp only
    split
    · rename_i heat
      obtain ⟨r, hlt₁, rfl, hcomma⟩ := eat_of_true heat
      have hlt₁ := Std.lt_trans hlt hlt₁
      rw [hcomma, pure_bind]
      dsimp only
      -- The reader puts `t` before the items that follow, the walk has it among those before them.
      have hitems := (h r hlt₁).items close (before ++ [t])
      generalize TypeRef.readItems close (ahead r) = reading at hitems ⊢
      obtain f | ⟨ts, rest, hlen⟩ := reading
      · cases hitems with
        | fails hwalk => exact .fails hwalk
      · cases hitems with
        | reads hlt₂ hwalk =>
          refine .reads (Std.lt_trans hlt₁ hlt₂) ?_
          rw [hwalk, List.append_assoc]
          rfl
    · rename_i heat
      obtain ⟨r, hle, -, rfl, hcomma⟩ := eat_of_false heat
      rw [hcomma, pure_bind]
      dsimp only
      split
      · rename_i hclose
        obtain ⟨r₂, hlt₂, hr₂, hwalk⟩ := expect_of_true hclose
        refine .of_ahead (by grind) hr₂ ?_
        rw [hwalk, pure_bind]
      · rename_i hclose
        refine .fails ?_
        rw [expect_of_false hclose, throw_bind]

/-- Where the first character that is not a blank stands, and where the text goes on. -/
theorem exists_first {c : Char} {cs : List Char} (hd : dropBlanks (ahead p) = c :: cs) :
    ∃ q r : s.Pos, p ≤ q ∧ q < r ∧ ahead q = c :: cs ∧ ahead r = cs ∧
      skip (ofPos p) isBlank = (return ofPos q) ∧ bump (ofPos q) = return ofPos r := by
  obtain ⟨q, hle, -, hq, hskip⟩ := skip_ofPos isBlank p
  obtain ⟨r, hlt, hr, hbump⟩ := bump_ofPos (hq.trans hd)
  exact ⟨q, r, hle, hlt, hq.trans hd, hr, hskip, hbump⟩

section Primary

variable {cs : List Char} (h : ∀ q, p < q → FollowsAt q)

include h

theorem follows_bracket (hd : dropBlanks (ahead p) = '[' :: cs) :
    Follows p (readPrimary (ofPos p)) (TypeRef.readPrimary (ahead p)) := by
  obtain ⟨q₀, q, hle, hlt, hq₀, rfl, hskip, hbump⟩ := exists_first hd
  rw [readPrimary, hskip, pure_bind, peek_ofPos, hq₀, List.head?_cons, pure_bind]
  dsimp only
  rw [if_pos rfl, hbump, pure_bind, TypeRef.readPrimary]
  split
  · rename_i hnil
    cases hd.symm.trans hnil
  · rename_i hcons
    cases hd.symm.trans hcons
    simp only [if_true]
    have hlt := Std.lt_of_le_of_lt hle hlt
    have helement := (h q hlt).type
    generalize TypeRef.readType (ahead q) = reading at helement ⊢
    cases helement with
    | fails hwalk => exact .fails (by rw [hwalk, throw_bind])
    | @reads element r hlen hlt₁ hwalk =>
      rw [hwalk, pure_bind]
      dsimp only
      split
      · rename_i hcolon
        obtain ⟨r₂, hlt₂, rfl, heat⟩ := eat_of_true hcolon
        have hlt₂ : p < r₂ := by grind
        rw [heat, pure_bind]
        dsimp only
        have hvalue := (h r₂ hlt₂).type
        generalize TypeRef.readType (ahead r₂) = reading at hvalue ⊢
        cases hvalue with
        | fails hwalk => exact .fails (by rw [hwalk, throw_bind])
        | @reads value r₃ hlen₃ hlt₃ hwalk₃ =>
          rw [hwalk₃, pure_bind]
          exact follows_expect _ _ (by grind) _
      · rename_i hcolon
        obtain ⟨r₂, hle₂, -, rfl, heat⟩ := eat_of_false hcolon
        rw [heat, pure_bind]
        exact follows_expect _ _ (by grind) _

theorem follows_paren (hd : dropBlanks (ahead p) = '(' :: cs) :
    Follows p (readPrimary (ofPos p)) (TypeRef.readPrimary (ahead p)) := by
  obtain ⟨q₀, q, hle, hlt, hq₀, rfl, hskip, hbump⟩ := exists_first hd
  rw [readPrimary, hskip, pure_bind, peek_ofPos, hq₀, List.head?_cons, pure_bind]
  dsimp only
  rw [if_neg (by decide), if_pos rfl, hbump, pure_bind, TypeRef.readPrimary]
  split
  · rename_i hnil
    cases hd.symm.trans hnil
  · rename_i hcons
    cases hd.symm.trans hcons
    simp only [show ¬ '(' = '[' by decide, if_true, if_false]
    have hlt := Std.lt_of_le_of_lt hle hlt
    have hlist := follows_readList (fun r hr => h r (String.Pos.lt_of_lt_of_le hlt hr)) ')'
    generalize TypeRef.readList ')' (ahead q) = reading at hlist ⊢
    cases hlist with
    | fails hwalk => exact .fails (by rw [hwalk, throw_bind])
    | @reads ts r hlen hlt₁ hwalk =>
      have hlt := Std.lt_trans hlt hlt₁
      rw [hwalk, pure_bind]
      split
      · rename_i heq
        cases heq
      · rename_i heq
        cases heq
        exact .reads hlt rfl
      · rename_i ts' _ _ hne heq
        cases heq
        refine .reads hlt ?_
        rw [grouped]
        exact hne

theorem follows_name {c : Char} (hd : dropBlanks (ahead p) = c :: cs) (hc : isNameStart c) :
    Follows p (readPrimary (ofPos p)) (TypeRef.readPrimary (ahead p)) := by
  obtain ⟨q₀, q, hle, hlt, hq₀, rfl, hskip, -⟩ := exists_first hd
  have hbracket : ¬ c = '[' := by rintro rfl; revert hc; decide
  have hparen : ¬ c = '(' := by rintro rfl; revert hc; decide
  obtain ⟨stop, hle₁, htake, hdrop, hstop⟩ := skip_ofPos isNamePart q₀
  have hpart : isNamePart c := by simp [isNamePart, hc]
  rw [hq₀, List.takeWhile_cons_of_pos hpart] at htake
  rw [hq₀, List.dropWhile_cons_of_pos hpart] at hdrop
  have hslice := slice_ofPos hle₁ (hq₀.trans htake)
  -- The first character is a part of the name itself, so the name is not empty.
  have hlt₁ : q₀ < stop := by
    refine Std.lt_of_le_of_ne hle₁ ?_
    rintro rfl
    have hlen := (List.dropWhile_sublist isNamePart (l := ahead q)).length_le
    rw [← hdrop, hq₀, List.length_cons] at hlen
    omega
  rw [readPrimary, hskip, pure_bind, peek_ofPos, hq₀, List.head?_cons, pure_bind]
  dsimp only
  rw [if_neg hbracket, if_neg hparen, if_pos hc, hstop, pure_bind, hslice, pure_bind,
    TypeRef.readPrimary]
  split
  · rename_i hnil
    cases hd.symm.trans hnil
  · rename_i hcons
    cases hd.symm.trans hcons
    simp only [hbracket, hparen, hc, if_true, if_false]
    have hlt := Std.lt_of_le_of_lt hle hlt₁
    split
    · rename_i hopen
      rw [← hdrop] at hopen
      obtain ⟨r, hlt₂, rfl, heat⟩ := eat_of_true hopen
      have hlt₂ := Std.lt_trans hlt hlt₂
      rw [heat, pure_bind]
      dsimp only
      have hlist := follows_readList
        (fun r' hr => h r' (String.Pos.lt_of_lt_of_le hlt₂ hr)) '>'
      generalize TypeRef.readList '>' (ahead r) = reading at hlist ⊢
      cases hlist with
      | fails hwalk => exact .fails (by rw [hwalk, throw_bind])
      | @reads args r₃ hlen hlt₃ hwalk =>
        rw [hwalk, pure_bind]
        cases args with
        | nil => exact .fails rfl
        | cons a args => exact .reads (Std.lt_trans hlt₂ hlt₃) rfl
    · rename_i hopen
      rw [← hdrop] at hopen
      obtain ⟨r, hle₂, -, rfl, heat⟩ := eat_of_false hopen
      rw [heat, pure_bind]
      exact .reads (String.Pos.lt_of_lt_of_le hlt hle₂) rfl

theorem follows_readPrimary :
    Follows p (readPrimary (ofPos p)) (TypeRef.readPrimary (ahead p)) := by
  cases hd : dropBlanks (ahead p) with
  | nil =>
    obtain ⟨q, -, -, hq, hskip⟩ := skip_ofPos isBlank p
    rw [readPrimary, hskip, pure_bind, peek_ofPos, hq.trans hd, TypeRef.readPrimary]
    split
    · exact .fails rfl
    · rename_i hcons
      cases hd.symm.trans hcons
  | cons c cs =>
    by_cases hbracket : c = '['
    · exact follows_bracket h (hbracket ▸ hd)
    by_cases hparen : c = '('
    · exact follows_paren h (hparen ▸ hd)
    by_cases hc : isNameStart c
    · exact follows_name h hd hc
    obtain ⟨q, r, -, -, hq, -, hskip, -⟩ := exists_first hd
    rw [readPrimary, hskip, pure_bind, peek_ofPos, hq, List.head?_cons, pure_bind]
    dsimp only
    rw [if_neg hbracket, if_neg hparen, if_neg hc, TypeRef.readPrimary]
    split
    · rename_i hnil
      cases hd.symm.trans hnil
    · rename_i hcons
      cases hd.symm.trans hcons
      simp only [hbracket, hparen, hc, if_false]
      exact .fails rfl

end Primary

/-- By induction on the positions after this one. -/
theorem followsAt (p : s.Pos) : FollowsAt p := by
  induction p using WellFounded.induction String.Pos.wellFounded_gt with
  | h p ih =>
    have htype := follows_readType (follows_readPrimary ih)
    exact ⟨htype, follows_readItems htype ih⟩

theorem readType_startPos (s : String) :
    (∃ f, TypeRef.readType s.toList = .error f ∧
      readType (⟨0⟩ : Cursor s) = throw (.fault f)) ∨
    ∃ t, ∃ q : s.Pos, ∃ h, TypeRef.readType s.toList = .ok (t, ⟨ahead q, h⟩) ∧
      readType (⟨0⟩ : Cursor s) = return (t, ofPos q) := by
  rw [← ahead_startPos, ← ofPos_startPos]
  have htype := (followsAt s.startPos).type
  generalize TypeRef.readType (ahead s.startPos) = reading at htype ⊢
  cases htype with
  | fails hwalk => exact .inl ⟨_, rfl, hwalk⟩
  | reads _ hwalk => exact .inr ⟨_, _, _, rfl, hwalk⟩

theorem parse_eq (s : String) : parse s =
    match TypeRef.parse s with
    | .ok t => return t
    | .error f => throw (.fault f) := by
  rw [parse, TypeRef.parse]
  obtain ⟨f, hreads, hwalk⟩ | ⟨t, q, hlen, hreads, hwalk⟩ := readType_startPos s
  · rw [hreads, hwalk, throw_bind]
  · obtain ⟨r, -, -, hr, hskip⟩ := skip_ofPos isBlank q
    rw [hreads, hwalk, pure_bind]
    dsimp only
    rw [hskip, pure_bind, dropBlanks, ← hr]
    cases hrest : ahead r with
    | nil => rw [if_pos (offset_eq_rawEndPos_iff.2 hrest)]
    | cons c cs =>
      rw [if_neg (by simp [offset_eq_rawEndPos_iff, hrest]), unread_ofPos, hrest, pure_bind]

/-! ## Getting ahead -/

/-- What keeps reading going from a position: it ends, as the readers do, and each round of a loop
begins past where the last one began. -/
structure GetsAhead (p : s.Pos) : Prop where
  type : Follows p (readType (ofPos p)) (TypeRef.readType (ahead p))
  primary : Follows p (readPrimary (ofPos p)) (TypeRef.readPrimary (ahead p))
  list : ∀ close, Follows p (readList (ofPos p) close) (TypeRef.readList close (ahead p))
  /-- Eating passes over the mark, or else over blanks only. -/
  mark : ∀ mark, ∃ q : s.Pos,
    p < q ∧ eat (ofPos p) mark = pure (true, ofPos q) ∨
    p ≤ q ∧ eat (ofPos p) mark = pure (false, ofPos q) ∧
      ∃ w : List Char, ahead p = w ++ ahead q ∧ ∀ c ∈ w, isBlank c
  /-- A round of the loop over question marks. -/
  marksRound : ∀ t c, eat (ofPos p) '?' = pure (true, c) →
    ∃ q : s.Pos, p < q ∧ c = ofPos q ∧ marks (ofPos p) t = marks (ofPos q) (.optional t)
  /-- A round of the loop over the items of a list. -/
  itemsRound : ∀ close before t c c',
    readType (ofPos p) = pure (t, c) → eat c ',' = pure (true, c') →
    ∃ q : s.Pos, p < q ∧ c' = ofPos q ∧
      readItems (ofPos p) close before = readItems (ofPos q) close (before ++ [t])

theorem exists_eat (mark : Char) (p : s.Pos) : ∃ q : s.Pos,
    p < q ∧ eat (ofPos p) mark = pure (true, ofPos q) ∨
    p ≤ q ∧ eat (ofPos p) mark = pure (false, ofPos q) ∧
      ∃ w : List Char, ahead p = w ++ ahead q ∧ ∀ c ∈ w, isBlank c := by
  cases h : TypeRef.eat mark (ahead p) with
  | mk eaten rest =>
    cases eaten with
    | true =>
      obtain ⟨q, hlt, -, hwalk⟩ := eat_of_true h
      exact ⟨q, .inl ⟨hlt, hwalk⟩⟩
    | false =>
      obtain ⟨q, hle, hblanks, -, hwalk⟩ := eat_of_false h
      exact ⟨q, .inr ⟨hle, hwalk, _, hblanks, List.all_eq_true.1 List.all_takeWhile⟩⟩

/-- A mark that was eaten stood at a position, or after it. -/
theorem exists_eaten {mark : Char} {c : Cursor s} (h : eat (ofPos p) mark = pure (true, c)) :
    ∃ q : s.Pos, p < q ∧ c = ofPos q := by
  obtain ⟨q, ⟨hlt, hwalk⟩ | ⟨-, hwalk, -⟩⟩ := exists_eat mark p
  · cases h.symm.trans hwalk
    exact ⟨q, hlt, rfl⟩
  · cases h.symm.trans hwalk

theorem exists_read {t : TypeRef} {c : Cursor s} (h : readType (ofPos p) = pure (t, c)) :
    ∃ q : s.Pos, p < q ∧ c = ofPos q := by
  have htype := (followsAt p).type
  generalize TypeRef.readType (ahead p) = reading at htype
  cases htype with
  | fails hwalk => cases h.symm.trans hwalk
  | @reads t q hlen hlt hwalk =>
    cases h.symm.trans hwalk
    exact ⟨q, hlt, rfl⟩

theorem getsAhead (p : s.Pos) : GetsAhead p where
  type := (followsAt p).type
  primary := follows_readPrimary fun q _ => followsAt q
  list close := follows_readList (fun q _ => followsAt q) close
  mark mark := exists_eat mark p
  marksRound t c h := by
    obtain ⟨q, hlt, rfl⟩ := exists_eaten h
    refine ⟨q, hlt, rfl, ?_⟩
    rw [marks, h, pure_bind]
  itemsRound close before t c c' ht h := by
    obtain ⟨q, hlt, rfl⟩ := exists_read ht
    obtain ⟨r, hlt₁, rfl⟩ := exists_eaten h
    refine ⟨r, Std.lt_trans hlt hlt₁, rfl, ?_⟩
    rw [readItems, ht, pure_bind]
    dsimp only
    rw [h, pure_bind]

/-- Every walk ends, between two characters of the text and past where it began if it read
anything; and what is left in the end is a part of the text. -/
theorem reading_gets_ahead (s : String) :
    (∀ p : s.Pos, GetsAhead p) ∧
    (∀ t c, readType (⟨0⟩ : Cursor s) = pure (t, c) → ∃ q : s.Pos,
      skip c isBlank = pure (ofPos q) ∧ unread (ofPos q) = pure (String.ofList (ahead q))) ∧
    parse s =
      match TypeRef.parse s with
      | .ok t => pure t
      | .error f => throw (.fault f) := by
  refine ⟨getsAhead, ?_, parse_eq s⟩
  intro t c h
  rw [← ofPos_startPos] at h
  obtain ⟨p, -, rfl⟩ := exists_read h
  obtain ⟨q, -, -, -, hskip⟩ := skip_ofPos isBlank p
  exact ⟨q, hskip, unread_ofPos q⟩

end Cursor
end TypeRef
end SwiftDecl
