import Mathlib.Data.List.Basic
import SwiftDecl.Proofs.Storage.FileTree

/-!
# SwiftDecl.Proofs.Storage.Places

The places that a path leads to and leads through. They depend on its steps alone, whatever stands
there. So the files in a tree are told apart by their places, and whether there is a way to write
one is seen from what stands at the places on its path.

* `walk_of_reach`, `contentAt_of_read` — where steps lead, and what a path gives.
* `keptOrMade_of_reach` — what is made on the way.
* `isSome_reach_iff`, `lookup_directory_of_reach` — when steps lead to their end, and which places
  are directories then.
* `snd_write_eq_true_iff` — what it takes to write a file.
-/

namespace SwiftDecl
namespace FileTree

/-- Where one step leads, by its name alone. -/
def move (here : List String) (step : String) : List String :=
  if step = "." then here else if step = ".." then here.dropLast else here ++ [step]

def walk (here steps : List String) : List String := steps.foldl move here

/-- The place that a path names, whatever stands there and on the way. -/
def placeOf (t : FileTree) (path : String) : List String :=
  walk (t.start (Path.ofString path)) (Path.ofString path).steps

/-- The content of the file at a place, if there is a file. -/
def contentAt (t : FileTree) (place : List String) : Option ByteArray :=
  match t.entries.lookup place with
  | some (.file content) => some content
  | _ => none

variable {t t' : FileTree} {here steps place : List String} {step : String}

theorem walk_cons : walk here (step :: steps) = walk (move here step) steps := rfl

theorem walk_append (here steps more : List String) :
    walk here (steps ++ more) = walk (walk here steps) more := List.foldl_append

theorem move_dot : move here "." = here := rfl

theorem move_up : move here ".." = here.dropLast := rfl

theorem move_down (hdot : step ≠ ".") (hup : step ≠ "..") : move here step = here ++ [step] := by
  rw [move, if_neg hdot, if_neg hup]

theorem placeOf_eq (h : t'.home = t.home) (path : String) : t'.placeOf path = t.placeOf path := by
  rw [placeOf, placeOf, start_eq h]

theorem contentAt_eq_some_iff {place : List String} {content : ByteArray} :
    t.contentAt place = some content ↔ t.entries.lookup place = some (.file content) := by
  unfold contentAt
  split
  · rename_i h
    simp [h]
  · rename_i h
    exact iff_of_false nofun (h content)

theorem walk_of_reach {there : List String} (h : t.reach here steps = (t', some there)) :
    there = walk here steps := by
  fun_induction reach t here steps with
  | case1 =>
    cases h
    rfl
  | case2 t here steps ih => rw [walk_cons, move_dot, ih h]
  | case3 t here steps _ ih => rw [walk_cons, move_up, ih h]
  | case4 t here step steps hdot hup _ ih => rw [walk_cons, move_down hdot hup, ih h]
  | case5 => cases h
  | case6 t here step steps hdot hup _ _ ih => rw [walk_cons, move_down hdot hup, ih h]
  | case7 => cases h

theorem lookup_of_locate {content : ByteArray} (h : t.locate here steps = some (.file content)) :
    t.entries.lookup (walk here steps) = some (.file content) := by
  fun_induction locate t here steps with
  | case1 => cases h
  | case2 here steps ih => rw [walk_cons, move_dot, ih h]
  | case3 here steps _ ih => rw [walk_cons, move_up, ih h]
  | case4 => cases h
  | case5 here step hdot hup steps hdir ih => rw [walk_cons, move_down hdot hup, ih h]
  | case6 here step hdot hup found hfile =>
    cases h
    rw [walk_cons, move_down hdot hup]
    exact hfile
  | case7 => cases h

theorem contentAt_of_read {path : String} {content : ByteArray} (h : t.read path = some content) :
    t.contentAt (t.placeOf path) = some content := by
  have hfind : t.find path = some (.file content) := by
    unfold read at h
    split at h
    · rename_i hfind
      rw [hfind, Option.some.inj h]
    · cases h
  rw [contentAt_eq_some_iff]
  refine lookup_of_locate ?_
  simp only [find] at hfind
  split at hfind
  · cases hfind
  · split at hfind
    · rename_i hlocate
      split at hfind
      · cases hfind
      · rw [hlocate, hfind]
    · exact hfind

/-- Some of the steps lead from `here` to the place. -/
def LeadsThrough (here steps place : List String) : Prop :=
  ∃ before, before <+: steps ∧ place = walk here before

/-- The place is as it was, or a directory that was missing there was made on the way. -/
def KeptOrMade (t t' : FileTree) (here steps place : List String) : Prop :=
  t'.entries.lookup place = t.entries.lookup place ∨
    t.entries.lookup place = none ∧ t'.entries.lookup place = some .directory ∧
      LeadsThrough here steps place

theorem LeadsThrough.cons (h : LeadsThrough (move here step) steps place) :
    LeadsThrough here (step :: steps) place := by
  obtain ⟨before, hbefore, hplace⟩ := h
  exact ⟨step :: before, List.cons_prefix_cons.2 ⟨rfl, hbefore⟩, hplace⟩

namespace KeptOrMade

theorem refl : KeptOrMade t t here steps place := .inl rfl

theorem cons (h : KeptOrMade t t' (move here step) steps place) :
    KeptOrMade t t' here (step :: steps) place :=
  h.imp_right fun ⟨hnone, hmade, hway⟩ => ⟨hnone, hmade, hway.cons⟩

theorem mono {more : List String} (h : KeptOrMade t t' here steps place) (hmore : steps <+: more) :
    KeptOrMade t t' here more place :=
  h.imp_right fun ⟨hnone, hmade, before, hbefore, hplace⟩ =>
    ⟨hnone, hmade, before, hbefore.trans hmore, hplace⟩

theorem contentAt_eq (h : KeptOrMade t t' here steps place) :
    t'.contentAt place = t.contentAt place := by
  unfold contentAt
  rcases h with h | ⟨hnone, hmade, -⟩
  · rw [h]
  · rw [hnone, hmade]

end KeptOrMade

/-- Following steps makes directories where there was nothing, and only where the steps lead. -/
theorem keptOrMade_of_reach {reached : Option (List String)}
    (h : t.reach here steps = (t', reached)) (place : List String) :
    KeptOrMade t t' here steps place := by
  fun_induction reach t here steps with
  | case1 =>
    cases h
    exact .refl
  | case2 t here steps ih =>
    refine .cons ?_
    rw [move_dot]
    exact ih h
  | case3 t here steps _ ih =>
    refine .cons ?_
    rw [move_up]
    exact ih h
  | case4 t here step steps hdot hup _ ih =>
    refine .cons ?_
    rw [move_down hdot hup]
    exact ih h
  | case5 =>
    cases h
    exact .refl
  | case6 t here step steps hdot hup hmissing _ ih =>
    have hset := lookup_set t (here ++ [step]) place .directory
    refine .cons ?_
    rw [move_down hdot hup]
    by_cases hplace : place = here ++ [step]
    · -- The directory is made here, and it stays.
      rw [if_pos hplace] at hset
      exact .inr ⟨hplace ▸ hmissing, (extends_of_reach h).entries _ _ hset, [], List.nil_prefix,
        hplace⟩
    · rw [if_neg hplace] at hset
      have hlater := ih h
      rwa [KeptOrMade, hset] at hlater
  | case7 =>
    cases h
    exact .refl

/-! ## Ways to a file -/

/-- The places that steps lead to by a name, one after another. -/
def stops : List String → List String → List (List String)
  | _, [] => []
  | here, step :: steps =>
    if step = "." ∨ step = ".." then stops (move here step) steps
    else move here step :: stops (move here step) steps

/-- There is a directory at the place, or there is nothing and a directory can be made. -/
def IsOpen (t : FileTree) (place : List String) : Prop :=
  t.entries.lookup place = some .directory ∨
    t.entries.lookup place = none ∧ ∀ name ∈ place.getLast?, isName name = true

/-- There is a way to write a file at the path: it is usable and ends in a name, every directory on
the way is there or can be made, and no directory has the place of the file, be it there before or
made on the way. -/
structure IsWritable (t : FileTree) (path : String) : Prop where
  usable : isUsable (Path.beforeLastStep path) = true ∧ isUsable path = true
  named : ∃ name, (Path.ofString path).steps.getLast? = some name ∧
    name ≠ "." ∧ name ≠ ".." ∧ isName name = true
  noSlash : (Path.ofString path).endsInSlash = false
  way : ∀ place ∈ stops (t.start (Path.ofString path)) (Path.ofString path).steps.dropLast,
    t.IsOpen place
  free : t.entries.lookup (t.placeOf path) ≠ some .directory
  apart : t.placeOf path ∉ stops (t.start (Path.ofString path)) (Path.ofString path).steps.dropLast

theorem stops_dot : stops here ("." :: steps) = stops here steps := rfl

theorem stops_up : stops here (".." :: steps) = stops here.dropLast steps := rfl

theorem stops_down (hdot : step ≠ ".") (hup : step ≠ "..") :
    stops here (step :: steps) = (here ++ [step]) :: stops (here ++ [step]) steps := by
  rw [stops, if_neg (not_or.2 ⟨hdot, hup⟩), move_down hdot hup]

theorem isOpen_concat : t.IsOpen (here ++ [step]) ↔
    t.entries.lookup (here ++ [step]) = some .directory ∨
      t.entries.lookup (here ++ [step]) = none ∧ isName step = true := by
  simp [IsOpen]

/-- To make a directory where one can be made neither opens a way nor closes one. -/
theorem isOpen_set_iff {made : List String} (h : t.IsOpen made) (place : List String) :
    (t.set made .directory).IsOpen place ↔ t.IsOpen place := by
  by_cases hplace : place = made
  · subst hplace
    refine iff_of_true (.inl ?_) h
    rw [lookup_set, if_pos rfl]
  · rw [IsOpen, IsOpen, lookup_set, if_neg hplace]

theorem isSome_reach_iff (t : FileTree) (here steps : List String) :
    (t.reach here steps).2.isSome = true ↔ ∀ place ∈ stops here steps, t.IsOpen place := by
  fun_induction reach t here steps with
  | case1 => exact iff_of_true rfl (List.forall_mem_nil _)
  | case2 t here steps ih => rw [stops_dot, ih]
  | case3 t here steps _ ih => rw [stops_up, ih]
  | case4 t here step steps hdot hup hdir ih =>
    have hopen : t.IsOpen (here ++ [step]) := .inl hdir
    rw [stops_down hdot hup, List.forall_mem_cons, and_iff_right hopen, ih]
  | case5 t here step steps hdot hup content hfile =>
    refine iff_of_false Bool.false_ne_true fun hall => ?_
    rw [stops_down hdot hup, List.forall_mem_cons, isOpen_concat, hfile] at hall
    rcases hall.1 with h | ⟨h, -⟩ <;> cases h
  | case6 t here step steps hdot hup hmissing hshort ih =>
    have hopen : t.IsOpen (here ++ [step]) := isOpen_concat.2 (.inr ⟨hmissing, hshort⟩)
    rw [stops_down hdot hup, List.forall_mem_cons, and_iff_right hopen, ih]
    exact forall₂_congr fun place _ => isOpen_set_iff hopen place
  | case7 t here step steps hdot hup hmissing hlong =>
    refine iff_of_false Bool.false_ne_true fun hall => ?_
    rw [stops_down hdot hup, List.forall_mem_cons, isOpen_concat, hmissing] at hall
    rcases hall.1 with h | ⟨-, h⟩
    · cases h
    · exact hlong h

theorem lookup_directory_of_reach {there : List String} (h : t.reach here steps = (t', some there))
    (place : List String) : t'.entries.lookup place = some .directory ↔
      t.entries.lookup place = some .directory ∨ place ∈ stops here steps := by
  fun_induction reach t here steps with
  | case1 =>
    cases h
    simp [stops]
  | case2 t here steps ih => rw [stops_dot, ih h]
  | case3 t here steps _ ih => rw [stops_up, ih h]
  | case4 t here step steps hdot hup hdir ih =>
    rw [stops_down hdot hup, List.mem_cons, ih h, or_left_comm]
    exact (or_iff_right_of_imp fun hplace => .inl (hplace ▸ hdir)).symm
  | case5 => cases h
  | case6 t here step steps hdot hup _ _ ih =>
    rw [stops_down hdot hup, List.mem_cons, ih h, lookup_set]
    by_cases hplace : place = here ++ [step]
    · simp [hplace]
    · rw [if_neg hplace, or_iff_right hplace]
  | case7 => cases h

theorem placeOf_eq_concat {path name : String} {there : List String}
    (hname : (Path.ofString path).steps.getLast? = some name) (hdot : name ≠ ".")
    (hup : name ≠ "..")
    (h : t.reach (t.start (Path.ofString path)) (Path.ofString path).steps.dropLast =
      (t', some there)) : t.placeOf path = there ++ [name] := by
  rw [placeOf, ← List.dropLast_append_getLast? name hname, walk_append, ← walk_of_reach h,
    walk_cons, move_down hdot hup]
  rfl

/-- Whether a file is written is seen from the tree before. -/
theorem snd_write_eq_true_iff (t : FileTree) (path text : String) :
    (t.write path text).2 = true ↔ t.IsWritable path := by
  constructor
  · intro h
    obtain ⟨name, here, t₁, hname, habove, husable, hslash, hreach, hput⟩ :=
      write_eq_true_iff.1 (Prod.ext rfl h)
    obtain ⟨hdot, hup, hshort, hdir, -⟩ := put_eq_true_iff.1 hput
    rw [← placeOf_eq_concat hname hdot hup hreach, Ne, lookup_directory_of_reach hreach,
      not_or] at hdir
    have hsome := congrArg (fun reached => reached.2.isSome) hreach
    exact ⟨⟨habove, husable⟩, ⟨name, hname, hdot, hup, hshort⟩, hslash,
      (isSome_reach_iff t _ _).1 hsome, hdir.1, hdir.2⟩
  · intro h
    obtain ⟨name, hname, hdot, hup, hshort⟩ := h.named
    have hsome := (isSome_reach_iff t _ _).2 h.way
    rcases hreach : t.reach (t.start (Path.ofString path)) (Path.ofString path).steps.dropLast with
      ⟨t₁, reached⟩
    rw [hreach] at hsome
    obtain ⟨here, rfl⟩ := Option.isSome_iff_exists.1 hsome
    have hfree := (lookup_directory_of_reach hreach (t.placeOf path)).not.2
      (not_or.2 ⟨h.free, h.apart⟩)
    rw [placeOf_eq_concat hname hdot hup hreach] at hfree
    have hput : t₁.put here name text = (_, true) :=
      put_eq_true_iff.2 ⟨hdot, hup, hshort, hfree, Eq.refl _⟩
    exact congrArg Prod.snd (write_eq_true_iff.2
      ⟨name, here, t₁, hname, h.usable.1, h.usable.2, h.noSlash, hreach, hput⟩)

-- The first step makes a directory where the file would be.
example : ¬ FileTree.empty.IsWritable "a/../a" := fun h => h.apart (by decide +kernel)

end FileTree
end SwiftDecl
