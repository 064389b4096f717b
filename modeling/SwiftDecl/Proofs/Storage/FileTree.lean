import Mathlib.Data.List.Basic
import SwiftDecl.Storage.FileTree

/-!
# SwiftDecl.Proofs.Storage.FileTree

Writing to a tree of directories and files, and finding there what was written. On its way to the
place of a file, `reach` only adds directories, and the file itself never takes the place of a
directory. So whoever follows the same steps afterwards arrives at the same place.

* `lookup_set` — what an entry changes.
* `extends_of_reach` — nothing is lost on the way to a place.
* `locate_of_reach` — the steps lead there again, as long as no directory is removed.
* `read_write`, `SourceFile.read_of_written` — a file that was written holds its text.
-/

namespace SwiftDecl
namespace FileTree

variable {t t' : FileTree}

theorem lookup_filter_ne {q place : List String} (h : q ≠ place)
    (entries : List (List String × Entry)) :
    (entries.filter fun x => x.1 != place).lookup q = entries.lookup q := by
  induction entries with
  | nil => rfl
  | cons x xs ih =>
    by_cases hx : x.1 = place
    · have hq : (q == x.1) = false := by simp [hx, h]
      rw [List.filter_cons_of_neg (by simp [hx]), ih, List.lookup_cons, hq]
    · rw [List.filter_cons_of_pos (by simp [hx]), List.lookup_cons, List.lookup_cons, ih]

theorem lookup_set (t : FileTree) (place q : List String) (e : Entry) :
    (t.set place e).entries.lookup q = if q = place then some e else t.entries.lookup q := by
  rw [set, List.lookup_cons]
  by_cases h : q = place
  · simp [h]
  · have hq : (q == place) = false := by simp [h]
    rw [hq, if_neg h]
    exact lookup_filter_ne h t.entries

/-- Every entry of `t` is in `t'` as well. -/
structure Extends (t t' : FileTree) : Prop where
  home : t'.home = t.home
  entries : ∀ q e, t.entries.lookup q = some e → t'.entries.lookup q = some e

theorem Extends.rfl : Extends t t := ⟨Eq.refl _, fun _ _ h => h⟩

theorem Extends.trans {t'' : FileTree} (h : Extends t t') (h' : Extends t' t'') :
    Extends t t'' :=
  ⟨h'.home.trans h.home, fun q e hq => h'.entries q e (h.entries q e hq)⟩

theorem extends_set {place : List String} (e : Entry) (h : t.entries.lookup place = none) :
    Extends t (t.set place e) := by
  refine ⟨Eq.refl _, fun q e' hq => ?_⟩
  have hne : q ≠ place := by
    rintro rfl
    rw [h] at hq
    cases hq
  rw [lookup_set, if_neg hne, hq]

theorem extends_of_reach {here steps : List String} {place : Option (List String)}
    (h : t.reach here steps = (t', place)) : Extends t t' := by
  fun_induction reach t here steps with
  | case1 => cases h; exact .rfl
  | case2 t here steps ih => exact ih h
  | case3 t here steps _ ih => exact ih h
  | case4 t here step steps _ _ _ ih => exact ih h
  | case5 => cases h; exact .rfl
  | case6 t here step steps _ _ hnone _ ih => exact (extends_set _ hnone).trans (ih h)
  | case7 => cases h; exact .rfl

section Step

variable {here : List String} {step : String}

theorem locate_dot (t : FileTree) (here steps : List String) :
    t.locate here ("." :: steps) = t.locate here steps := by
  rw [locate.eq_def]
  simp

theorem locate_up (t : FileTree) (here steps : List String) :
    t.locate here (".." :: steps) = t.locate here.dropLast steps := by
  rw [locate.eq_def]
  simp

theorem locate_directory (hdot : step ≠ ".") (hup : step ≠ "..")
    (h : t.entries.lookup (here ++ [step]) = some .directory) (steps : List String) :
    t.locate here (step :: steps) = t.locate (here ++ [step]) steps := by
  simp [locate, hdot, hup, h]

theorem locate_file (hdot : step ≠ ".") (hup : step ≠ "..") {content : ByteArray}
    (h : t.entries.lookup (here ++ [step]) = some (.file content)) :
    t.locate here [step] = some (.file content) := by
  simp [locate, hdot, hup, h]

end Step

theorem start_eq (h : t'.home = t.home) (p : Path) : t'.start p = t.start p := by
  rw [start, start, h]

theorem find_file {path : String} {content : ByteArray}
    (hne : (Path.ofString path).isEmpty = false) (husable : isUsable path = true)
    (hslash : (Path.ofString path).endsInSlash = false)
    (h : t.locate (t.start (Path.ofString path)) (Path.ofString path).steps =
      some (.file content)) :
    t.find path = some (.file content) := by
  simp [find, hne, husable, hslash, h]

/-- Every directory of `t` is one in `t'`. -/
def KeepsDirectories (t t' : FileTree) : Prop :=
  ∀ q, t.entries.lookup q = some .directory → t'.entries.lookup q = some .directory

theorem locate_of_reach {t₁ : FileTree} {here there steps : List String}
    (h : t.reach here steps = (t₁, some there)) (hkeep : KeepsDirectories t₁ t')
    (rest : List String) : t'.locate here (steps ++ rest) = t'.locate there rest := by
  fun_induction reach t here steps with
  | case1 t here =>
    cases h
    rfl
  | case2 t here steps ih =>
    rw [List.cons_append, locate_dot]
    exact ih h
  | case3 t here steps _ ih =>
    rw [List.cons_append, locate_up]
    exact ih h
  | case4 t here step steps hdot hup hdir ih =>
    have hthere := hkeep _ ((extends_of_reach h).entries _ _ hdir)
    rw [List.cons_append, locate_directory hdot hup hthere]
    exact ih h
  | case5 => cases h
  | case6 t here step steps hdot hup _ _ ih =>
    have hset : (t.set (here ++ [step]) .directory).entries.lookup (here ++ [step]) =
        some .directory := by
      rw [lookup_set, if_pos rfl]
    have hthere := hkeep _ ((extends_of_reach h).entries _ _ hset)
    rw [List.cons_append, locate_directory hdot hup hthere]
    exact ih h
  | case7 => cases h

theorem put_eq_true_iff {here : List String} {name text : String} :
    t.put here name text = (t', true) ↔ name ≠ "." ∧ name ≠ ".." ∧ isName name = true ∧
      t.entries.lookup (here ++ [name]) ≠ some .directory ∧
      t' = t.set (here ++ [name]) (.file text.toUTF8) := by
  unfold put
  split
  · rename_i hname
    refine iff_of_false nofun fun ⟨hdot, hup, hshort, _⟩ => ?_
    simp [hdot, hup, hshort] at hname
  · rename_i hname
    simp only [not_or, Bool.not_eq_true', Bool.not_eq_false] at hname
    split
    · rename_i hdir
      exact iff_of_false nofun fun ⟨_, _, _, hfree, _⟩ => hfree hdir
    · rename_i hfree
      constructor
      · intro h
        cases h
        exact ⟨hname.1, hname.2.1, hname.2.2, hfree, rfl⟩
      · rintro ⟨-, -, -, -, rfl⟩
        rfl

theorem put_eq_false {here : List String} {name text : String}
    (h : t.put here name text = (t', false)) : t = t' := by
  unfold put at h
  split at h
  · cases h
    rfl
  · split at h
    · cases h
      rfl
    · cases h

theorem keepsDirectories_set {place : List String} (e : Entry)
    (h : t.entries.lookup place ≠ some .directory) : KeepsDirectories t (t.set place e) := by
  intro q hq
  have hne : q ≠ place := by
    rintro rfl
    exact h hq
  rw [lookup_set, if_neg hne, hq]

/-- What it takes for a file to be written. -/
theorem write_eq_true_iff {path text : String} : t.write path text = (t', true) ↔
    ∃ name here t₁, (Path.ofString path).steps.getLast? = some name ∧
      isUsable (Path.beforeLastStep path) = true ∧ isUsable path = true ∧
      (Path.ofString path).endsInSlash = false ∧
      t.reach (t.start (Path.ofString path)) (Path.ofString path).steps.dropLast =
        (t₁, some here) ∧
      t₁.put here name text = (t', true) := by
  constructor
  · intro h
    simp only [write] at h
    split at h
    · cases h
    · rename_i name hname
      split at h
      · cases h
      · rename_i habove
        split at h
        · cases h
        · rename_i t₁ here hreach
          split at h
          · cases h
          · rename_i husable
            simp only [Bool.or_eq_true, Bool.not_eq_true', not_or, Bool.not_eq_true,
              Bool.not_eq_false] at habove husable
            exact ⟨name, here, t₁, hname, habove, husable.2, husable.1, hreach, h⟩
  · rintro ⟨name, here, t₁, hname, habove, husable, hslash, hreach, hput⟩
    simp [write, hname, habove, husable, hslash, hreach, hput]

theorem find_write {path text : String} (h : t.write path text = (t', true)) :
    t'.find path = some (.file text.toUTF8) := by
  obtain ⟨name, here, t₁, hname, -, husable, hslash, hreach, hput⟩ := write_eq_true_iff.1 h
  obtain ⟨hdot, hup, -, hdir, rfl⟩ := put_eq_true_iff.1 hput
  have hsteps := List.dropLast_append_getLast? name hname
  -- The steps to the file lead to `here`, where its name is the last step.
  have hlocate := locate_of_reach hreach (keepsDirectories_set (.file text.toUTF8) hdir) [name]
  rw [hsteps, locate_file hdot hup ((lookup_set _ _ _ _).trans (if_pos rfl))] at hlocate
  have hne : (Path.ofString path).isEmpty = false := by
    rw [Path.isEmpty, ← hsteps]
    simp
  have hhome : (t₁.set (here ++ [name]) (.file text.toUTF8)).home = t.home :=
    (extends_of_reach hreach).home
  refine find_file hne husable hslash ?_
  rw [start_eq hhome, hlocate]

theorem read_write {path text : String} (h : t.write path text = (t', true)) :
    t'.read path = some text.toUTF8 := by
  rw [read, find_write h]

end FileTree

/-! ## Files that may stay as they are -/

namespace SourceFile

/-- Writing a file looks for it first, if it may have to stay as it is. -/
theorem run_write_eq {storage : Storage (StateM FileTree)} {t : FileTree} (f : SourceFile)
    (hpresent : (storage.isPresent f.path).run t = ((t.find f.path).isSome, t)) :
    (f.write storage).run t =
      if f.keepsExisting && (t.find f.path).isSome then (.skipped, t)
      else (if ((storage.write f.path f.render).run t).1 then .written else .failed,
        ((storage.write f.path f.render).run t).2) := by
  rw [write, StateT.run_bind, hpresent]
  dsimp only [bind, Id.instMonad]
  split
  · rfl
  · cases hwrite : (storage.write f.path f.render).run t with
    | mk done t' =>
      have hrun : storage.write f.path f.render t = (done, t') := hwrite
      simp only [StateT.run, StateT.bind, bind, hrun]
      cases done <;> rfl

theorem run_write (f : SourceFile) (t : FileTree) :
    (f.write FileTree.storage).run t =
      if f.keepsExisting && (t.find f.path).isSome then (.skipped, t)
      else (if (t.write f.path f.render).2 then .written else .failed,
        (t.write f.path f.render).1) := run_write_eq f rfl

theorem read_of_written {f : SourceFile} {t t' : FileTree}
    (h : (f.write FileTree.storage).run t = (.written, t')) :
    t'.read f.path = some f.render.toUTF8 := by
  rw [run_write] at h
  split at h
  · cases h
  · cases hdone : (t.write f.path f.render).2 with
    | false =>
      rw [hdone] at h
      cases h
    | true =>
      have htree : (t.write f.path f.render).1 = t' := (Prod.ext_iff.1 h).2
      exact FileTree.read_write (Prod.ext htree hdone)

end SourceFile
end SwiftDecl
