import SwiftDecl.Proofs.Storage.Places

/-!
# SwiftDecl.Proofs.Storage.Runs

Files written one after another, on a tree that may refuse to go on at any moment.

* `effect_write` — what writing a file may change, by the outcome that is reported.
* `fst_run_write_eq_written_iff` — when a file is written by a tree that does not refuse.
* `contentAt_writeAll` — after a run, the text that was written last at a place is there.
* `writes_touch_what_they_report` — these together.
-/

namespace SwiftDecl
namespace FileTree

variable {t t' : FileTree} {steps : List String}

/-- A tree that refuses to go on after some of the steps to a file, or does not refuse. -/
def storageRefusing (refusal : Option Nat) : Storage (StateM FileTree) where
  read := storage.read
  isPresent := storage.isPresent
  write path text :=
    match refusal with
    | none => storage.write path text
    | some n => fun t =>
      let p := Path.ofString path
      (false, (t.reach (t.start p) (p.steps.dropLast.take n)).1)

theorem storageRefusing_none : storageRefusing none = storage := rfl

/-- Nothing happens to the tree but that directories are made on the way to the path. -/
def OnlyMakesWay (t t' : FileTree) (path : String) : Prop :=
  t'.home = t.home ∧ ∀ place,
    KeptOrMade t t' (t.start (Path.ofString path)) (Path.ofString path).steps.dropLast place

theorem onlyMakesWay_refl (t : FileTree) (path : String) : OnlyMakesWay t t path :=
  ⟨rfl, fun _ => .refl⟩

theorem onlyMakesWay_of_reach {path : String} {reached : Option (List String)}
    (hsteps : steps <+: (Path.ofString path).steps.dropLast)
    (h : t.reach (t.start (Path.ofString path)) steps = (t', reached)) : OnlyMakesWay t t' path :=
  ⟨(extends_of_reach h).home, fun place => (keptOrMade_of_reach h place).mono hsteps⟩

theorem onlyMakesWay_of_write_false {path text : String} (h : t.write path text = (t', false)) :
    OnlyMakesWay t t' path := by
  simp only [write] at h
  split at h
  · cases h
    exact onlyMakesWay_refl t path
  · split at h
    · cases h
      exact onlyMakesWay_refl t path
    · split at h
      · rename_i hreach
        cases h
        exact onlyMakesWay_of_reach (List.prefix_refl _) hreach
      · rename_i t₁ here hreach
        split at h
        · cases h
          exact onlyMakesWay_of_reach (List.prefix_refl _) hreach
        · obtain rfl : t₁ = t' := put_eq_false h
          exact onlyMakesWay_of_reach (List.prefix_refl _) hreach

/-- The file holds the text, where there was no directory before, and nothing else happens to the
tree but that directories are made on the way to it. -/
structure Writes (t t' : FileTree) (path text : String) : Prop where
  home : t'.home = t.home
  found : t'.find path = some (.file text.toUTF8)
  here : t'.entries.lookup (t.placeOf path) = some (.file text.toUTF8)
  free : t.entries.lookup (t.placeOf path) ≠ some .directory
  elsewhere : ∀ place, place ≠ t.placeOf path →
    KeptOrMade t t' (t.start (Path.ofString path)) (Path.ofString path).steps.dropLast place

theorem writes_of_write_true {path text : String} (h : t.write path text = (t', true)) :
    Writes t t' path text := by
  obtain ⟨name, here, t₁, hname, -, -, -, hreach, hput⟩ := write_eq_true_iff.1 h
  have hfound := find_write h
  obtain ⟨hdot, hup, -, hdir, rfl⟩ := put_eq_true_iff.1 hput
  have hway := keptOrMade_of_reach hreach
  have hplace := placeOf_eq_concat hname hdot hup hreach
  refine ⟨(extends_of_reach hreach).home, hfound, ?_, fun hfree => hdir ?_, fun place hne => ?_⟩
  · rw [hplace, lookup_set, if_pos rfl]
  · rw [← hplace]
    exact (extends_of_reach hreach).entries _ _ hfree
  · have hkept := hway place
    rw [hplace] at hne
    rwa [KeptOrMade, lookup_set, if_neg hne]

end FileTree

open FileTree (storageRefusing)

namespace SourceFile

/-- What writing a file does to the tree, by the outcome that is reported. -/
def Effect (f : SourceFile) (t t' : FileTree) : Outcome → Prop
  | .skipped => t' = t
  | .written => FileTree.Writes t t' f.path f.render
  | .failed => FileTree.OnlyMakesWay t t' f.path

variable {f : SourceFile} {t t' : FileTree} {outcome : Outcome}

theorem run_write_refusing (f : SourceFile) (t : FileTree) (refusal : Option Nat) :
    (f.write (storageRefusing refusal)).run t =
      if f.keepsExisting && (t.find f.path).isSome then (.skipped, t)
      else (if ((storageRefusing refusal).write f.path f.render t).1 then .written else .failed,
        ((storageRefusing refusal).write f.path f.render t).2) := run_write_eq f rfl

theorem fst_run_write_eq_skipped_iff (f : SourceFile) (t : FileTree) (refusal : Option Nat) :
    ((f.write (storageRefusing refusal)).run t).1 = .skipped ↔
      f.keepsExisting = true ∧ ∃ e, t.find f.path = some e := by
  rw [run_write_refusing, ← Option.isSome_iff_exists, ← Bool.and_eq_true]
  split
  · rename_i h
    exact iff_of_true rfl h
  · rename_i h
    refine iff_of_false ?_ h
    dsimp only
    split <;> nofun

/-- A tree that does not refuse writes every file that there is a way to write. -/
theorem fst_run_write_eq_written_iff (f : SourceFile) (t : FileTree) :
    ((f.write (storageRefusing none)).run t).1 = .written ↔
      ¬ (f.keepsExisting = true ∧ ∃ e, t.find f.path = some e) ∧ t.IsWritable f.path := by
  rw [FileTree.storageRefusing_none, run_write, ← Option.isSome_iff_exists, ← Bool.and_eq_true,
    ← FileTree.snd_write_eq_true_iff t f.path f.render]
  split
  · rename_i h
    exact iff_of_false nofun fun hboth => hboth.1 h
  · rename_i h
    rw [and_iff_right h]
    cases (t.write f.path f.render).2 with
    | true => exact iff_of_true rfl rfl
    | false => exact iff_of_false nofun nofun

theorem effect_write (f : SourceFile) (t : FileTree) (refusal : Option Nat) :
    f.Effect t ((f.write (storageRefusing refusal)).run t).2
      ((f.write (storageRefusing refusal)).run t).1 := by
  rw [run_write_refusing]
  split
  · rfl
  · cases refusal with
    | some n => exact FileTree.onlyMakesWay_of_reach (List.take_prefix n _) rfl
    | none =>
      have hwrite : (storageRefusing none).write f.path f.render t =
          ((t.write f.path f.render).2, (t.write f.path f.render).1) := rfl
      rw [hwrite]
      cases hdone : (t.write f.path f.render).2 with
      | true => exact FileTree.writes_of_write_true (Prod.ext rfl hdone)
      | false => exact FileTree.onlyMakesWay_of_write_false (Prod.ext rfl hdone)

theorem Effect.home (h : f.Effect t t' outcome) : t'.home = t.home := by
  cases outcome with
  | skipped => exact congrArg FileTree.home h
  | written => exact FileTree.Writes.home h
  | failed => exact h.1

/-- The only file that may change is the one that is written. -/
theorem Effect.contentAt (h : f.Effect t t' outcome) (place : List String) : t'.contentAt place =
    if outcome = .written ∧ t.placeOf f.path = place then some f.render.toUTF8
    else t.contentAt place := by
  cases outcome with
  | skipped =>
    obtain rfl : t' = t := h
    rw [if_neg (by simp)]
  | failed =>
    rw [if_neg (by simp)]
    exact (h.2 place).contentAt_eq
  | written =>
    have hw : FileTree.Writes t t' f.path f.render := h
    by_cases hplace : t.placeOf f.path = place
    · rw [if_pos ⟨rfl, hplace⟩, ← hplace, FileTree.contentAt_eq_some_iff]
      exact hw.here
    · rw [if_neg fun hboth => hplace hboth.2]
      exact (hw.elsewhere place (Ne.symm hplace)).contentAt_eq

/-- Writes files one after another, each until the tree refuses to go on, if it does, and tells
what was reported of each. -/
def writeAll : List (SourceFile × Option Nat) → FileTree → List (SourceFile × Outcome) × FileTree
  | [], t => ([], t)
  | (f, refusal) :: calls, t =>
    let call := (f.write (storageRefusing refusal)).run t
    let later := writeAll calls call.2
    ((f, call.1) :: later.1, later.2)

/-- The last of the files that were written at a place. -/
def lastWritten (t : FileTree) (place : List String) (log : List (SourceFile × Outcome)) :
    Option SourceFile :=
  ((log.filter fun x => x.2 = .written ∧ t.placeOf x.1.path = place).getLast?).map Prod.fst

theorem lastWritten_cons (t : FileTree) (place : List String) (f : SourceFile) (outcome : Outcome)
    (log : List (SourceFile × Outcome)) : lastWritten t place ((f, outcome) :: log) =
      (lastWritten t place log).or
        (if outcome = .written ∧ t.placeOf f.path = place then some f else none) := by
  unfold lastWritten
  rw [List.filter_cons]
  by_cases h : outcome = .written ∧ t.placeOf f.path = place
  · simp only [h, and_self, decide_true, if_true, List.getLast?_cons]
    cases (log.filter _).getLast? <;> rfl
  · simp only [h, decide_false, if_false, Option.or_none, Bool.false_eq_true]

theorem lastWritten_congr (h : t'.home = t.home) (place : List String)
    (log : List (SourceFile × Outcome)) : lastWritten t' place log = lastWritten t place log := by
  simp only [lastWritten, FileTree.placeOf_eq h]

theorem home_writeAll (calls : List (SourceFile × Option Nat)) (t : FileTree) :
    (writeAll calls t).2.home = t.home := by
  induction calls generalizing t with
  | nil => rfl
  | cons call calls ih =>
    obtain ⟨f, refusal⟩ := call
    exact (ih _).trans (effect_write f t refusal).home

/-- A run leaves at each place the text that was written there last, or what was there before. -/
theorem contentAt_writeAll (calls : List (SourceFile × Option Nat)) (t : FileTree)
    (place : List String) : (writeAll calls t).2.contentAt place =
      ((lastWritten t place (writeAll calls t).1).map fun f => f.render.toUTF8).or
        (t.contentAt place) := by
  induction calls generalizing t with
  | nil => rfl
  | cons call calls ih =>
    obtain ⟨f, refusal⟩ := call
    have heffect := effect_write f t refusal
    have hlater := ih ((f.write (storageRefusing refusal)).run t).2
    rw [lastWritten_congr heffect.home, heffect.contentAt] at hlater
    rw [writeAll, lastWritten_cons]
    refine hlater.trans ?_
    cases lastWritten t place _ with
    | some g => rfl
    | none =>
      rw [Option.none_or, Option.map_none, Option.none_or]
      split <;> rfl

/-- Whatever the tree and whenever it refuses to go on: a file is reported as skipped exactly if it
keeps what exists and there is something, and then nothing changes; one that is reported as written
is there with its text, and nothing else happens but that missing directories on the way to it are
made; and one that fails does not even change its own place. So no other file gets another content,
and after any number of files, the content of each is the text that was written last at its place,
or what it was before. A tree that does not refuse writes each file that is not skipped and that
there is a way to write, and no other. -/
theorem writes_touch_what_they_report (t : FileTree) :
    (∀ (f : SourceFile) (refusal : Option Nat),
      let call := (f.write (storageRefusing refusal)).run t
      (call.1 = .skipped ↔ f.keepsExisting = true ∧ ∃ e, t.find f.path = some e) ∧
      f.Effect t call.2 call.1 ∧
      ∀ place, call.2.contentAt place =
        if call.1 = .written ∧ t.placeOf f.path = place then some f.render.toUTF8
        else t.contentAt place) ∧
    (∀ f : SourceFile, ((f.write (storageRefusing none)).run t).1 = .written ↔
      ¬ (f.keepsExisting = true ∧ ∃ e, t.find f.path = some e) ∧ t.IsWritable f.path) ∧
    ∀ calls,
      let run := writeAll calls t
      (∀ place, run.2.contentAt place =
        ((lastWritten t place run.1).map fun f => f.render.toUTF8).or (t.contentAt place)) ∧
      ∀ path content, run.2.read path = some content →
        ((lastWritten t (t.placeOf path) run.1).map fun f => f.render.toUTF8).or
          (t.contentAt (t.placeOf path)) = some content := by
  refine ⟨fun f refusal => ?_, fun f => fst_run_write_eq_written_iff f t,
    fun calls => ⟨contentAt_writeAll calls t, fun path content h => ?_⟩⟩
  · have heffect := effect_write f t refusal
    exact ⟨fst_run_write_eq_skipped_iff f t refusal, heffect, heffect.contentAt⟩
  · rw [← contentAt_writeAll, ← FileTree.placeOf_eq (home_writeAll calls t)]
    exact FileTree.contentAt_of_read h

example :
    let calls : List (SourceFile × Option Nat) := [
      (⟨"a/b.swift", "1", none, false⟩, none), (⟨"a/../a/b.swift", "2", none, true⟩, none),
      (⟨"a/b.swift/c", "3", none, false⟩, none), (⟨"c/../a/b.swift", "4", none, false⟩, some 1)]
    let run := writeAll calls .empty
    run.1.map Prod.snd = [.written, .skipped, .failed, .failed] ∧
      (run.2.contentAt ["home", "a", "b.swift"]).map (·.data) = some "1".toUTF8.data := by
  decide +kernel

end SourceFile
end SwiftDecl
