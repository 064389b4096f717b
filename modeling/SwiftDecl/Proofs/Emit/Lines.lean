import SwiftDecl.Emit.Member

/-!
# SwiftDecl.Proofs.Emit.Lines

Text as lines, each with the depth it stands at below the depth of the buffer. `Writes f ls` says
that `f` adds exactly these lines to any buffer and changes nothing else. It is proved once for
each operation of the buffer and goes along with composition and indentation, so that nothing
above has to look at text or depth again.

* `Writes.comp`, `Writes.indented` — sequences and deeper scopes.
* `writes_openBlock` — the first lines of a block, which are not written line by line.
-/

namespace SwiftDecl

structure Line where
  depth : Nat
  text : String
  deriving DecidableEq

namespace Line

/-- An empty line has no indentation. -/
def render (unit : String) (depth : Nat) (l : Line) : String :=
  if l.text.isEmpty then "\n" else Buffer.indentation unit (depth + l.depth) ++ l.text ++ "\n"

/-- Lines at the depth of the buffer. -/
def flat (texts : List String) : List Line := texts.map (⟨0, ·⟩)

def blank : Line := ⟨0, ""⟩

/-- The lines one level deeper. -/
def deeper (ls : List Line) : List Line := ls.map fun l => ⟨l.depth + 1, l.text⟩

/-- The text of lines one after another. -/
def renderAll (unit : String) (depth : Nat) : List Line → String
  | [] => ""
  | l :: ls => l.render unit depth ++ renderAll unit depth ls

variable {unit : String} {depth : Nat}

theorem renderAll_append (ls ms : List Line) :
    renderAll unit depth (ls ++ ms) = renderAll unit depth ls ++ renderAll unit depth ms := by
  induction ls with
  | nil => simp [renderAll]
  | cons l ls ih => rw [List.cons_append, renderAll, ih, renderAll, String.append_assoc]

theorem renderAll_singleton (l : Line) : renderAll unit depth [l] = l.render unit depth := by
  simp [renderAll]

theorem renderAll_deeper (ls : List Line) :
    renderAll unit depth (deeper ls) = renderAll unit (depth + 1) ls := by
  induction ls with
  | nil => rfl
  | cons l ls ih =>
    have hd : depth + (l.depth + 1) = depth + 1 + l.depth := by omega
    simp only [deeper, List.map_cons, renderAll] at ih ⊢
    rw [ih]
    simp only [render, hd]

theorem indentation_eq_join (n : Nat) :
    Buffer.indentation unit n = String.join (List.replicate n unit) := by
  induction n with
  | zero => rfl
  | succ n ih => rw [Buffer.indentation, ih, List.replicate_succ, String.join_cons]

theorem renderAll_eq_join (ls : List Line) : renderAll unit depth ls =
    String.join (ls.map fun l => if l.text = "" then "\n"
      else String.join (List.replicate (depth + l.depth) unit) ++ l.text ++ "\n") := by
  induction ls with
  | nil => rfl
  | cons l ls ih =>
    rw [renderAll, ih, List.map_cons, String.join_cons, render, indentation_eq_join]
    simp only [String.isEmpty_iff]

end Line

open Line (flat blank deeper renderAll)

/-- Adds exactly these lines, whatever the buffer holds. -/
def Writes (f : Buffer → Buffer) (ls : List Line) : Prop :=
  ∀ b, f b = b.append (renderAll b.style.unit b.depth ls)

section Writes

variable {f g : Buffer → Buffer} {ls ms : List Line}

theorem Buffer.append_append (s t : String) (b : Buffer) :
    (b.append s).append t = b.append (s ++ t) := by
  simp [Buffer.append, String.append_assoc]

theorem Buffer.append_empty (b : Buffer) : b.append "" = b := by
  simp [Buffer.append]

theorem writes_id : Writes (fun b => b) [] := fun b => b.append_empty.symm

theorem Writes.comp (hf : Writes f ls) (hg : Writes g ms) :
    Writes (fun b => g (f b)) (ls ++ ms) := by
  intro b
  show g (f b) = _
  rw [hf b, hg, Buffer.append_append, Line.renderAll_append]
  rfl

theorem writes_blank : Writes Buffer.blank [blank] := by
  intro b
  rw [Line.renderAll_singleton]
  rfl

theorem writes_writeln (s : String) : Writes (Buffer.writeln s) (flat [s]) := by
  intro b
  rw [flat, List.map_singleton, Line.renderAll_singleton, Buffer.writeln, Line.render]
  split
  · rfl
  · simp [Buffer.appendIndent, Buffer.appendEol, Buffer.append_append]

theorem Writes.indented (hf : Writes f ls) : Writes (Buffer.indented f) (deeper ls) := by
  intro b
  rw [Buffer.indented, hf, Line.renderAll_deeper]
  simp [Buffer.leave, Buffer.enter, Buffer.append]

theorem writes_writelnIf (present : Bool) (s : String) :
    Writes (Emit.writelnIf present s) (if present then flat [s] else []) := by
  intro b
  unfold Emit.writelnIf
  split
  · exact writes_writeln s b
  · exact writes_id b

theorem writes_foldl {α : Type} {f : α → Buffer → Buffer} {lines : α → List Line}
    (h : ∀ x, Writes (f x) (lines x)) (xs : List α) :
    Writes (fun b => xs.foldl (fun b x => f x b) b) (xs.flatMap lines) := by
  induction xs with
  | nil => exact writes_id
  | cons x xs ih =>
    rw [List.flatMap_cons]
    exact (h x).comp ih

theorem writes_writeLines (texts : List String) : Writes (Emit.writeLines texts) (flat texts) := by
  have h := writes_foldl writes_writeln texts
  have hflat : texts.flatMap (fun s => flat [s]) = flat texts := List.map_eq_flatMap.symm
  rw [hflat] at h
  exact h

end Writes

/-- The lines of the beginning of a block. -/
def openBlockLines (s : Style) (header : String) (cs : List GenericConstraint) : List Line :=
  if cs.isEmpty then flat [header ++ " \x7b"]
  else flat [header] ++ deeper (flat [s.whereClause cs]) ++ flat ["\x7b"]

theorem writes_openBlock (s : Style) {header : String} (cs : List GenericConstraint)
    (h : header.isEmpty = false) :
    Writes (Emit.openBlock s header cs) (openBlockLines s header cs) := by
  have hline : ∀ t : String, t.isEmpty = false →
      Writes (fun b => (b.appendIndent.append t).appendEol) (flat [t]) := by
    intro t ht b
    rw [← writes_writeln t b, Buffer.writeln, if_neg (by simp [ht])]
  unfold Emit.openBlock openBlockLines
  split
  · have hne : (header ++ " \x7b").isEmpty = false := by simp [String.isEmpty_eq_false_iff]
    intro b
    show ((b.appendIndent.append header).append " \x7b").appendEol = _
    rw [Buffer.append_append]
    exact hline _ hne b
  · exact ((hline header h).comp (writes_writeln _).indented).comp (writes_writeln "\x7b")

end SwiftDecl
