import SwiftDecl.Script

/-!
# SwiftDecl.Proofs.Script.Depth

The depth at every point of a script. What a step leaves behind is looked at in the same way
whether the step was completed or aborted (`settled`), so that no statement below needs one case
for the return from a scope and one for an abort that passes through it.

* `Stepwise.of_runStep`, `Stepwise.of_run` — what holds of each operation and goes along with
  scopes holds of every step and every run.
* `depth_runStep_of_not_assigns` — without assignments a step keeps the depth.
* `depth_of_starts` — the depth at which an inner step starts is the number of scopes around it.
* `settled_runStep` — depth and text after any step, assignments and aborts included.
* `depth_follows_nesting` — the above along the whole run of a script.
-/

namespace SwiftDecl
namespace Script

section Outcome

variable {β : Type}

/-- The buffer when a step is over, whether it was completed or aborted. -/
def settled : Except Abort (Buffer × β) → Buffer
  | .ok r => r.1
  | .error a => a.buffer

/-- Why a step was aborted, if it was. -/
def failure : Except Abort β → Option String
  | .ok _ => none
  | .error a => some a.message

end Outcome

variable {ω α : Type} {act : Action ω α}

@[simp] theorem settled_perform (op : ω) (b : Buffer) :
    settled (runStep act (.perform op) b) = settled (act op b) := by
  rw [runStep]
  cases act op b <;> rfl

@[simp] theorem failure_perform (op : ω) (b : Buffer) :
    failure (runStep act (.perform op) b) = failure (act op b) := by
  rw [runStep]
  cases act op b <;> rfl

/-- A scope takes its level back from the depth in force at its end, on return and on abort. -/
@[simp] theorem settled_scope (steps : List (Step ω)) (b : Buffer) :
    settled (runStep act (.scope steps) b) = (settled (runSteps act steps b.enter)).leave := by
  rw [runStep]
  cases runSteps act steps b.enter <;> rfl

@[simp] theorem failure_scope (steps : List (Step ω)) (b : Buffer) :
    failure (runStep act (.scope steps) b) = failure (runSteps act steps b.enter) := by
  rw [runStep]
  cases runSteps act steps b.enter <;> rfl

@[simp] theorem settled_setDepth (d : Nat) (b : Buffer) :
    settled (runStep act (.setDepth d) b) = { b with depth := d } := rfl

@[simp] theorem settled_abort (message : String) (b : Buffer) :
    settled (runStep act (.abort message) b) = b := rfl

@[simp] theorem settled_nil (b : Buffer) : settled (runSteps act [] b) = b := rfl

/-- The steps after one that was aborted are not run. -/
theorem settled_cons (step : Step ω) (steps : List (Step ω)) (b : Buffer) :
    settled (runSteps act (step :: steps) b) =
      if (failure (runStep act step b)).isSome then settled (runStep act step b)
      else settled (runSteps act steps (settled (runStep act step b))) := by
  rw [runSteps]
  rcases runStep act step b with a | ⟨b₁, r⟩
  · rfl
  · simp only [settled, failure]
    cases runSteps act steps b₁ <;> rfl

theorem failure_cons (step : Step ω) (steps : List (Step ω)) (b : Buffer) :
    failure (runSteps act (step :: steps) b) = (failure (runStep act step b)).or
      (failure (runSteps act steps (settled (runStep act step b)))) := by
  rw [runSteps]
  rcases runStep act step b with a | ⟨b₁, r⟩
  · rfl
  · simp only [settled, failure]
    cases runSteps act steps b₁ <;> rfl

theorem fst_run_cons (step : Step ω) (steps : List (Step ω)) (b : Buffer) :
    (run act (step :: steps) b).1 = (run act steps (settled (runStep act step b))).1 := by
  rw [run]
  cases runStep act step b <;> rfl

theorem fst_run_append (xs ys : List (Step ω)) (b : Buffer) :
    (run act (xs ++ ys) b).1 = (run act ys (run act xs b).1).1 := by
  induction xs generalizing b with
  | nil => rfl
  | cons x xs ih => rw [List.cons_append, fst_run_cons, fst_run_cons, ih]

theorem fst_run_concat (steps : List (Step ω)) (step : Step ω) (b : Buffer) :
    (run act (steps ++ [step]) b).1 = settled (runStep act step (run act steps b).1) := by
  rw [fst_run_append, fst_run_cons, run]

mutual
/-- The depth is assigned somewhere in the step. -/
def Step.assigns : Step ω → Bool
  | .perform _ => false
  | .scope steps => anyAssigns steps
  | .setDepth _ => true
  | .abort _ => false

def anyAssigns : List (Step ω) → Bool
  | [] => false
  | step :: steps => step.assigns || anyAssigns steps
end

theorem anyAssigns_cons_eq_false {step : Step ω} {steps : List (Step ω)} :
    anyAssigns (step :: steps) = false ↔ step.assigns = false ∧ anyAssigns steps = false := by
  rw [anyAssigns, Bool.or_eq_false_iff]

theorem anyAssigns_append_eq_false {xs ys : List (Step ω)} :
    anyAssigns (xs ++ ys) = false ↔ anyAssigns xs = false ∧ anyAssigns ys = false := by
  induction xs with
  | nil => simp [anyAssigns]
  | cons x xs ih =>
    rw [List.cons_append, anyAssigns_cons_eq_false, ih, anyAssigns_cons_eq_false, and_assoc]

/-- A relation between the buffers before and after, which each operation keeps to and which goes
along with sequences and scopes. -/
structure Stepwise (act : Action ω α) (R : Buffer → Buffer → Prop) : Prop where
  refl : ∀ b, R b b
  trans : ∀ {a b c}, R a b → R b c → R a c
  perform : ∀ op b, R b (settled (act op b))
  scope : ∀ {b c}, R b.enter c → R b c.leave

namespace Stepwise

variable {R : Buffer → Buffer → Prop}

-- Assignments need to keep to the relation only where there are any.
mutual
theorem of_runStep (h : Stepwise act R) (step : Step ω)
    (hassign : step.assigns = true → ∀ b d, R b { b with depth := d }) (b : Buffer) :
    R b (settled (runStep act step b)) := by
  cases step with
  | perform op =>
    rw [settled_perform]
    exact h.perform op b
  | scope steps =>
    rw [settled_scope]
    exact h.scope (of_runSteps h steps hassign b.enter)
  | setDepth d =>
    rw [settled_setDepth]
    exact hassign rfl b d
  | abort message =>
    rw [settled_abort]
    exact h.refl b

theorem of_runSteps (h : Stepwise act R) (steps : List (Step ω))
    (hassign : anyAssigns steps = true → ∀ b d, R b { b with depth := d }) (b : Buffer) :
    R b (settled (runSteps act steps b)) := by
  cases steps with
  | nil =>
    rw [settled_nil]
    exact h.refl b
  | cons step steps =>
    rw [anyAssigns, Bool.or_eq_true] at hassign
    have hstep := of_runStep h step (fun hs => hassign (.inl hs)) b
    rw [settled_cons]
    split
    · exact hstep
    · exact h.trans hstep (of_runSteps h steps (fun hs => hassign (.inr hs)) _)
end

theorem of_run (h : Stepwise act R) {steps : List (Step ω)}
    (hassign : anyAssigns steps = true → ∀ b d, R b { b with depth := d }) (b : Buffer) :
    R b (run act steps b).1 := by
  induction steps generalizing b with
  | nil => exact h.refl b
  | cons step steps ih =>
    rw [anyAssigns, Bool.or_eq_true] at hassign
    rw [fst_run_cons]
    exact h.trans (h.of_runStep step (fun hs => hassign (.inl hs)) b)
      (ih (fun hs => hassign (.inr hs)) _)

end Stepwise

/-- The text goes on from the text of the other buffer, in the same style. -/
def Continues (b b' : Buffer) : Prop := b'.style = b.style ∧ ∃ t, b'.text = b.text ++ t

theorem continues_setDepth (b : Buffer) (d : Nat) : Continues b { b with depth := d } :=
  ⟨rfl, "", by simp⟩

/-- Operations that add text and touch nothing else, whether they are completed or not. -/
def Additive (act : Action ω α) : Prop := ∀ op b, ∃ t, settled (act op b) = b.append t

theorem Additive.continues (h : Additive act) : Stepwise act Continues where
  refl b := continues_setDepth b b.depth
  trans := by
    rintro a b c ⟨hstyle, t, ht⟩ ⟨hstyle', u, hu⟩
    exact ⟨hstyle'.trans hstyle, t ++ u, by rw [hu, ht, String.append_assoc]⟩
  perform op b := by
    obtain ⟨t, ht⟩ := h op b
    rw [ht]
    exact ⟨rfl, t, rfl⟩
  scope hinner := hinner

theorem continues_runStep (h : Additive act) (step : Step ω) (b : Buffer) :
    Continues b (settled (runStep act step b)) :=
  h.continues.of_runStep step (fun _ => continues_setDepth) b

theorem continues_run (h : Additive act) (steps : List (Step ω)) (b : Buffer) :
    Continues b (run act steps b).1 :=
  h.continues.of_run (fun _ => continues_setDepth) b

theorem Additive.keepsDepth (h : Additive act) :
    Stepwise act fun b b' => b'.depth = b.depth where
  refl _ := rfl
  trans hab hbc := hbc.trans hab
  perform op b := by
    obtain ⟨t, ht⟩ := h op b
    rw [ht, Buffer.depth_append]
  scope hinner := by
    simp only [Buffer.enter] at hinner
    simp only [Buffer.leave]
    omega

theorem depth_runStep_of_not_assigns (h : Additive act) {step : Step ω}
    (hstep : step.assigns = false) (b : Buffer) :
    (settled (runStep act step b)).depth = b.depth :=
  h.keepsDepth.of_runStep step (by simp [hstep]) b

theorem depth_run_of_not_assigns (h : Additive act) {steps : List (Step ω)}
    (hsteps : anyAssigns steps = false) (b : Buffer) : (run act steps b).1.depth = b.depth :=
  h.keepsDepth.of_run (by simp [hsteps]) b

/-- A run of the steps gets to this step, at this buffer, inside this many of their scopes. -/
inductive Starts (act : Action ω α) :
    List (Step ω) → Buffer → Nat → Step ω → Buffer → Prop where
  | head {step : Step ω} {steps : List (Step ω)} {b : Buffer} :
      Starts act (step :: steps) b 0 step b
  | inside {inner steps : List (Step ω)} {b c : Buffer} {k : Nat} {step : Step ω} :
      Starts act inner b.enter k step c → Starts act (.scope inner :: steps) b (k + 1) step c
  | next {first step : Step ω} {steps : List (Step ω)} {b b' c : Buffer} {k : Nat}
      {r : Record α} : runStep act first b = .ok (b', r) → Starts act steps b' k step c →
      Starts act (first :: steps) b k step c

theorem depth_of_starts (h : Additive act) {steps : List (Step ω)} {b c : Buffer} {k : Nat}
    {step : Step ω} (hsteps : anyAssigns steps = false) (hstarts : Starts act steps b k step c) :
    c.depth = b.depth + k := by
  induction hstarts with
  | head => rfl
  | inside _ ih =>
    have hinner := ih (anyAssigns_cons_eq_false.1 hsteps).1
    simp only [Buffer.enter] at hinner
    omega
  | @next first _ _ b b' _ _ _ hfirst _ ih =>
    obtain ⟨hs, hrest⟩ := anyAssigns_cons_eq_false.1 hsteps
    have hkept := depth_runStep_of_not_assigns h hs b
    rw [hfirst] at hkept
    rw [ih hrest, ← hkept]
    rfl

/-- Operations that are never aborted themselves. -/
def Completes (act : Action ω α) : Prop := ∀ op b, failure (act op b) = none

mutual
/-- The message of the first abort in the step. -/
def Step.firstAbort : Step ω → Option String
  | .perform _ => none
  | .scope steps => firstAbort steps
  | .setDepth _ => none
  | .abort message => some message

def firstAbort : List (Step ω) → Option String
  | [] => none
  | step :: steps => step.firstAbort.or (firstAbort steps)
end

mutual
theorem failure_runStep (h : Completes act) (step : Step ω) (b : Buffer) :
    failure (runStep act step b) = step.firstAbort := by
  cases step with
  | perform op => rw [failure_perform, h op b, Step.firstAbort]
  | scope steps => rw [failure_scope, failure_runSteps h steps b.enter, Step.firstAbort]
  | setDepth d => rfl
  | abort message => rfl

theorem failure_runSteps (h : Completes act) (steps : List (Step ω)) (b : Buffer) :
    failure (runSteps act steps b) = firstAbort steps := by
  cases steps with
  | nil => rfl
  | cons step steps =>
    rw [failure_cons, failure_runStep h step b, failure_runSteps h steps _, firstAbort]
end

mutual
/-- The depth after the step when it starts at depth `n`. -/
def Step.depthAfter (n : Nat) : Step ω → Nat
  | .perform _ => n
  | .scope steps => depthAfter (n + 1) steps - 1
  | .setDepth d => d
  | .abort _ => n

def depthAfter (n : Nat) : List (Step ω) → Nat
  | [] => n
  | step :: steps =>
    if step.firstAbort.isSome then step.depthAfter n else depthAfter (step.depthAfter n) steps
end

mutual
/-- The operations that the step carries out when it starts at depth `n`, those before its first
abort, each with its depth. -/
def Step.performed (n : Nat) : Step ω → List (Nat × ω)
  | .perform op => [(n, op)]
  | .scope steps => performed (n + 1) steps
  | .setDepth _ => []
  | .abort _ => []

def performed (n : Nat) : List (Step ω) → List (Nat × ω)
  | [] => []
  | step :: steps =>
    step.performed n ++
      if step.firstAbort.isSome then [] else performed (step.depthAfter n) steps
end

/-- The text after operations that are carried out one after another, each at its own depth. -/
def replay (act : Action ω α) (style : Indent) : String → List (Nat × ω) → String
  | text, [] => text
  | text, (n, op) :: ops => replay act style (settled (act op ⟨style, n, text⟩)).text ops

theorem replay_append (style : Indent) (text : String) (xs ys : List (Nat × ω)) :
    replay act style text (xs ++ ys) = replay act style (replay act style text xs) ys := by
  induction xs generalizing text with
  | nil => rfl
  | cons x xs ih => exact ih _

mutual
theorem settled_runStep (ha : Additive act) (hc : Completes act) (step : Step ω) (b : Buffer) :
    settled (runStep act step b) = ⟨b.style, step.depthAfter b.depth,
      replay act b.style b.text (step.performed b.depth)⟩ := by
  cases step with
  | perform op =>
    obtain ⟨t, ht⟩ := ha op b
    simp [Step.depthAfter, Step.performed, replay, ht, Buffer.append]
  | scope steps =>
    rw [settled_scope, settled_runSteps ha hc steps b.enter]
    rfl
  | setDepth d => rfl
  | abort message => rfl

theorem settled_runSteps (ha : Additive act) (hc : Completes act) (steps : List (Step ω))
    (b : Buffer) :
    settled (runSteps act steps b) = ⟨b.style, depthAfter b.depth steps,
      replay act b.style b.text (performed b.depth steps)⟩ := by
  cases steps with
  | nil => rfl
  | cons step steps =>
    rw [settled_cons, failure_runStep hc step b, settled_runStep ha hc step b, depthAfter,
      performed, replay_append]
    split
    · rfl
    · exact settled_runSteps ha hc steps _
end

/-! ## The operations of a buffer -/

theorem additive_edit : Additive Edit.apply := by
  intro op b
  cases op with
  | append s => exact ⟨s, rfl⟩
  | writeln s =>
    simp only [Edit.apply, settled, Buffer.writeln]
    split
    · exact ⟨"\n", rfl⟩
    · refine ⟨Buffer.indentation b.style.unit b.depth ++ s ++ "\n", ?_⟩
      simp [Buffer.append, Buffer.appendIndent, Buffer.appendEol, String.append_assoc]
  | appendIndent => exact ⟨Buffer.indentation b.style.unit b.depth, rfl⟩
  | appendEol => exact ⟨"\n", rfl⟩
  | appendEolIfMissing =>
    simp only [Edit.apply, settled, Buffer.appendEolIfMissing]
    split
    · exact ⟨"", by simp [Buffer.append]⟩
    · exact ⟨"\n", rfl⟩
  | blank => exact ⟨"\n", rfl⟩
  | isEmpty => exact ⟨"", by simp [Edit.apply, settled, Buffer.append]⟩

theorem completes_edit : Completes Edit.apply := by
  intro op b
  cases op <;> rfl

/-- Any script, from any buffer: each outermost step goes on from the text that the steps before it
left, and what it adds are its operations up to its first abort, at their depths. A scope that is
left, by an abort or not, takes one level from the depth in force just then. If nothing else
touches the depth, every outermost step ends at the depth of the start, and every inner step is
deeper by the number of scopes around it. -/
theorem depth_follows_nesting (before : List (Step Edit)) (step : Step Edit) (b : Buffer) :
    let start := (run Edit.apply before b).1
    let stop := (run Edit.apply (before ++ [step]) b).1
    (∃ t u, start.text = b.text ++ t ∧ stop.text = start.text ++ u) ∧
    failure (runStep Edit.apply step start) = step.firstAbort ∧
    stop = ⟨b.style, step.depthAfter start.depth,
      replay Edit.apply b.style start.text (step.performed start.depth)⟩ ∧
    (∀ k inner c, Starts Edit.apply [step] start k (.scope inner) c →
      (settled (runStep Edit.apply (.scope inner) c)).depth =
        (settled (runSteps Edit.apply inner c.enter)).depth - 1) ∧
    (anyAssigns (before ++ [step]) = false →
      start.depth = b.depth ∧ stop.depth = b.depth ∧
      ∀ k inner c, Starts Edit.apply [step] start k inner c → c.depth = b.depth + k) := by
  intro start stop
  have hstop : stop = settled (runStep Edit.apply step start) := fst_run_concat before step b
  obtain ⟨hstyle, t, ht⟩ := continues_run additive_edit before b
  obtain ⟨-, u, hu⟩ := continues_runStep additive_edit step start
  refine ⟨⟨t, u, ht, (congrArg _ hstop).trans hu⟩, failure_runStep completes_edit step start,
    ?_, ?_, ?_⟩
  · rw [hstop, settled_runStep additive_edit completes_edit step start, hstyle]
  · intro k inner c _
    rw [settled_scope]
    rfl
  · intro hassigns
    obtain ⟨hbefore, hstep⟩ := anyAssigns_append_eq_false.1 hassigns
    have hstart : start.depth = b.depth := depth_run_of_not_assigns additive_edit hbefore b
    refine ⟨hstart, depth_run_of_not_assigns additive_edit hassigns b, fun k inner c hstarts => ?_⟩
    rw [← hstart]
    exact depth_of_starts additive_edit hstep hstarts

/-- A line two scopes deep, where an abort ends both of them. -/
def abortedBlock : Step Edit :=
  .scope [.perform (.writeln "do"), .scope [.perform (.writeln "x"), .abort "stop"],
    .perform (.writeln "end")]

theorem depth_follows_nesting_aborted :
    let start := (run Edit.apply [abortedBlock] ⟨.tab, 1, "a\n"⟩).1
    start = ⟨.tab, 1, "a\n\t\tdo\n\t\t\tx\n"⟩ ∧
      (∃ c, Starts Edit.apply [abortedBlock] start 2 (.perform (.writeln "x")) c ∧ c.depth = 3) ∧
      (∃ inner c, Starts Edit.apply [abortedBlock] start 1 (.scope inner) c ∧
        (settled (runStep Edit.apply (.scope inner) c)).depth = 2) ∧
      (run Edit.apply [abortedBlock, abortedBlock] ⟨.tab, 1, "a\n"⟩).1 =
        ⟨.tab, 1, "a\n\t\tdo\n\t\t\tx\n\t\tdo\n\t\t\tx\n"⟩ := by
  intro start
  have hkept : anyAssigns ([abortedBlock] ++ [abortedBlock]) = false := rfl
  obtain ⟨-, -, hstop, hleft, hdepth⟩ :=
    depth_follows_nesting [abortedBlock] abortedBlock ⟨.tab, 1, "a\n"⟩
  obtain ⟨-, -, hinner⟩ := hdepth hkept
  have hline : ∃ c, Starts Edit.apply [abortedBlock] start 2 (.perform (.writeln "x")) c :=
    ⟨_, .inside (.next rfl (.inside .head))⟩
  have hscope : ∃ c, Starts Edit.apply [abortedBlock] start 1
      (.scope [.perform (.writeln "x"), .abort "stop"]) c := ⟨_, .inside (.next rfl .head)⟩
  obtain ⟨c, hc⟩ := hline
  obtain ⟨d, hd⟩ := hscope
  have hentered : d.depth = 2 := hinner 1 _ d hd
  refine ⟨rfl, ⟨c, hc, hinner 2 _ c hc⟩, ⟨_, d, hd, ?_⟩, hstop⟩
  rw [hleft 1 _ d hd, ← hentered]
  rfl

end Script
end SwiftDecl
