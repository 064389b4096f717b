import SwiftDecl.Buffer

/-!
# SwiftDecl.Script

Programs over a buffer: operations, scopes that run one level deeper, assignments of the depth,
and aborts. An abort passes through every scope around it, each of which takes its level back,
and ends the outermost step; the steps after that one still run. A run yields one record for
each step that was completed, and one for each outermost step that was aborted.
-/

namespace SwiftDecl
namespace Script

inductive Step (ω : Type) where
  | perform (op : ω)
  | scope (steps : List (Step ω))
  | setDepth (depth : Nat)
  | abort (message : String)

/-- What came of a step: the text that it added and the depth after it. -/
inductive Record (α : Type) where
  | done (added : String) (depth : Nat) (answer : Option α)
  | scope (added : String) (depth : Nat) (inner : List (Record α))
  | aborted (added : String) (depth : Nat) (message : String)

/-- The meaning of an operation: the buffer after it, perhaps with an answer. -/
abbrev Action (ω α : Type) := ω → Buffer → Except Abort (Buffer × Option α)

/-- The text of `after` beyond that of `before`. -/
def added (before after : Buffer) : String :=
  String.ofList (after.text.toList.drop before.text.length)

variable {ω α : Type}

mutual
def runStep (act : Action ω α) : Step ω → Buffer → Except Abort (Buffer × Record α)
  | .perform op, b =>
    match act op b with
    | .error a => .error a
    | .ok (b', answer) => .ok (b', .done (added b b') b'.depth answer)
  | .scope steps, b =>
    match runSteps act steps b.enter with
    | .error a => .error { a with buffer := a.buffer.leave }
    | .ok (b', inner) => .ok (b'.leave, .scope (added b b') b'.leave.depth inner)
  | .setDepth depth, b => .ok ({ b with depth }, .done "" depth none)
  | .abort message, b => .error ⟨message, b⟩

def runSteps (act : Action ω α) : List (Step ω) → Buffer → Except Abort (Buffer × List (Record α))
  | [], b => .ok (b, [])
  | step :: steps, b =>
    match runStep act step b with
    | .error a => .error a
    | .ok (b₁, r) =>
      match runSteps act steps b₁ with
      | .error a => .error a
      | .ok (b₂, rs) => .ok (b₂, r :: rs)
end

/-- Runs outermost steps; one that is aborted leaves its record and what it wrote. -/
def run (act : Action ω α) : List (Step ω) → Buffer → Buffer × List (Record α)
  | [], b => (b, [])
  | step :: steps, b =>
    match runStep act step b with
    | .ok (b', r) =>
      let rest := run act steps b'
      (rest.1, r :: rest.2)
    | .error a =>
      let rest := run act steps a.buffer
      (rest.1, .aborted (added b a.buffer) a.buffer.depth a.message :: rest.2)

/-- The operations of a buffer itself. -/
inductive Edit where
  | append (s : String)
  | writeln (s : String)
  | appendIndent
  | appendEol
  | appendEolIfMissing
  | blank
  | isEmpty

def Edit.apply : Action Edit Bool
  | .append s, b => .ok (b.append s, none)
  | .writeln s, b => .ok (b.writeln s, none)
  | .appendIndent, b => .ok (b.appendIndent, none)
  | .appendEol, b => .ok (b.appendEol, none)
  | .appendEolIfMissing, b => .ok (b.appendEolIfMissing, none)
  | .blank, b => .ok (b.blank, none)
  | .isEmpty, b => .ok (b, some b.isEmpty)

end Script
end SwiftDecl
