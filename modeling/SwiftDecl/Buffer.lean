/-!
# SwiftDecl.Buffer

The text written so far, in a style of indentation, with the depth at which the next line starts.
Text is only ever added at the end.

* `text_writeln`, `text_appendIndent` — what a line and its indentation add.
* `depth_leave_enter` — entering a scope and leaving it restores the depth.
-/

namespace SwiftDecl

/-- Styles of indentation. -/
inductive Indent where
  | spaces (width : Nat)
  | tab
  deriving DecidableEq, Inhabited

namespace Indent

/-- Two spaces. -/
def swift : Indent := .spaces 2

/-- The text of one level. -/
def unit : Indent → String
  | .spaces width => String.ofList (List.replicate width ' ')
  | .tab => "\t"

end Indent

structure Buffer where
  style : Indent
  depth : Nat := 0
  text : String := ""
  deriving DecidableEq, Inhabited

/-- An operation that gave up: why, and the buffer with all that had been written by then. -/
structure Abort where
  message : String
  buffer : Buffer

namespace Buffer

def new (style : Indent) : Buffer := { style }

def isEmpty (b : Buffer) : Bool := b.text.isEmpty

def append (s : String) (b : Buffer) : Buffer := { b with text := b.text ++ s }

/-- The indentation unit `n` times. -/
def indentation (unit : String) : Nat → String
  | 0 => ""
  | n + 1 => unit ++ indentation unit n

def appendIndent (b : Buffer) : Buffer := b.append (indentation b.style.unit b.depth)

def appendEol (b : Buffer) : Buffer := b.append "\n"

/-- The text is empty or ends with a line feed. -/
def atLineStart (b : Buffer) : Bool :=
  match b.text.toList.getLast? with
  | none => true
  | some c => c == '\n'

def appendEolIfMissing (b : Buffer) : Buffer := if b.atLineStart then b else b.appendEol

def blank (b : Buffer) : Buffer := b.append "\n"

/-- An indented line; an empty one has no indentation. -/
def writeln (s : String) (b : Buffer) : Buffer :=
  if s.isEmpty then b.blank else (b.appendIndent.append s).appendEol

def enter (b : Buffer) : Buffer := { b with depth := b.depth + 1 }

/-- One level less; at level zero the depth stays. -/
def leave (b : Buffer) : Buffer := { b with depth := b.depth - 1 }

/-- Runs `body` one level deeper. -/
def indented (body : Buffer → Buffer) (b : Buffer) : Buffer := (body b.enter).leave

@[simp] theorem depth_append (s : String) (b : Buffer) : (b.append s).depth = b.depth := rfl

@[simp] theorem style_append (s : String) (b : Buffer) : (b.append s).style = b.style := rfl

@[simp] theorem text_append (s : String) (b : Buffer) : (b.append s).text = b.text ++ s := rfl

theorem text_appendIndent (b : Buffer) :
    b.appendIndent.text = b.text ++ indentation b.style.unit b.depth := rfl

theorem text_writeln {s : String} (h : s.isEmpty = false) (b : Buffer) :
    (b.writeln s).text = b.text ++ (indentation b.style.unit b.depth ++ s ++ "\n") := by
  simp [writeln, h, appendIndent, appendEol, String.append_assoc]

@[simp] theorem depth_writeln (s : String) (b : Buffer) : (b.writeln s).depth = b.depth := by
  unfold writeln; split <;> rfl

theorem depth_leave_enter (b : Buffer) : b.enter.leave = b := by
  cases b; simp [enter, leave]

end Buffer
end SwiftDecl
