import SwiftDecl.Data
import SwiftDecl.Number.Digits
import SwiftDecl.Text.Basic

/-!
# SwiftDecl.Json.Reader

Reading JSON text as data. The reader never fails: where the text stops being JSON, the tree says
so. Every step returns the text after what it read together with the proof that it is shorter.

A number is read as its leading digits, as many as fit into 64 bits, and a power of ten; a number
with a fraction or an exponent, or one that does not fit into 64 bits, is the nearest double of
the digits scaled by that power.
-/

namespace SwiftDecl
namespace Json

open Text (Rest rest?)

def isSpace (c : Char) : Bool := c == ' ' || c == '\n' || c == '\t' || c == '\r'

def skipSpace : List Char → List Char
  | [] => []
  | c :: cs => if isSpace c then skipSpace cs else c :: cs

theorem length_skipSpace_le (cs : List Char) : (skipSpace cs).length ≤ cs.length := by
  induction cs with
  | nil => exact Nat.le_refl _
  | cons c cs ih =>
    simp only [skipSpace]
    split
    · exact Nat.le_succ_of_le ih
    · exact Nat.le_refl _

theorem length_lt_of_skipSpace {cs rest : List Char} {c : Char} (h : skipSpace cs = c :: rest) :
    rest.length < cs.length := by
  have hle := length_skipSpace_le cs
  rw [h] at hle
  exact hle

def hex4 (a b c d : Char) : Option Nat := Number.readBase 16 [a, b, c, d]

/-- A piece of a string: a character as it stands, or the 16-bit unit of an escape. -/
inductive Piece where
  | char (c : Char)
  | unit (n : Nat)

def simpleEscape : Char → Option Char
  | '"' => some '"'
  | '\\' => some '\\'
  | '/' => some '/'
  | 'b' => some '\x08'
  | 'f' => some '\x0c'
  | 'n' => some '\n'
  | 'r' => some '\r'
  | 't' => some '\t'
  | _ => none

def isHighSurrogate (n : Nat) : Bool := decide (0xD800 ≤ n) && decide (n < 0xDC00)

def isLowSurrogate (n : Nat) : Bool := decide (0xDC00 ≤ n) && decide (n < 0xE000)

/-- The rest of a string after its opening quote: its pieces and the text after the closing
quote. -/
def stringPieces : List Char → Option (List Piece × List Char)
  | [] => none
  | '"' :: cs => some ([], cs)
  | '\\' :: 'u' :: a :: b :: c :: d :: cs =>
    match hex4 a b c d, stringPieces cs with
    | some n, some (ps, rest) => some (.unit n :: ps, rest)
    | _, _ => none
  | '\\' :: c :: cs =>
    match simpleEscape c, stringPieces cs with
    | some e, some (ps, rest) => some (.char e :: ps, rest)
    | _, _ => none
  | c :: cs =>
    if c.toNat < 0x20 then none
    else
      match stringPieces cs with
      | some (ps, rest) => some (.char c :: ps, rest)
      | none => none

theorem length_stringPieces_lt {cs rest : List Char} {ps : List Piece}
    (h : stringPieces cs = some (ps, rest)) : rest.length < cs.length := by
  fun_induction stringPieces cs generalizing ps rest <;> simp_all <;> grind

/-- The characters of a string. A pair of surrogate units is one character, a single one is
none. -/
def joinPieces : List Piece → Option (List Char)
  | [] => some []
  | .char c :: ps => (joinPieces ps).map (c :: ·)
  | .unit h :: .unit l :: ps =>
    if isHighSurrogate h && isLowSurrogate l then
      (joinPieces ps).map (Char.ofNat (0x10000 + (h - 0xD800) * 0x400 + (l - 0xDC00)) :: ·)
    else if isHighSurrogate h || isLowSurrogate h then none
    else (joinPieces (.unit l :: ps)).map (Char.ofNat h :: ·)
  | .unit n :: ps =>
    if isHighSurrogate n || isLowSurrogate n then none
    else (joinPieces ps).map (Char.ofNat n :: ·)

/-- Takes up digits as long as the number they form fits into 64 bits; returns the number and
how many digits were taken. -/
def takeDigits (n : Nat) (count : Nat) : List Char → Nat × Nat
  | [] => (n, count)
  | c :: cs =>
    let m := 10 * n + (c.toNat - '0'.toNat)
    if m < Number.words64 then takeDigits m (count + 1) cs else (n, count)

/-- `x * 10 ^ e` in steps of doubles; nothing if that is too large. -/
def scale (x : Binary64) (e : Int) : Option Binary64 :=
  if e < -308 then
    if x.isZero then some x else scale (x.dividedBy (Binary64.powerOfTen 308)) (e + 308)
  else if 308 < e then
    if x.isZero then some x else none
  else if 0 ≤ e then
    let y := x.times (Binary64.powerOfTen e.toNat)
    if y.isInfinite then none else some y
  else some (x.dividedBy (Binary64.powerOfTen (-e).toNat))
termination_by (-e).toNat
decreasing_by omega

def ofDouble (negative : Bool) (x : Option Binary64) : Data :=
  match x with
  | none => .unusable .doubleOverflow
  | some x => .double (if negative then x.negate else x)

/-- The number with the given digits before and after the point and the given exponent. -/
def numberValue (negative : Bool) (whole : List Char) (fraction : List Char) (exponent : Int)
    (isWhole : Bool) : Data :=
  let (n, taken) := takeDigits 0 0 whole
  let left := whole.length - taken
  if isWhole && left == 0 then
    if !negative then .integer n
    else if n = 0 ∨ Number.signed64 < n then ofDouble true (some (Binary64.ofNat n))
    else .integer (-n)
  else
    let (m, places) := takeDigits n 0 fraction
    ofDouble negative (scale (Binary64.ofNat m) (left - places + exponent))

/-- The exponent after its mark: an optional sign and at least one digit. -/
def exponent? (cs : List Char) : Option (Int × List Char) :=
  let (negative, ds) :=
    match cs with
    | '-' :: ds => (true, ds)
    | '+' :: ds => (false, ds)
    | ds => (false, ds)
  let digits := ds.takeWhile Char.isDigit
  if digits.isEmpty then none
  else
    let n : Int := Nat.ofDigitChars 10 digits 0
    some (if negative then -n else n, ds.dropWhile Char.isDigit)

/-- A number without its sign. A zero stands alone before the point. -/
def number? (negative : Bool) (cs : List Char) : Option (Data × List Char) :=
  let whole := cs.takeWhile Char.isDigit
  let rest := cs.dropWhile Char.isDigit
  if whole.isEmpty || (whole.head? == some '0' && whole.length != 1) then none
  else
    let fraction? : Option (List Char × Bool × List Char) :=
      match rest with
      | '.' :: ds =>
        let digits := ds.takeWhile Char.isDigit
        if digits.isEmpty then none else some (digits, false, ds.dropWhile Char.isDigit)
      | _ => some ([], true, rest)
    match fraction? with
    | none => none
    | some (fraction, isWhole, rest) =>
      let marked : Option (List Char) :=
        match rest with
        | 'e' :: ds => some ds
        | 'E' :: ds => some ds
        | _ => none
      match marked with
      | none => some (numberValue negative whole fraction 0 isWhole, rest)
      | some ds =>
        match exponent? ds with
        | none => none
        | some (e, rest) => some (numberValue negative whole fraction e false, rest)

/-! ## Values -/

/-- Containers may be nested in one another this often. -/
def depthLimit : Nat := 127

def fenced (depth : Nat) (d : Data) : Data := if depthLimit ≤ depth then .tooDeep d else d

/-- A scalar at the beginning of the text. -/
def scalar (cs : List Char) : Data × Option (Rest cs) :=
  match cs with
  | 'n' :: 'u' :: 'l' :: 'l' :: rest => (.null, rest? _ rest)
  | 't' :: 'r' :: 'u' :: 'e' :: rest => (.bool true, rest? _ rest)
  | 'f' :: 'a' :: 'l' :: 's' :: 'e' :: rest => (.bool false, rest? _ rest)
  | '"' :: r =>
    match stringPieces r with
    | none => (.malformed, none)
    | some (ps, rest) =>
      match joinPieces ps with
      | none => (.unusable .loneSurrogate, rest? _ rest)
      | some text => (.string (String.ofList text), rest? _ rest)
  | '-' :: r =>
    match number? true r with
    | none => (.malformed, none)
    | some (d, rest) => (d, rest? _ rest)
  | r =>
    match number? false r with
    | none => (.malformed, none)
    | some (d, rest) => (d, rest? _ rest)

/-- The key of a member, up to and with its colon. A key without a name has a single surrogate. -/
inductive Key (cs : List Char) where
  /-- There is no key. -/
  | none
  /-- There is a key without a colon. -/
  | alone (name : Option String)
  | before (name : Option String) (rest : Rest cs)

def key (cs : List Char) : Key cs :=
  match hq : skipSpace cs with
  | '"' :: r =>
    match hp : stringPieces r with
    | some (ps, rest) =>
      let name := (joinPieces ps).map String.ofList
      match hc : skipSpace rest with
      | ':' :: rest' =>
        .before name ⟨rest', by
          have := length_lt_of_skipSpace hq
          have := length_stringPieces_lt hp
          have := length_lt_of_skipSpace hc
          omega⟩
      | _ => .alone name
    | none => .none
  | _ => .none

def member (name : Option String) (d : Data) : String × Data :=
  match name with
  | some name => (name, d)
  | none => ("", .misnamed d)

/-- What follows an item of a container. -/
inductive Next (cs : List Char) where
  | closed (rest : Rest cs)
  | more (rest : Rest cs)
  | malformed

def next (close : Char) (cs : List Char) : Next cs :=
  match h : skipSpace cs with
  | [] => .malformed
  | c :: rest =>
    if c = close then .closed ⟨rest, length_lt_of_skipSpace h⟩
    else if c = ',' then .more ⟨rest, length_lt_of_skipSpace h⟩
    else .malformed

mutual
/-- A value, and the text after it unless the text is malformed within the value. -/
def value (depth : Nat) (cs : List Char) : Data × Option (Rest cs) :=
  match hs : skipSpace cs with
  | [] => (.malformed, none)
  | c :: r =>
    have := length_lt_of_skipSpace hs
    if c = '[' then
      match next ']' r with
      | .closed ⟨rest, h⟩ => (fenced depth (.array [] true), some ⟨rest, by omega⟩)
      | _ =>
        match items (depth + 1) r with
        | (ds, some ⟨rest, h⟩) => (fenced depth (.array ds true), some ⟨rest, by omega⟩)
        | (ds, none) => (fenced depth (.array ds false), none)
    else if c = '\x7b' then
      match next '\x7d' r with
      | .closed ⟨rest, h⟩ => (fenced depth (.table [] true), some ⟨rest, by omega⟩)
      | _ =>
        match members (depth + 1) r with
        | (ms, some ⟨rest, h⟩) => (fenced depth (.table ms true), some ⟨rest, by omega⟩)
        | (ms, none) => (fenced depth (.table ms false), none)
    else
      match scalar (c :: r) with
      | (d, some ⟨rest, h⟩) =>
        (d, some ⟨rest, by
          have := length_skipSpace_le cs
          rw [hs] at this
          omega⟩)
      | (d, none) => (d, none)
termination_by 2 * cs.length
decreasing_by all_goals omega

/-- One or more values between commas up to the closing bracket. -/
def items (depth : Nat) (cs : List Char) : List Data × Option (Rest cs) :=
  match value depth cs with
  | (d, none) => ([d], none)
  | (d, some ⟨rest, h⟩) =>
    match next ']' rest with
    | .malformed => ([d], none)
    | .closed ⟨rest, h'⟩ => ([d], some ⟨rest, by omega⟩)
    | .more ⟨rest, h'⟩ =>
      match items depth rest with
      | (ds, some ⟨rest, h''⟩) => (d :: ds, some ⟨rest, by omega⟩)
      | (ds, none) => (d :: ds, none)
termination_by 2 * cs.length + 1
decreasing_by all_goals omega

/-- One or more members between commas up to the closing brace. -/
def members (depth : Nat) (cs : List Char) : List (String × Data) × Option (Rest cs) :=
  match key cs with
  | .none => ([], none)
  | .alone name => ([member name .malformed], none)
  | .before name ⟨rest, h⟩ =>
    match value depth rest with
    | (d, none) => ([member name d], none)
    | (d, some ⟨rest, h₁⟩) =>
      match next '\x7d' rest with
      | .malformed => ([member name d], none)
      | .closed ⟨rest, h₂⟩ => ([member name d], some ⟨rest, by omega⟩)
      | .more ⟨rest, h₂⟩ =>
        match members depth rest with
        | (ms, some ⟨rest, h₃⟩) => (member name d :: ms, some ⟨rest, by omega⟩)
        | (ms, none) => (member name d :: ms, none)
termination_by 2 * cs.length
decreasing_by all_goals omega
end

/-- The data of a text, and whether nothing but blank space follows it. -/
def read (s : String) : Data × Bool :=
  match value 0 s.toList with
  | (d, none) => (d, true)
  | (d, some ⟨rest, _⟩) => (d, (skipSpace rest).isEmpty)

end Json
end SwiftDecl
