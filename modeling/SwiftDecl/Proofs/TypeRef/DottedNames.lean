import SwiftDecl.Proofs.Text.Pieces
import SwiftDecl.Proofs.TypeRef.RoundTrip

/-!
# SwiftDecl.Proofs.TypeRef.DottedNames

The names in a type that was read, and the dots in them. A reader of types takes a dot for a
character of a name like any other, whatever comes after it.

* `Derives.names_eq` — the names of a type are those among its tokens.
* `afterDots_iff_forall_tokens` — the dots of a text are the dots of these names, unless one stands
  by itself.
* `names_dotted_iff` — when every name of a type is a sequence of simple names between dots.
-/

namespace SwiftDecl
namespace TypeRef

open Text (Followed dropBlanks isBlank pieces)

mutual
/-- The names in a type, at any depth, in the order in which they are written. -/
def names : TypeRef → List String
  | .named s => [s]
  | .optional t => names t
  | .array t => names t
  | .dictionary k v => names k ++ names v
  | .generic s ts => s :: namesEach ts
  | .tuple ts => namesEach ts

def namesEach : List TypeRef → List String
  | [] => []
  | t :: ts => names t ++ namesEach ts
end

/-- Here begins a name. -/
def beginsName : List Char → Bool
  | [] => false
  | c :: _ => isNameStart c

/-- One simple name or several with a dot between each two. -/
def isDotted (n : String) : Bool := (pieces '.' n.toList).all beginsName

/-- A name begins after every dot. -/
def AfterDots (cs : List Char) : Prop := Followed '.' (beginsName · = true) cs

def Token.name? : Token → Option String
  | .mark _ => none
  | .name s => some s

@[simp] theorem Token.name?_mark (c : Char) : (Token.mark c).name? = none := rfl
@[simp] theorem Token.name?_name (s : String) : (Token.name s).name? = some s := rfl

def Phrase.names : Phrase → List String
  | .type t => t.names
  | .primary t => t.names
  | .items ts => namesEach ts

theorem Derives.names_eq {us : List Token} {p : Phrase} (h : Derives us p) :
    us.filterMap Token.name? = p.names := by
  induction h with
  | plain _ ih => exact ih
  | optional _ ih | array _ ih | parens _ ih | tuple _ ih | generic _ ih =>
    simpa [List.filterMap_cons, Phrase.names, TypeRef.names] using ih
  | dictionary _ _ ihk ihv =>
    simp only [Phrase.names] at ihk ihv
    simp [List.filterMap_cons, Phrase.names, TypeRef.names, ihk, ihv]
  | void | named => rfl
  | last _ ih => simpa [Phrase.names, namesEach] using ih
  | more _ _ ih ihs =>
    simp only [Phrase.names] at ih ihs
    simp [List.filterMap_cons, Phrase.names, namesEach, ih, ihs]

/-- No token of a type is a dot. -/
theorem Derives.dot_not_mem {us : List Token} {p : Phrase} (h : Derives us p) :
    .mark '.' ∉ us := by
  induction h with
  | plain _ ih => exact ih
  | optional _ ih | array _ ih | parens _ ih | tuple _ ih | generic _ ih | last _ ih => simp [ih]
  | dictionary _ _ ih₁ ih₂ | more _ _ ih₁ ih₂ => simp [ih₁, ih₂]
  | void => simp
  | named => simp

theorem mem_names_iff {s : String} {t : TypeRef} (h : parse s = .ok t) (n : String) :
    n ∈ names t ↔ .name n ∈ tokens s.toList := by
  have hnames : (tokens s.toList).filterMap Token.name? = names t :=
    (parse_eq_ok_iff_derives.1 h).names_eq
  rw [← hnames, List.mem_filterMap]
  constructor
  · rintro ⟨u, hu, hn⟩
    cases u with
    | mark c => cases hn
    | name m => cases hn; exact hu
  · intro hn
    exact ⟨_, hn, rfl⟩

theorem beginsName_append (xs : List Char) {ys : List Char} (h : beginsName ys = false) :
    beginsName (xs ++ ys) = beginsName xs := by
  cases xs with
  | nil => exact h
  | cons x xs => rfl

theorem looksUpTo_beginsName : Text.LooksUpTo '.' (beginsName · = true) := by
  intro xs ys
  have hdot : beginsName ('.' :: ys) = false := rfl
  simp only [beginsName_append xs hdot]

/-- After a name, which is as long as it can be, no other begins. -/
theorem beginsName_dropWhile (cs : List Char) : beginsName (cs.dropWhile isNamePart) = false := by
  have hhead := List.head?_dropWhile_not isNamePart cs
  cases hd : cs.dropWhile isNamePart with
  | nil => rfl
  | cons d ds =>
    rw [hd] at hhead
    exact isNameStart_eq_false hhead

theorem isDotted_iff {n : String} (h : isName n = true) :
    isDotted n = true ↔ AfterDots n.toList := by
  obtain ⟨c, cs, rfl, hc, _⟩ := isName_eq_true h
  have hbegins : beginsName (c :: cs) = true := hc
  rw [isDotted, List.all_eq_true, Text.forall_pieces_iff looksUpTo_beginsName,
    String.toList_ofList, and_iff_right hbegins, AfterDots]

theorem afterDots_append (xs : List Char) {ys : List Char} (h : beginsName ys = false) :
    AfterDots (xs ++ ys) ↔ AfterDots xs ∧ AfterDots ys := by
  simp only [AfterDots, Text.followed_append, beginsName_append _ h]

theorem afterDots_dropBlanks (cs : List Char) : AfterDots (dropBlanks cs) ↔ AfterDots cs := by
  have hdot : '.' ∉ cs.takeWhile isBlank := fun h => absurd (List.mem_takeWhile_imp h) (by decide)
  have hcut : cs.takeWhile isBlank ++ dropBlanks cs = cs := List.takeWhile_append_dropWhile
  conv_rhs => rw [AfterDots, ← hcut, Text.followed_append]
  exact (and_iff_right (Text.followed_of_not_mem hdot)).symm

theorem afterDots_iff_forall_tokens {cs : List Char} (h : .mark '.' ∉ tokens cs) :
    AfterDots cs ↔ ∀ n, .name n ∈ tokens cs → isDotted n = true := by
  -- The induction is on the tokens. A name among them ends where no other begins, so a dot in it
  -- is followed by a name in the whole text exactly if it is in the name alone.
  rw [← afterDots_dropBlanks]
  fun_induction tokens cs with
  | case1 cs hd => simp [hd, AfterDots, Text.followed_nil]
  | case2 cs c rest hd hc ih =>
    rw [List.mem_cons, not_or] at h
    have hcut : c :: rest = (c :: rest.takeWhile isNamePart) ++ rest.dropWhile isNamePart := by
      rw [List.cons_append, List.takeWhile_append_dropWhile]
    have hname : isName (String.ofList (c :: rest.takeWhile isNamePart)) = true := by
      rw [isName_cons, hc, Bool.true_and, List.all_takeWhile]
    have hdotted := isDotted_iff hname
    rw [String.toList_ofList] at hdotted
    rw [hd, hcut, afterDots_append _ (beginsName_dropWhile rest), ← hdotted,
      ← afterDots_dropBlanks (rest.dropWhile isNamePart), ih h.2]
    simp
  | case3 cs c rest hd hc ih =>
    rw [List.mem_cons, not_or] at h
    have hne : c ≠ '.' := by
      rintro rfl
      exact h.1 rfl
    rw [hd, AfterDots, Text.followed_cons, and_iff_right fun hdot => absurd hdot hne, ← AfterDots,
      ← afterDots_dropBlanks, ih h.2]
    simp

/-! ## The names of a type -/

/-- A type that was read has names that are spelled as names are. They are sequences of simple
names with a dot between each two exactly if in the text a name begins after every dot. -/
theorem names_dotted_iff (s : String) (t : TypeRef) (h : parse s = .ok t) :
    (∀ n ∈ names t, isName n = true) ∧
    ((∀ n ∈ names t, isDotted n = true) ↔ AfterDots s.toList) := by
  have hmem := mem_names_iff h
  have hdot := (parse_eq_ok_iff_derives.1 h).dot_not_mem
  refine ⟨fun n hn => isName_of_mem_tokens ((hmem n).1 hn), ?_⟩
  rw [afterDots_iff_forall_tokens hdot]
  exact forall_congr' fun n => by rw [hmem n]

theorem names_dotted_nested :
    parse "Map<A.b,[C]>" = .ok (.generic "Map" [.named "A.b", .array (.named "C")]) ∧
    names (.generic "Map" [.named "A.b", .array (.named "C")]) = ["Map", "A.b", "C"] ∧
    (∀ n ∈ ["Map", "A.b", "C"], isDotted n = true) ∧ AfterDots "Map<A.b,[C]>".toList := by
  have h : parse "Map<A.b,[C]>" = .ok (.generic "Map" [.named "A.b", .array (.named "C")]) := by
    decide +kernel
  have hdotted : ∀ n ∈ ["Map", "A.b", "C"], isDotted n = true := by decide +kernel
  exact ⟨h, rfl, hdotted, (names_dotted_iff _ _ h).2.1 hdotted⟩

/-- A doubled dot is read into the name, which then has nothing between the two. -/
theorem doubled_dot_read : parse "A..B" = .ok (.named "A..B") ∧
    pieces '.' "A..B".toList = [['A'], [], ['B']] ∧ isDotted "A..B" = false := by
  refine ⟨?_, ?_, ?_⟩ <;> decide +kernel

end TypeRef
end SwiftDecl
