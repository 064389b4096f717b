import SwiftDecl.Proofs.Emit.Outline

/-!
# SwiftDecl.Proofs.Emit.Visibility

Where the keyword `public` stands in the text of an extension. The header of the extension drops
it as soon as there are conformances, its members drop theirs as soon as the extension is public.

* `carriesPublic_signature`, `carriesPublic_typeHeader`, `carriesPublic_extensionHeader` — which
  first lines carry the keyword.
* `Member.writes` — the lines of a member, its first line among them.
-/

namespace SwiftDecl
namespace Emit

open Line (flat blank deeper)

/-- The keyword is the first word of the line. -/
def carriesPublic (l : String) : Bool := "public ".toList.isPrefixOf l.toList

/-- The line that a block starts with. -/
def firstLine (header : String) (cs : List GenericConstraint) : String :=
  if cs.isEmpty then header ++ " \x7b" else header

theorem openBlockLines_eq (s : Style) (header : String) (cs : List GenericConstraint) :
    ∃ rest, openBlockLines s header cs = ⟨0, firstLine header cs⟩ :: rest := by
  unfold openBlockLines firstLine
  split
  · exact ⟨[], rfl⟩
  · exact ⟨deeper (flat [s.whereClause cs]) ++ flat ["\x7b"], rfl⟩

/-- The keyword stands first if it is there; what follows does not start like it. -/
theorem carriesPublic_word (present : Bool) {rest : String}
    (h : rest.toList.head? ≠ some 'p') :
    carriesPublic (Style.word present "public " ++ rest) = present := by
  cases present with
  | true => simp [carriesPublic, Style.word]
  | false =>
    cases hr : rest.toList with
    | nil => simp [carriesPublic, Style.word, hr]
    | cons c cs =>
      rw [hr] at h
      have hc : 'p' ≠ c := fun hc => h (hc ▸ rfl)
      simp [carriesPublic, Style.word, hr, List.isPrefixOf, hc]

theorem carriesPublic_signature (s : Style) (f : FunctionDecl) (omitPublic isStatic : Bool)
    (cs : List GenericConstraint) :
    carriesPublic (firstLine (s.signature f omitPublic isStatic) cs) =
      (f.isPublic && !omitPublic) := by
  unfold firstLine
  split
  · simp only [Style.signature, String.append_assoc]
    exact carriesPublic_word _ (by cases isStatic <;> simp [Style.word])
  · simp only [Style.signature, String.append_assoc]
    exact carriesPublic_word _ (by cases isStatic <;> simp [Style.word])

theorem carriesPublic_typeHeader (s : Style) (d : TypeDecl) (omitPublic : Bool) :
    carriesPublic (firstLine (s.typeHeader d omitPublic) []) = (d.isPublic && !omitPublic) := by
  simp only [firstLine, List.isEmpty_nil, if_true, Style.typeHeader, String.append_assoc]
  exact carriesPublic_word _ (by cases d.kind <;> simp [TypeKind.keyword])

theorem carriesPublic_extensionHeader (s : Style) (e : Extension) :
    carriesPublic (firstLine (s.extensionHeader e) e.constraints) =
      (e.isPublic && e.conformances.isEmpty) := by
  unfold firstLine
  split
  · simp only [Style.extensionHeader, String.append_assoc]
    exact carriesPublic_word _ (by simp)
  · simp only [Style.extensionHeader, String.append_assoc]
    exact carriesPublic_word _ (by simp)

/-! ## Members of an extension -/

/-- A member that leaves out its `public` in a public extension. Static variables never do. -/
inductive Member where
  | type (d : TypeDecl)
  | typeFunction (f : FunctionDecl)
  | function (f : FunctionDecl)

def membersOf (e : Extension) : List Member :=
  e.typeDecls.map .type ++ e.typeFunctions.map .typeFunction ++ e.functions.map .function

namespace Member

def isPublic : Member → Bool
  | .type d => d.isPublic
  | .typeFunction f => f.isPublic
  | .function f => f.isPublic

def write (s : Style) (omitPublic : Bool) : Member → Buffer → Buffer
  | .type d => typeDecl s d omitPublic
  | .typeFunction f => Emit.function s f omitPublic true
  | .function f => Emit.function s f omitPublic false

/-- The line with the name of the member, which is the first line of its block. -/
def header (s : Style) (omitPublic : Bool) : Member → String
  | .type d => firstLine (s.typeHeader d omitPublic) []
  | .typeFunction f => firstLine (s.signature f omitPublic true) f.constraints
  | .function f => firstLine (s.signature f omitPublic false) f.constraints

def attributeLines (f : FunctionDecl) : List Line :=
  commentLines f.comment ++
  (if f.isInlinable then flat ["@inlinable"] else []) ++
  (if f.hasDiscardableResult then flat ["@discardableResult"] else [])

/-- Comments and attributes. -/
def above : Member → List Line
  | .type d => commentLines d.comment
  | .typeFunction f => attributeLines f
  | .function f => attributeLines f

theorem carriesPublic_header (s : Style) (omitPublic : Bool) (m : Member) :
    carriesPublic (m.header s omitPublic) = (m.isPublic && !omitPublic) := by
  cases m with
  | type d => exact carriesPublic_typeHeader s d omitPublic
  | typeFunction f => exact carriesPublic_signature s f omitPublic true f.constraints
  | function f => exact carriesPublic_signature s f omitPublic false f.constraints

theorem block_append (ls rest body close : List Line) (l : Line) :
    ls ++ l :: rest ++ body ++ close = ls ++ l :: (rest ++ body ++ close) := by
  simp

theorem functionLines_eq (s : Style) (f : FunctionDecl) (omitPublic isStatic : Bool) :
    ∃ below, functionLines s f omitPublic isStatic = attributeLines f ++
      ⟨0, firstLine (s.signature f omitPublic isStatic) f.constraints⟩ :: below := by
  obtain ⟨rest, h⟩ := openBlockLines_eq s (s.signature f omitPublic isStatic) f.constraints
  rw [functionLines, h]
  exact ⟨_, block_append (attributeLines f) rest _ _ _⟩

theorem typeDeclLines_eq (s : Style) (d : TypeDecl) (omitPublic : Bool) :
    ∃ below, typeDeclLines s d omitPublic =
      commentLines d.comment ++ ⟨0, firstLine (s.typeHeader d omitPublic) []⟩ :: below := by
  obtain ⟨rest, h⟩ := openBlockLines_eq s (s.typeHeader d omitPublic) []
  cases d with
  | mk =>
    rw [typeDeclLines, h]
    exact ⟨_, block_append _ rest _ _ _⟩

def lines (s : Style) (omitPublic : Bool) : Member → List Line
  | .type d => typeDeclLines s d omitPublic
  | .typeFunction f => functionLines s f omitPublic true
  | .function f => functionLines s f omitPublic false

theorem writes (s : Style) (omitPublic : Bool) (m : Member) :
    Writes (m.write s omitPublic) (m.lines s omitPublic) := by
  cases m with
  | type d => exact writes_typeDecl s d omitPublic
  | typeFunction f => exact writes_function s f omitPublic true
  | function f => exact writes_function s f omitPublic false

/-- A member has comments and attributes, then its header, then the rest. -/
theorem lines_eq (s : Style) (omitPublic : Bool) (m : Member) :
    ∃ below, m.lines s omitPublic = m.above ++ ⟨0, m.header s omitPublic⟩ :: below := by
  cases m with
  | type d => exact typeDeclLines_eq s d omitPublic
  | typeFunction f => exact functionLines_eq s f omitPublic true
  | function f => exact functionLines_eq s f omitPublic false

end Member

theorem flatMap_of_mem {α : Type} {x : α} {xs : List α} (f : α → List Line) (h : x ∈ xs) :
    ∃ ls ms, xs.flatMap f = ls ++ f x ++ ms := by
  obtain ⟨as, bs, rfl⟩ := List.append_of_mem h
  exact ⟨as.flatMap f, bs.flatMap f, by simp⟩

/-- The lines of a member are among those of its extension. -/
theorem memberLines_of_mem (s : Style) {e : Extension} {m : Member} (h : m ∈ membersOf e) :
    ∃ ls ms, memberLines s e = ls ++ m.lines s e.isPublic ++ ms := by
  simp only [membersOf, List.mem_append, List.mem_map] at h
  rcases h with (⟨d, hd, rfl⟩ | ⟨f, hf, rfl⟩) | ⟨f, hf, rfl⟩
  · obtain ⟨ls, ms, h⟩ :=
      flatMap_of_mem (fun d => blank :: typeDeclLines s d e.isPublic) hd
    exact ⟨ls ++ [blank], _, by
      rw [memberLines, typeDeclsLines, h]; simp only [List.append_assoc]; rfl⟩
  · obtain ⟨ls, ms, h⟩ :=
      flatMap_of_mem (fun f => blank :: functionLines s f e.isPublic true) hf
    refine ⟨typeDeclsLines s e.typeDecls e.isPublic ++ variableGroupLines s e.typeVariables true ++
      ls ++ [blank], _, by
      rw [memberLines, functionsLines, h]; simp only [List.append_assoc]; rfl⟩
  · obtain ⟨ls, ms, h⟩ :=
      flatMap_of_mem (fun f => blank :: functionLines s f e.isPublic false) hf
    refine ⟨typeDeclsLines s e.typeDecls e.isPublic ++ variableGroupLines s e.typeVariables true ++
      functionsLines s e.typeFunctions e.isPublic true ++ ls ++ [blank], _, by
      rw [memberLines, functionsLines, functionsLines, h]; simp only [List.append_assoc]; rfl⟩

/-- An extension has its gates, then its header, then its members one level deeper. -/
theorem extensionLines_of_mem (s : Style) {e : Extension} {m : Member} (h : m ∈ membersOf e) :
    ∃ between after, extensionLines s e =
      openGateLines e ++ ⟨0, firstLine (s.extensionHeader e) e.constraints⟩ ::
        (between ++ deeper (m.lines s e.isPublic) ++ after) := by
  obtain ⟨ls, ms, hm⟩ := memberLines_of_mem s h
  obtain ⟨rest, ho⟩ := openBlockLines_eq s (s.extensionHeader e) e.constraints
  refine ⟨rest ++ deeper ls, deeper ms ++ flat ["\x7d"] ++ closeGateLines e, ?_⟩
  simp only [extensionLines, ho, hm, deeper, List.map_append, List.append_assoc, List.cons_append]

/-- In the text of an extension a public member stands under the keyword, its own or that of the
header, exactly if the extension is not public or has no conformances. -/
theorem public_member_visible_iff (s : Style) (e : Extension) (m : Member) (b : Buffer)
    (he : ∀ v, e.minimumVersion = some v → 5 ≤ v.major) (hm : m ∈ membersOf e)
    (hp : m.isPublic = true) :
    ∃ between below after,
      Writes (m.write s e.isPublic) (m.above ++ ⟨0, m.header s e.isPublic⟩ :: below) ∧
      extension s e b = .ok (b.appendEolIfMissing.append (Line.renderAll b.style.unit b.depth
        (openGateLines e ++ ⟨0, firstLine (s.extensionHeader e) e.constraints⟩ ::
          (between ++ deeper (m.above ++ ⟨0, m.header s e.isPublic⟩ :: below) ++ after)))) ∧
      (carriesPublic (m.header s e.isPublic) = true ∨
        carriesPublic (firstLine (s.extensionHeader e) e.constraints) = true ↔
        (e.isPublic = true → e.conformances = [])) := by
  obtain ⟨between, after, hlines⟩ := extensionLines_of_mem s hm
  obtain ⟨below, hbelow⟩ := m.lines_eq s e.isPublic
  have hw := m.writes s e.isPublic
  rw [hbelow] at hlines hw
  refine ⟨between, below, after, hw, ?_, ?_⟩
  · have hstyle : b.appendEolIfMissing.style = b.style ∧
        b.appendEolIfMissing.depth = b.depth := by
      unfold Buffer.appendEolIfMissing
      split <;> exact ⟨rfl, rfl⟩
    rw [extension_eq s b he, writes_gatedExtension s e, hstyle.1, hstyle.2, hlines]
  · rw [m.carriesPublic_header, carriesPublic_extensionHeader, hp]
    cases e.isPublic <;> simp

theorem public_member_visible_plain :
    carriesPublic (firstLine (({} : Style).extensionHeader
      { extendedType := .named "A", isPublic := true,
        functions := [{ name := "f", isPublic := true }] }) []) = true := by
  obtain ⟨_, _, _, -, -, h⟩ := public_member_visible_iff {}
    { extendedType := .named "A", isPublic := true,
      functions := [{ name := "f", isPublic := true }] }
    (.function { name := "f", isPublic := true }) (Buffer.new .swift) (by simp)
    (by simp [membersOf]) rfl
  rcases h.2 (fun _ => rfl) with h | h
  · rw [Member.carriesPublic_header] at h
    cases h
  · exact h

/-- A public function that is not visible outside the module: the conformance takes the keyword
from the header, the public extension takes it from the function. -/
theorem public_function_hidden :
    (extension {}
      { extendedType := .named "A", isPublic := true, conformances := [.named "B"],
        functions := [{ name := "f", isPublic := true }] }
      (Buffer.new .swift)).toOption =
      some ⟨.swift, 0, "extension A : B \x7b\n\n  func f() \x7b\n  \x7d\n\x7d\n"⟩ := by
  decide +kernel

end Emit
end SwiftDecl
