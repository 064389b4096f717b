import SwiftDecl.Text.Basic

/-!
# SwiftDecl.TypeRef.Basic

References to Swift types and their text. A name is kept as it was written, dots and backticks
included. The empty tuple is written `Void`.
-/

namespace SwiftDecl

inductive TypeRef where
  | named (name : String)
  | optional (wrapped : TypeRef)
  | array (element : TypeRef)
  | dictionary (key value : TypeRef)
  | generic (name : String) (arguments : List TypeRef)
  | tuple (elements : List TypeRef)
  deriving Inhabited

namespace TypeRef

def isOptional : TypeRef → Bool
  | .optional _ => true
  | _ => false

mutual
def display : TypeRef → String
  | .named name => name
  | .optional t => display t ++ "?"
  | .array t => "[" ++ display t ++ "]"
  | .dictionary k v => "[" ++ display k ++ " : " ++ display v ++ "]"
  | .generic name args => name ++ "<" ++ Text.separated ", " (displayEach args) ++ ">"
  | .tuple [] => "Void"
  | .tuple (t :: ts) => "(" ++ Text.separated ", " (display t :: displayEach ts) ++ ")"

def displayEach : List TypeRef → List String
  | [] => []
  | t :: ts => display t :: displayEach ts
end

mutual
def beq : TypeRef → TypeRef → Bool
  | .named a, .named b => a == b
  | .optional a, .optional b => beq a b
  | .array a, .array b => beq a b
  | .dictionary k v, .dictionary k' v' => beq k k' && beq v v'
  | .generic a as, .generic b bs => a == b && beqEach as bs
  | .tuple as, .tuple bs => beqEach as bs
  | _, _ => false

def beqEach : List TypeRef → List TypeRef → Bool
  | [], [] => true
  | a :: as, b :: bs => beq a b && beqEach as bs
  | _, _ => false
end

instance : BEq TypeRef := ⟨beq⟩

mutual
theorem eq_of_beq : ∀ {a b : TypeRef}, beq a b = true → a = b
  | .named _, .named _, h => by simp_all [beq]
  | .optional _, .optional _, h => by simp only [beq] at h; rw [eq_of_beq h]
  | .array _, .array _, h => by simp only [beq] at h; rw [eq_of_beq h]
  | .dictionary _ _, .dictionary _ _, h => by
    simp only [beq, Bool.and_eq_true] at h; rw [eq_of_beq h.1, eq_of_beq h.2]
  | .generic _ _, .generic _ _, h => by
    simp only [beq, Bool.and_eq_true, beq_iff_eq] at h; rw [h.1, eq_of_beqEach h.2]
  | .tuple _, .tuple _, h => by simp only [beq] at h; rw [eq_of_beqEach h]
  | .named _, .optional _, h | .named _, .array _, h | .named _, .dictionary _ _, h
  | .named _, .generic _ _, h | .named _, .tuple _, h
  | .optional _, .named _, h | .optional _, .array _, h | .optional _, .dictionary _ _, h
  | .optional _, .generic _ _, h | .optional _, .tuple _, h
  | .array _, .named _, h | .array _, .optional _, h | .array _, .dictionary _ _, h
  | .array _, .generic _ _, h | .array _, .tuple _, h
  | .dictionary _ _, .named _, h | .dictionary _ _, .optional _, h | .dictionary _ _, .array _, h
  | .dictionary _ _, .generic _ _, h | .dictionary _ _, .tuple _, h
  | .generic _ _, .named _, h | .generic _ _, .optional _, h | .generic _ _, .array _, h
  | .generic _ _, .dictionary _ _, h | .generic _ _, .tuple _, h
  | .tuple _, .named _, h | .tuple _, .optional _, h | .tuple _, .array _, h
  | .tuple _, .dictionary _ _, h | .tuple _, .generic _ _, h => by simp [beq] at h

theorem eq_of_beqEach : ∀ {as bs : List TypeRef}, beqEach as bs = true → as = bs
  | [], [], _ => rfl
  | _ :: _, _ :: _, h => by
    simp only [beqEach, Bool.and_eq_true] at h; rw [eq_of_beq h.1, eq_of_beqEach h.2]
  | [], _ :: _, h | _ :: _, [], h => by simp [beqEach] at h
end

mutual
theorem beq_self : ∀ a : TypeRef, beq a a = true
  | .named _ => by simp [beq]
  | .optional a | .array a => by simp [beq, beq_self a]
  | .dictionary k v => by simp [beq, beq_self k, beq_self v]
  | .generic _ as | .tuple as => by simp [beq, beqEach_self as]

theorem beqEach_self : ∀ as : List TypeRef, beqEach as as = true
  | [] => rfl
  | a :: as => by simp [beqEach, beq_self a, beqEach_self as]
end

instance : LawfulBEq TypeRef where
  eq_of_beq := eq_of_beq
  rfl := beq_self _

instance : DecidableEq TypeRef := fun a b =>
  if h : a == b then isTrue (eq_of_beq h) else isFalse fun e => h (e ▸ beq_self a)

end TypeRef
end SwiftDecl
