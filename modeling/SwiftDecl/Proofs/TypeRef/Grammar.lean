import SwiftDecl.Proofs.TypeRef.Tokens

/-!
# SwiftDecl.Proofs.TypeRef.Grammar

The grammar of types over tokens, and what every derived sequence of tokens looks like.

* `Derives.unclosed_append` — brackets are closed in the order in which they were opened.
* `Derives.begins_answered` — a type starts with a name, a bracket or a parenthesis, and wherever
  a type has to follow there stands the start of one.
-/

namespace SwiftDecl
namespace TypeRef

/-- What a sequence of tokens can stand for. -/
inductive Phrase where
  | type (t : TypeRef)
  | primary (t : TypeRef)
  /-- One or more types between commas. -/
  | items (ts : List TypeRef)

inductive Derives : List Token → Phrase → Prop where
  | plain {us t} (h : Derives us (.primary t)) : Derives us (.type t)
  | optional {us t} (h : Derives us (.type t)) :
      Derives (us ++ [.mark '?']) (.type (.optional t))
  | array {us t} (h : Derives us (.type t)) :
      Derives (.mark '[' :: (us ++ [.mark ']'])) (.primary (.array t))
  | dictionary {us vs k v} (hk : Derives us (.type k)) (hv : Derives vs (.type v)) :
      Derives (.mark '[' :: (us ++ .mark ':' :: (vs ++ [.mark ']']))) (.primary (.dictionary k v))
  | void : Derives [.mark '(', .mark ')'] (.primary (.tuple []))
  | parens {us t} (h : Derives us (.type t)) :
      Derives (.mark '(' :: (us ++ [.mark ')'])) (.primary t)
  | tuple {us t u ts} (h : Derives us (.items (t :: u :: ts))) :
      Derives (.mark '(' :: (us ++ [.mark ')'])) (.primary (.tuple (t :: u :: ts)))
  | named {s} : Derives [.name s] (.primary (.named s))
  | generic {s us ts} (h : Derives us (.items ts)) :
      Derives (.name s :: .mark '<' :: (us ++ [.mark '>'])) (.primary (.generic s ts))
  | last {us t} (h : Derives us (.type t)) : Derives us (.items [t])
  | more {us vs t ts} (h : Derives us (.type t)) (hs : Derives vs (.items ts)) :
      Derives (us ++ .mark ',' :: vs) (.items (t :: ts))

/-- The mark that ends what this one begins. -/
def closer : Char → Option Char
  | '[' => some ']'
  | '(' => some ')'
  | '<' => some '>'
  | _ => none

def isCloser (c : Char) : Bool := c == ']' || c == ')' || c == '>'

/-- The closing marks still to come after the tokens, innermost first, if before them those of
`st` are to come. There is none if a closing mark is met that is not the next to come. -/
def unclosed (st : List Char) : List Token → Option (List Char)
  | [] => some st
  | .name _ :: us => unclosed st us
  | .mark c :: us =>
    match closer c with
    | some d => unclosed (d :: st) us
    | none =>
      if isCloser c then
        match st with
        | [] => none
        | d :: st => if c = d then unclosed st us else none
      else unclosed st us

theorem Derives.unclosed_append {us : List Token} {p : Phrase} (h : Derives us p) :
    ∀ st vs, unclosed st (us ++ vs) = unclosed st vs := by
  induction h with
  | plain _ ih => exact ih
  | optional _ ih =>
    intro st vs
    rw [List.append_assoc, ih]
    rfl
  | array _ ih =>
    intro st vs
    rw [List.cons_append, List.append_assoc]
    exact ih (']' :: st) _
  | dictionary _ _ ihk ihv =>
    intro st vs
    rw [List.cons_append, List.append_assoc, List.cons_append, List.append_assoc]
    exact (ihk (']' :: st) _).trans (ihv (']' :: st) _)
  | void => intro st vs; rfl
  | parens _ ih | tuple _ ih =>
    intro st vs
    rw [List.cons_append, List.append_assoc]
    exact ih (')' :: st) _
  | named => intro st vs; rfl
  | generic _ ih =>
    intro st vs
    rw [List.cons_append, List.cons_append, List.append_assoc]
    exact ih ('>' :: st) _
  | last _ ih => exact ih
  | more _ _ ih ihs =>
    intro st vs
    rw [List.append_assoc, ih]
    exact ihs st vs

/-! ## Neighbours -/

/-- A type can start with this token. -/
def Token.starts : Token → Bool
  | .name _ => true
  | .mark c => c == '[' || c == '('

/-- After this token there must stand a type. -/
def Token.asks : Token → Bool
  | .name _ => false
  | .mark c => c == '[' || c == '<' || c == ',' || c == ':'

def begins : List Token → Bool
  | [] => false
  | u :: _ => u.starts

/-- Each token that asks for a type is followed by one that can start it. -/
def answered : List Token → Bool
  | [] => true
  | u :: us => (!u.asks || begins us) && answered us

theorem begins_append {us : List Token} (vs : List Token) (h : begins us = true) :
    begins (us ++ vs) = true := by
  cases us with
  | nil => cases h
  | cons u us => exact h

theorem answered_append {us vs : List Token} (hu : answered us = true) (hv : answered vs = true) :
    answered (us ++ vs) = true := by
  induction us with
  | nil => exact hv
  | cons u us ih =>
    simp only [answered, Bool.and_eq_true, Bool.or_eq_true] at hu
    simp only [List.cons_append, answered, Bool.and_eq_true, Bool.or_eq_true]
    exact ⟨hu.1.imp_right (begins_append vs), ih hu.2⟩

theorem answered_asks {u : Token} {us : List Token} (hb : begins us = true)
    (h : answered us = true) : answered (u :: us) = true := by
  simp [answered, hb, h]

theorem begins_of_answered {us vs : List Token} {u : Token}
    (h : answered (us ++ u :: vs) = true) (hu : u.asks = true) : begins vs = true := by
  induction us with
  | nil =>
    simp only [List.nil_append, answered, hu, Bool.not_true, Bool.false_or, Bool.and_eq_true] at h
    exact h.1
  | cons w us ih =>
    simp only [List.cons_append, answered, Bool.and_eq_true] at h
    exact ih h.2

theorem Derives.begins_answered {us : List Token} {p : Phrase} (h : Derives us p) :
    begins us = true ∧ answered us = true := by
  induction h with
  | plain _ ih => exact ih
  | optional _ ih => exact ⟨begins_append _ ih.1, answered_append ih.2 rfl⟩
  | array _ ih => exact ⟨rfl, answered_asks (begins_append _ ih.1) (answered_append ih.2 rfl)⟩
  | dictionary _ _ ihk ihv =>
    have hv := answered_asks (u := .mark ':') (begins_append [.mark ']'] ihv.1)
      (answered_append ihv.2 rfl)
    exact ⟨rfl, answered_asks (begins_append _ ihk.1) (answered_append ihk.2 hv)⟩
  | void => exact ⟨rfl, rfl⟩
  | parens _ ih | tuple _ ih =>
    exact ⟨rfl, @answered_append [_] _ rfl (answered_append ih.2 rfl)⟩
  | named => exact ⟨rfl, rfl⟩
  | generic _ ih =>
    have ha := answered_asks (u := .mark '<') (begins_append [.mark '>'] ih.1)
      (answered_append ih.2 rfl)
    exact ⟨rfl, @answered_append [_] _ rfl ha⟩
  | last _ ih => exact ih
  | more _ _ ih ihs =>
    exact ⟨begins_append _ ih.1, answered_append ih.2 (answered_asks ihs.1 ihs.2)⟩

end TypeRef
end SwiftDecl
