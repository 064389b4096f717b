import SwiftDecl.Proofs.TypeRef.RoundTrip

/-!
# SwiftDecl.Proofs.TypeRef.Void

The empty tuple has no text of its own: it is written as the name `Void`, and that name is what
is read again.

* `IsRead.parse_display_eq` — a type that was read is read from its own text, but for its empty
  tuples.
* `lenient_reading_stable` — so is the text that lenient reading and writing make of any text.
-/

namespace SwiftDecl
namespace TypeRef

mutual
/-- Puts the name `Void` in place of every empty tuple. -/
def nameVoid : TypeRef → TypeRef
  | .named s => .named s
  | .optional t => .optional (nameVoid t)
  | .array t => .array (nameVoid t)
  | .dictionary k v => .dictionary (nameVoid k) (nameVoid v)
  | .generic s ts => .generic s (nameVoidEach ts)
  | .tuple [] => .named "Void"
  | .tuple (t :: ts) => .tuple (nameVoid t :: nameVoidEach ts)

def nameVoidEach : List TypeRef → List TypeRef
  | [] => []
  | t :: ts => nameVoid t :: nameVoidEach ts
end

mutual
theorem display_nameVoid : ∀ t : TypeRef, display (nameVoid t) = display t
  | .named _ => rfl
  | .optional t => by rw [nameVoid, display, display, display_nameVoid t]
  | .array t => by rw [nameVoid, display, display, display_nameVoid t]
  | .dictionary k v => by rw [nameVoid, display, display, display_nameVoid k, display_nameVoid v]
  | .generic s ts => by rw [nameVoid, display, display, displayEach_nameVoidEach ts]
  | .tuple [] => rfl
  | .tuple (t :: ts) => by
    rw [nameVoid, display, display, display_nameVoid t, displayEach_nameVoidEach ts]

theorem displayEach_nameVoidEach :
    ∀ ts : List TypeRef, displayEach (nameVoidEach ts) = displayEach ts
  | [] => rfl
  | t :: ts => by
    rw [nameVoidEach, displayEach, displayEach, display_nameVoid t, displayEach_nameVoidEach ts]
end

mutual
theorem normalize_eq_nameVoid : ∀ t : TypeRef, allTuples (· ≠ 1) t = true →
    normalize t = nameVoid t
  | .named _, _ => rfl
  | .optional t, h => congrArg TypeRef.optional (normalize_eq_nameVoid t h)
  | .array t, h => congrArg TypeRef.array (normalize_eq_nameVoid t h)
  | .dictionary k v, h => by
    rw [allTuples, Bool.and_eq_true] at h
    rw [normalize, nameVoid, normalize_eq_nameVoid k h.1, normalize_eq_nameVoid v h.2]
  | .generic s ts, h => congrArg (TypeRef.generic s) (normalizeEach_eq_nameVoidEach ts h)
  | .tuple [], _ => rfl
  | .tuple [t], h => by simp [allTuples] at h
  | .tuple (t :: u :: ts), h => by
    rw [allTuples, Bool.and_eq_true] at h
    have hts := normalizeEach_eq_nameVoidEach (t :: u :: ts) h.2
    exact congrArg TypeRef.tuple hts

theorem normalizeEach_eq_nameVoidEach : ∀ ts : List TypeRef, allTuplesEach (· ≠ 1) ts = true →
    normalizeEach ts = nameVoidEach ts
  | [], _ => rfl
  | t :: ts, h => by
    rw [allTuplesEach, Bool.and_eq_true] at h
    rw [normalizeEach, nameVoidEach, normalize_eq_nameVoid t h.1,
      normalizeEach_eq_nameVoidEach ts h.2]
end

/-- What the parser can give. -/
def IsRead (t : TypeRef) : Prop := ∃ s, parse s = .ok t

theorem IsRead.parse_display_eq {t : TypeRef} (h : IsRead t) :
    parse (display t) = .ok (nameVoid t) := by
  obtain ⟨s, hs⟩ := h
  obtain ⟨hnamed, htuples⟩ := wellNamed_of_parse hs
  rw [TypeRef.parse_display_eq hnamed, normalize_eq_nameVoid t htuples]

/-! ## Lenient reading -/

/-- The text that is written for a type which was read leniently. -/
def canonical (s : String) : String := display (ofText s)

theorem ofText_of_ok {s : String} {t : TypeRef} (h : parse s = .ok t) : ofText s = t := by
  rw [ofText, h]

theorem ofText_of_error {s : String} {e : Fault} (h : parse s = .error e) :
    ofText s = .named s := by
  rw [ofText, h]

/-- A type is written as the text that it is read from again. -/
theorem parse_canonical {s : String} {t : TypeRef} (h : parse s = .ok t) :
    parse (canonical s) = .ok (nameVoid t) := by
  rw [canonical, ofText_of_ok h]
  exact IsRead.parse_display_eq ⟨s, h⟩

/-- What is no type is kept as it is. -/
theorem canonical_of_error {s : String} {e : Fault} (h : parse s = .error e) : canonical s = s := by
  rw [canonical, ofText_of_error h, display]

theorem ofText_canonical (s : String) : ofText (canonical s) = nameVoid (ofText s) := by
  cases h : parse s with
  | ok t => rw [ofText_of_ok (parse_canonical h), ofText_of_ok h]
  | error e => rw [canonical_of_error h, ofText_of_error h, nameVoid]

/-- Lenient reading settles at once. An accepted text is read as the type that it stands for. The
text that is written for what was read stands for the same type, but for its empty tuples, and it is
written again as it is. It is accepted exactly if the first text was, and a text that is not
accepted is not changed at all. -/
theorem lenient_reading_stable (s : String) :
    (∀ t, parse s = .ok t → ofText s = t) ∧
    canonical (canonical s) = canonical s ∧
    ((∃ t, parse (canonical s) = .ok t) ↔ ∃ t, parse s = .ok t) ∧
    ofText (canonical s) = nameVoid (ofText s) ∧
    (canonical s = s ∨ ∃ t, parse s = .ok t) := by
  refine ⟨fun t h => ofText_of_ok h, ?_, ?_, ofText_canonical s, ?_⟩
  · rw [canonical, ofText_canonical, display_nameVoid, canonical]
  · cases h : parse s with
    | ok t => simp [parse_canonical h]
    | error e => rw [canonical_of_error h, h]
  · cases h : parse s with
    | ok t => exact .inr ⟨t, rfl⟩
    | error e => exact .inl (canonical_of_error h)

example : canonical " [ (A) : () ]?" = "[A : Void]?" ∧ canonical " A..B C" = " A..B C" := by
  decide +kernel

end TypeRef
end SwiftDecl
