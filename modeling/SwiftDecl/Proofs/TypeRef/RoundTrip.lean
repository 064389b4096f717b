import SwiftDecl.Proofs.TypeRef.Recognition

/-!
# SwiftDecl.Proofs.TypeRef.RoundTrip

Reading the text of a type gives the type back, but for tuples that have no syntax of their own:
the empty tuple is written as a name, a tuple of one element as that element in parentheses.

* `derives_display` — the tokens of a type's text derive the normalized type.
* `normalize_eq_self_iff` — what normalizing leaves alone.
* `wellNamed_of_parse` — what is read has proper names and no tuple of one element.
-/

namespace SwiftDecl
namespace TypeRef

mutual
/-- Writes `Void` for the empty tuple and the element for a tuple of one. -/
def normalize : TypeRef → TypeRef
  | .named s => .named s
  | .optional t => .optional (normalize t)
  | .array t => .array (normalize t)
  | .dictionary k v => .dictionary (normalize k) (normalize v)
  | .generic s ts => .generic s (normalizeEach ts)
  | .tuple [] => .named "Void"
  | .tuple [t] => normalize t
  | .tuple (t :: u :: ts) => .tuple (normalize t :: normalize u :: normalizeEach ts)

def normalizeEach : List TypeRef → List TypeRef
  | [] => []
  | t :: ts => normalize t :: normalizeEach ts
end

mutual
/-- Every name is spelled as a name, and every generic type has arguments. -/
def wellNamed : TypeRef → Bool
  | .named s => isName s
  | .optional t => wellNamed t
  | .array t => wellNamed t
  | .dictionary k v => wellNamed k && wellNamed v
  | .generic s ts => isName s && !ts.isEmpty && wellNamedEach ts
  | .tuple ts => wellNamedEach ts

def wellNamedEach : List TypeRef → Bool
  | [] => true
  | t :: ts => wellNamed t && wellNamedEach ts
end

mutual
/-- Every tuple has a number of elements that `p` allows. -/
def allTuples (p : Nat → Bool) : TypeRef → Bool
  | .named _ => true
  | .optional t => allTuples p t
  | .array t => allTuples p t
  | .dictionary k v => allTuples p k && allTuples p v
  | .generic _ ts => allTuplesEach p ts
  | .tuple ts => p ts.length && allTuplesEach p ts

def allTuplesEach (p : Nat → Bool) : List TypeRef → Bool
  | [] => true
  | t :: ts => allTuples p t && allTuplesEach p ts
end

theorem wellNamedEach_eq_all (ts : List TypeRef) : wellNamedEach ts = ts.all wellNamed := by
  induction ts with
  | nil => rfl
  | cons t ts ih => rw [wellNamedEach, ih, List.all_cons]

theorem allTuplesEach_eq_all (p : Nat → Bool) (ts : List TypeRef) :
    allTuplesEach p ts = ts.all (allTuples p) := by
  induction ts with
  | nil => rfl
  | cons t ts ih => rw [allTuplesEach, ih, List.all_cons]

mutual
theorem allTuples_normalize : ∀ t : TypeRef, allTuples (2 ≤ ·) (normalize t) = true
  | .named _ => rfl
  | .optional t => allTuples_normalize t
  | .array t => allTuples_normalize t
  | .dictionary k v => by
    simp only [normalize, allTuples, allTuples_normalize k, allTuples_normalize v, Bool.and_self]
  | .generic _ ts => allTuplesEach_normalizeEach ts
  | .tuple [] => rfl
  | .tuple [t] => allTuples_normalize t
  | .tuple (t :: u :: ts) => by
    simp [normalize, allTuples, allTuplesEach, allTuples_normalize t, allTuples_normalize u,
      allTuplesEach_normalizeEach ts]

theorem allTuplesEach_normalizeEach :
    ∀ ts : List TypeRef, allTuplesEach (2 ≤ ·) (normalizeEach ts) = true
  | [] => rfl
  | t :: ts => by
    simp only [normalizeEach, allTuplesEach, allTuples_normalize t, allTuplesEach_normalizeEach ts,
      Bool.and_self]
end

mutual
theorem normalize_of_allTuples : ∀ t : TypeRef, allTuples (2 ≤ ·) t = true → normalize t = t
  | .named _, _ => rfl
  | .optional t, h => congrArg TypeRef.optional (normalize_of_allTuples t h)
  | .array t, h => congrArg TypeRef.array (normalize_of_allTuples t h)
  | .dictionary k v, h => by
    simp only [allTuples, Bool.and_eq_true] at h
    rw [normalize, normalize_of_allTuples k h.1, normalize_of_allTuples v h.2]
  | .generic s ts, h => congrArg (TypeRef.generic s) (normalizeEach_of_allTuples ts h)
  | .tuple [], h => by simp [allTuples] at h
  | .tuple [t], h => by simp [allTuples] at h
  | .tuple (t :: u :: ts), h => by
    simp only [allTuples, allTuplesEach, Bool.and_eq_true] at h
    obtain ⟨_, ht, hu, hts⟩ := h
    rw [normalize, normalize_of_allTuples t ht, normalize_of_allTuples u hu,
      normalizeEach_of_allTuples ts hts]

theorem normalizeEach_of_allTuples :
    ∀ ts : List TypeRef, allTuplesEach (2 ≤ ·) ts = true → normalizeEach ts = ts
  | [], _ => rfl
  | t :: ts, h => by
    simp only [allTuplesEach, Bool.and_eq_true] at h
    rw [normalizeEach, normalize_of_allTuples t h.1, normalizeEach_of_allTuples ts h.2]
end

theorem normalize_eq_self_iff (t : TypeRef) : normalize t = t ↔ allTuples (2 ≤ ·) t = true :=
  ⟨fun h => h ▸ allTuples_normalize t, normalize_of_allTuples t⟩

theorem toList_optional (t : TypeRef) :
    (display (.optional t)).toList = (display t).toList ++ ['?'] := by
  simp [display]

theorem toList_array (t : TypeRef) :
    (display (.array t)).toList = '[' :: ((display t).toList ++ [']']) := by
  simp [display]

theorem toList_dictionary (k v : TypeRef) : (display (.dictionary k v)).toList =
    '[' :: ((display k).toList ++ ' ' :: ':' :: ' ' :: ((display v).toList ++ [']'])) := by
  simp [display]

/-- The text of types between commas. -/
def displayItems (ts : List TypeRef) : List Char := (Text.separated ", " (displayEach ts)).toList

theorem displayItems_cons (t u : TypeRef) (ts : List TypeRef) : displayItems (t :: u :: ts) =
    (display t).toList ++ ',' :: ' ' :: displayItems (u :: ts) := by
  simp [displayItems, displayEach, Text.separated]

theorem toList_generic (s : String) (ts : List TypeRef) :
    (display (.generic s ts)).toList = s.toList ++ '<' :: (displayItems ts ++ ['>']) := by
  simp [display, displayItems]

theorem toList_tuple (t : TypeRef) (ts : List TypeRef) :
    (display (.tuple (t :: ts))).toList = '(' :: (displayItems (t :: ts) ++ [')']) := by
  simp [display, displayItems, displayEach]

theorem tokens_concat {m : Char} (cs : List Char) (hm : isNamePart m = false)
    (hb : Text.isBlank m = false) : tokens (cs ++ [m]) = tokens cs ++ [.mark m] := by
  rw [tokens_append_mark cs [] hm hb, tokens_nil]

mutual
theorem derives_display : ∀ t : TypeRef, wellNamed t = true →
    Derives (tokens (display t).toList) (.type (normalize t))
  | .named s, h => by
    rw [display, tokens_isName h]
    exact .plain .named
  | .optional t, h => by
    rw [toList_optional, tokens_concat _ (by decide) (by decide)]
    exact .optional (derives_display t h)
  | .array t, h => by
    rw [toList_array, tokens_mark (by decide) (by decide), tokens_concat _ (by decide) (by decide)]
    exact .plain (.array (derives_display t h))
  | .dictionary k v, h => by
    simp only [wellNamed, Bool.and_eq_true] at h
    have hk := derives_display k h.1
    have hv := derives_display v h.2
    rw [toList_dictionary, tokens_mark (by decide) (by decide),
      tokens_append_blank _ _ (by decide), tokens_mark (by decide) (by decide),
      tokens_blank (by decide), tokens_concat _ (by decide) (by decide)]
    exact .plain (.dictionary hk hv)
  | .generic s ts, h => by
    simp only [wellNamed, Bool.and_eq_true] at h
    obtain ⟨⟨hs, hne⟩, hts⟩ := h
    have hi := derives_displayItems ts (by simpa using hne) hts
    rw [toList_generic, tokens_append_mark _ _ (by decide) (by decide), tokens_isName hs,
      tokens_concat _ (by decide) (by decide)]
    exact .plain (.generic hi)
  | .tuple [], _ => by
    rw [display, tokens_isName (by decide)]
    exact .plain .named
  | .tuple (t :: ts), h => by
    have hi := derives_displayItems (t :: ts) (List.cons_ne_nil t ts) h
    rw [toList_tuple, tokens_mark (by decide) (by decide), tokens_concat _ (by decide) (by decide)]
    have hg := Derives.plain (derives_grouped hi)
    cases ts <;> exact hg

theorem derives_displayItems : ∀ ts : List TypeRef, ts ≠ [] → wellNamedEach ts = true →
    Derives (tokens (displayItems ts)) (.items (normalizeEach ts))
  | [], hne, _ => absurd rfl hne
  | [t], _, h => by
    simp only [wellNamedEach, Bool.and_true] at h
    exact .last (derives_display t h)
  | t :: u :: ts, _, h => by
    rw [wellNamedEach, Bool.and_eq_true] at h
    have hu := derives_displayItems (u :: ts) (List.cons_ne_nil u ts) h.2
    rw [displayItems_cons, tokens_append_mark _ _ (by decide) (by decide),
      tokens_blank (by decide)]
    exact .more (derives_display t h.1) hu
end

theorem parse_display_eq {t : TypeRef} (h : wellNamed t = true) :
    parse (display t) = .ok (normalize t) :=
  parse_eq_ok_iff_derives.2 (derives_display t h)

/-! ## What is read -/

/-- Every type of a phrase has the property. -/
def Phrase.All (P : TypeRef → Prop) : Phrase → Prop
  | .type t => P t
  | .primary t => P t
  | .items ts => ∀ t ∈ ts, P t

/-- What is derived has the names of its tokens, and parentheses around one type make no tuple. -/
theorem Derives.wellNamed_allTuples {us : List Token} {p : Phrase} (h : Derives us p)
    (hn : ∀ s, .name s ∈ us → isName s = true) :
    p.All fun t => wellNamed t = true ∧ allTuples (· ≠ 1) t = true := by
  induction h with
  | plain _ ih => exact ih hn
  | optional _ ih => exact ih fun s hs => hn s (by simp [hs])
  | array _ ih => exact ih fun s hs => hn s (by simp [hs])
  | dictionary _ _ ihk ihv =>
    obtain ⟨hk, hk'⟩ := ihk fun s hs => hn s (by simp [hs])
    obtain ⟨hv, hv'⟩ := ihv fun s hs => hn s (by simp [hs])
    simp only [Phrase.All, wellNamed, allTuples, hk, hv, hk', hv', Bool.and_self, and_self]
  | void => exact ⟨rfl, rfl⟩
  | parens _ ih => exact ih fun s hs => hn s (by simp [hs])
  | tuple _ ih =>
    have hall := ih fun s hs => hn s (by simp [hs])
    simp only [Phrase.All, wellNamed, allTuples, wellNamedEach_eq_all, allTuplesEach_eq_all,
      List.all_eq_true, Bool.and_eq_true]
    exact ⟨fun t ht => (hall t ht).1, by simp, fun t ht => (hall t ht).2⟩
  | named => exact ⟨hn _ List.mem_cons_self, rfl⟩
  | generic h ih =>
    have hall := ih fun s hs => hn s (by simp [hs])
    have hne := h.ne_nil
    simp only [Phrase.All, wellNamed, allTuples, wellNamedEach_eq_all, allTuplesEach_eq_all,
      List.all_eq_true, Bool.and_eq_true]
    exact ⟨⟨⟨hn _ List.mem_cons_self, by simpa using hne⟩, fun t ht => (hall t ht).1⟩,
      fun t ht => (hall t ht).2⟩
  | last _ ih =>
    intro t ht
    rw [List.mem_singleton.1 ht]
    exact ih hn
  | more _ _ ih ihs =>
    intro t ht
    rcases List.mem_cons.1 ht with rfl | ht
    · exact ih fun s hs => hn s (by simp [hs])
    · exact ihs (fun s hs => hn s (by simp [hs])) t ht

theorem wellNamed_of_parse {s : String} {t : TypeRef} (h : parse s = .ok t) :
    wellNamed t = true ∧ allTuples (· ≠ 1) t = true :=
  (parse_eq_ok_iff_derives.1 h).wellNamed_allTuples fun _ hs => isName_of_mem_tokens hs

/-- Reading undoes writing up to tuples of fewer than two elements. It gives the very type back
exactly if there are none of them, and what is read from any text is written with proper names
and has no tuple of one element. -/
theorem parse_display :
    (∀ t : TypeRef, wellNamed t = true → parse (display t) = .ok (normalize t)) ∧
    (∀ t : TypeRef, wellNamed t = true →
      (parse (display t) = .ok t ↔ allTuples (2 ≤ ·) t = true)) ∧
    ∀ (s : String) (t : TypeRef), parse s = .ok t →
      wellNamed t = true ∧ allTuples (· ≠ 1) t = true := by
  refine ⟨fun t => parse_display_eq, fun t h => ?_, fun s t => wellNamed_of_parse⟩
  rw [parse_display_eq h, ← normalize_eq_self_iff]
  constructor
  · intro he
    exact Except.ok.inj he
  · intro he
    rw [he]

theorem parse_display_nested :
    parse (display (.generic "Set" [.tuple [.optional (.tuple [])], .array (.named "a.b")])) =
      .ok (.generic "Set" [.optional (.named "Void"), .array (.named "a.b")]) ∧
    parse (display (.optional (.tuple [.named "A", .named "\x60in\x60"]))) =
      .ok (.optional (.tuple [.named "A", .named "\x60in\x60"])) ∧
    allTuples (· ≠ 1)
      (.generic "Set" [.optional (.named "Void"), .array (.named "a.b")]) = true := by
  obtain ⟨hnorm, hself, hread⟩ := parse_display
  have h := hnorm (.generic "Set" [.tuple [.optional (.tuple [])], .array (.named "a.b")])
    (by decide)
  exact ⟨h, (hself _ (by decide)).2 rfl, (hread _ _ h).2⟩

end TypeRef
end SwiftDecl
