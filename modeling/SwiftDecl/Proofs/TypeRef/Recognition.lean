import SwiftDecl.Proofs.TypeRef.Grammar
import SwiftDecl.Proofs.TypeRef.Readers

/-!
# SwiftDecl.Proofs.TypeRef.Recognition

The readers accept what the grammar derives, and nothing else.

* `ReadsType.derives` — a type that was read is derived by the tokens that were passed over.
* `Derives.recognized` — a derived sequence of tokens is read, whatever follows it, as long as
  that does not go on with the type.
* `parse_eq_ok_iff_derives` — the same for whole texts.
-/

namespace SwiftDecl
namespace TypeRef

open Text (dropBlanks)

/-- Types and items read from texts shorter than `n` are derived by their tokens. -/
def SoundBelow (n : Nat) : Prop :=
  ∀ cs, cs.length < n →
    (∀ t rest, ReadsType cs t rest →
      ∃ us, tokens cs = us ++ tokens rest ∧ Derives us (.type t)) ∧
    ∀ close ts rest, isNameStart close = false → ReadsItems close cs ts rest →
      ∃ us, tokens cs = us ++ .mark close :: tokens rest ∧ Derives us (.items ts)

theorem Derives.ne_nil {us : List Token} {ts : List TypeRef} (h : Derives us (.items ts)) :
    ts ≠ [] := by
  cases h <;> simp

theorem derives_grouped {us : List Token} {ts : List TypeRef} (h : Derives us (.items ts)) :
    Derives (.mark '(' :: (us ++ [.mark ')'])) (.primary (grouped ts)) := by
  cases h with
  | last h => exact .parens h
  | @more us vs t ts h hs =>
    cases ts with
    | nil => cases hs
    | cons u ts => exact .tuple (.more h hs)

theorem ReadsPrimary.derives_of_below {cs rest : List Char} {t : TypeRef}
    (ih : SoundBelow cs.length) (h : ReadsPrimary cs t rest) :
    ∃ us, tokens cs = us ++ tokens rest ∧ Derives us (.primary t) := by
  obtain ⟨c, r, hd, rfl | rfl | hc⟩ := h.head
  · have hr := length_lt_of_dropBlanks hd
    have hcs : tokens cs = .mark '[' :: tokens r := by
      rw [← tokens_dropBlanks cs, hd, tokens_mark (by decide) (by decide)]
    obtain ⟨e, r₁, he, h | h⟩ := (readsPrimary_bracket hd).1 h
    · obtain ⟨r₂, v, r₃, e₂, hv, e₄, rfl⟩ := h
      have hl₂ := length_eat_true_lt e₂
      have hl₁ := he.length_lt
      obtain ⟨us, hus, hk⟩ := (ih r hr).1 e r₁ he
      obtain ⟨vs, hvs, hv⟩ := (ih r₂ (by omega)).1 v r₃ hv
      refine ⟨_, ?_, .dictionary hk hv⟩
      rw [hcs, hus, tokens_of_eat_true (by decide) e₂, hvs, tokens_of_eat_true (by decide) e₄]
      simp
    · obtain ⟨r₂, e₂, e₃, rfl⟩ := h
      obtain ⟨us, hus, hk⟩ := (ih r hr).1 e r₁ he
      refine ⟨_, ?_, .array hk⟩
      rw [hcs, hus, ← tokens_of_eat_false e₂, tokens_of_eat_true (by decide) e₃]
      simp
  · have hr := length_lt_of_dropBlanks hd
    have hcs : tokens cs = .mark '(' :: tokens r := by
      rw [← tokens_dropBlanks cs, hd, tokens_mark (by decide) (by decide)]
    obtain ⟨ts, hl, rfl⟩ := (readsPrimary_paren hd).1 h
    rcases readsList_iff.1 hl with ⟨e, rfl⟩ | ⟨r₁, e, hi⟩
    · exact ⟨_, by rw [hcs, tokens_of_eat_true (by decide) e]; rfl, .void⟩
    · have hl₁ := length_eat_false_le e
      obtain ⟨us, hus, hi⟩ := (ih r₁ (by omega)).2 _ _ _ (by decide) hi
      refine ⟨_, ?_, derives_grouped hi⟩
      rw [hcs, ← tokens_of_eat_false e, hus]
      simp
  · have hr := length_lt_of_dropBlanks hd
    have hdrop := (List.dropWhile_sublist (l := r) isNamePart).length_le
    have hcs : tokens cs = .name (String.ofList (c :: r.takeWhile isNamePart)) ::
        tokens (r.dropWhile isNamePart) := by
      rw [← tokens_dropBlanks cs, hd, tokens_name hc]
    rcases (readsPrimary_name hd hc).1 h with ⟨r₁, args, e₁, hl, hne, rfl⟩ | ⟨e₁, rfl⟩
    · have hl₁ := length_eat_true_lt e₁
      rcases readsList_iff.1 hl with ⟨_, rfl⟩ | ⟨r₂, e₂, hi⟩
      · exact absurd rfl hne
      · have hl₂ := length_eat_false_le e₂
        obtain ⟨us, hus, hi⟩ := (ih r₂ (by omega)).2 _ _ _ (by decide) hi
        refine ⟨_, ?_, .generic hi⟩
        rw [hcs, tokens_of_eat_true (by decide) e₁, ← tokens_of_eat_false e₂, hus]
        simp
    · exact ⟨_, by rw [hcs, ← tokens_of_eat_false e₁]; rfl, .named⟩

theorem derives_marks {us : List Token} {u t : TypeRef} {r rest : List Char}
    (h : Derives us (.type u)) (hm : marks u r = (t, rest)) :
    ∃ vs, tokens r = vs ++ tokens rest ∧ Derives (us ++ vs) (.type t) := by
  fun_induction marks u r generalizing us with
  | case1 u r r' e ih =>
    obtain ⟨vs, hvs, hd⟩ := ih (.optional h) hm
    refine ⟨.mark '?' :: vs, ?_, by simpa using hd⟩
    rw [tokens_of_eat_true (by decide) e, hvs]
    rfl
  | case2 u r r' e =>
    cases hm
    exact ⟨[], (tokens_of_eat_false e).symm, by simpa using h⟩

theorem ReadsType.derives_of_below {cs rest : List Char} {t : TypeRef}
    (ih : SoundBelow cs.length) (h : ReadsType cs t rest) :
    ∃ us, tokens cs = us ++ tokens rest ∧ Derives us (.type t) := by
  obtain ⟨u, r, hp, hm⟩ := readsType_iff.1 h
  obtain ⟨us, hus, hd⟩ := hp.derives_of_below ih
  obtain ⟨vs, hvs, hd⟩ := derives_marks (.plain hd) hm
  exact ⟨us ++ vs, by rw [hus, hvs, List.append_assoc], hd⟩

theorem soundBelow (n : Nat) : SoundBelow n := by
  induction n with
  | zero => intro cs h; omega
  | succ n ih =>
    intro cs hn
    have ih : SoundBelow cs.length := fun cs' h' => ih cs' (by omega)
    refine ⟨fun t rest h => h.derives_of_below ih, fun close ts rest hc h => ?_⟩
    obtain ⟨t, r, ht, h⟩ := readsItems_iff.1 h
    obtain ⟨us, hus, hd⟩ := ht.derives_of_below ih
    rcases h with ⟨r₁, ts, e₁, hi, rfl⟩ | ⟨r₁, e₁, e₂, rfl⟩
    · have hl₁ := length_eat_true_lt e₁
      have hl := ht.length_lt
      obtain ⟨vs, hvs, hi⟩ := (ih r₁ (by omega)).2 close ts rest hc hi
      refine ⟨_, ?_, .more hd hi⟩
      rw [hus, tokens_of_eat_true (by decide) e₁, hvs]
      simp
    · refine ⟨_, ?_, .last hd⟩
      rw [hus, ← tokens_of_eat_false e₁, tokens_of_eat_true hc e₂]

theorem ReadsType.derives {cs rest : List Char} {t : TypeRef} (h : ReadsType cs t rest) :
    ∃ us, tokens cs = us ++ tokens rest ∧ Derives us (.type t) :=
  (soundBelow (cs.length + 1) cs (Nat.lt_succ_self _)).1 t rest h

theorem marks_of_eat_true {t : TypeRef} {cs rest : List Char} (h : eat '?' cs = (true, rest)) :
    marks t cs = marks (.optional t) rest := by
  rw [marks]
  split
  · rename_i h'
    cases h.symm.trans h'
    rfl
  · rename_i h'
    cases h.symm.trans h'

theorem marks_of_eat_false {t : TypeRef} {cs rest : List Char} (h : eat '?' cs = (false, rest)) :
    marks t cs = (t, rest) := by
  rw [marks]
  split
  · rename_i h'
    cases h.symm.trans h'
  · rename_i h'
    cases h.symm.trans h'
    rfl

/-- After the tokens `us`, which end with a name, the tokens `vs` start its arguments. -/
def Token.Arguments (us vs : List Token) : Prop :=
  vs.head? = some (.mark '<') ∧ ∃ s, us.getLast? = some (.name s)

/-- Every text with these tokens, and others after them, is read as the phrase. A type is read up
to its own question marks; those that follow would still be taken. -/
def Recognized (us : List Token) : Phrase → Prop
  | .type t => ∀ cs vs, tokens cs = us ++ vs → ¬Token.Arguments us vs →
      ∃ u r r', ReadsPrimary cs u r ∧ marks u r = marks t r' ∧ tokens r' = vs
  | .primary t => ∀ cs vs, tokens cs = us ++ vs → ¬Token.Arguments us vs →
      ∃ rest, ReadsPrimary cs t rest ∧ tokens rest = vs
  | .items ts => ∀ close cs vs, close = ')' ∨ close = '>' →
      tokens cs = us ++ .mark close :: vs →
      ∃ rest, ReadsItems close cs ts rest ∧ tokens rest = vs

theorem Recognized.readsType {us vs : List Token} {t : TypeRef} {cs : List Char}
    (h : Recognized us (.type t)) (hcs : tokens cs = us ++ vs)
    (h₁ : ¬Token.Arguments us vs) (h₂ : vs.head? ≠ some (.mark '?')) :
    ∃ rest, ReadsType cs t rest ∧ tokens rest = vs := by
  obtain ⟨u, r, r', hp, hm, hr'⟩ := h cs vs hcs h₁
  have he := eat_of_tokens_ne '?' r' (by decide) (hr' ▸ h₂)
  refine ⟨dropBlanks r', ?_, by rw [tokens_dropBlanks, hr']⟩
  exact readsType_iff.2 ⟨u, r, hp, hm.trans (marks_of_eat_false he)⟩

theorem Recognized.last {us : List Token} {t : TypeRef} (h : Recognized us (.type t)) :
    Recognized us (.items [t]) := by
  intro close cs vs hc hcs
  have hne : ∀ m, m = ',' ∨ m = '<' ∨ m = '?' →
      (Token.mark close :: vs).head? ≠ some (.mark m) := by
    rintro m hm he
    cases he
    rcases hc with rfl | rfl <;> simp at hm
  obtain ⟨r, ht, hr⟩ := h.readsType hcs (fun ha => hne '<' (by simp) ha.1) (hne '?' (by simp))
  have e₁ := eat_of_tokens_ne ',' r (by decide) (hr ▸ hne ',' (by simp))
  obtain ⟨rest, e₂, hrest⟩ := eat_of_tokens ((tokens_dropBlanks r).trans hr)
  exact ⟨rest, readsItems_iff.2 ⟨t, r, ht, .inr ⟨_, e₁, e₂, rfl⟩⟩, hrest⟩

/-- A list that is not empty does not start with its closing mark. -/
theorem Derives.readsList {us vs : List Token} {ts : List TypeRef} {close : Char}
    {cs : List Char} (hd : Derives us (.items ts)) (h : Recognized us (.items ts))
    (hc : close = ')' ∨ close = '>') (hcs : tokens cs = us ++ .mark close :: vs) :
    ∃ rest, ReadsList close cs ts rest ∧ tokens rest = vs := by
  have hne : (tokens cs).head? ≠ some (.mark close) := by
    have hb := hd.begins_answered.1
    cases us with
    | nil => cases hb
    | cons u us =>
      intro he
      rw [hcs] at he
      cases he
      rcases hc with rfl | rfl <;> cases hb
  have he := eat_of_tokens_ne close cs (by rcases hc with rfl | rfl <;> decide) hne
  obtain ⟨rest, hi, hrest⟩ := h close (dropBlanks cs) vs hc (by rw [tokens_dropBlanks, hcs])
  exact ⟨rest, readsList_iff.2 (.inr ⟨_, he, hi⟩), hrest⟩

theorem Derives.recognized {us : List Token} {p : Phrase} (h : Derives us p) : Recognized us p := by
  induction h with
  | plain _ ih =>
    intro cs vs hcs hlt
    obtain ⟨rest, hp, hrest⟩ := ih cs vs hcs hlt
    exact ⟨_, rest, rest, hp, rfl, hrest⟩
  | optional _ ih =>
    intro cs vs hcs _
    rw [List.append_assoc] at hcs
    obtain ⟨u, r, r', hp, hm, hr'⟩ := ih cs _ hcs (by simp [Token.Arguments])
    obtain ⟨r₂, e, hr₂⟩ := eat_of_tokens hr'
    exact ⟨u, r, r₂, hp, hm.trans (marks_of_eat_true e), hr₂⟩
  | array _ ih =>
    intro cs vs hcs _
    rw [List.cons_append, List.append_assoc] at hcs
    obtain ⟨r, hd, hr⟩ := dropBlanks_of_tokens_mark hcs
    obtain ⟨r₁, ht, hr₁⟩ := ih.readsType hr (by simp [Token.Arguments]) (by simp)
    have e₂ := eat_of_tokens_ne ':' r₁ (by decide) (by simp [hr₁])
    obtain ⟨rest, e₃, hrest⟩ := eat_of_tokens ((tokens_dropBlanks r₁).trans hr₁)
    exact ⟨rest, (readsPrimary_bracket hd).2 ⟨_, r₁, ht, .inr ⟨_, e₂, e₃, rfl⟩⟩, hrest⟩
  | dictionary _ _ ihk ihv =>
    intro cs vs hcs _
    rw [List.cons_append, List.append_assoc, List.cons_append, List.append_assoc] at hcs
    obtain ⟨r, hd, hr⟩ := dropBlanks_of_tokens_mark hcs
    obtain ⟨r₁, hk, hr₁⟩ := ihk.readsType hr (by simp [Token.Arguments]) (by simp)
    obtain ⟨r₂, e₂, hr₂⟩ := eat_of_tokens hr₁
    obtain ⟨r₃, hv, hr₃⟩ := ihv.readsType hr₂ (by simp [Token.Arguments]) (by simp)
    obtain ⟨rest, e₄, hrest⟩ := eat_of_tokens hr₃
    exact ⟨rest, (readsPrimary_bracket hd).2 ⟨_, r₁, hk, .inl ⟨r₂, _, r₃, e₂, hv, e₄, rfl⟩⟩, hrest⟩
  | void =>
    intro cs vs hcs _
    obtain ⟨r, hd, hr⟩ := dropBlanks_of_tokens_mark hcs
    obtain ⟨rest, e, hrest⟩ := eat_of_tokens hr
    exact ⟨rest, (readsPrimary_paren hd).2 ⟨[], readsList_iff.2 (.inl ⟨e, rfl⟩), rfl⟩, hrest⟩
  | parens h ih =>
    intro cs vs hcs _
    rw [List.cons_append, List.append_assoc] at hcs
    obtain ⟨r, hd, hr⟩ := dropBlanks_of_tokens_mark hcs
    obtain ⟨rest, hl, hrest⟩ := (Derives.last h).readsList ih.last (.inl rfl) hr
    exact ⟨rest, (readsPrimary_paren hd).2 ⟨_, hl, rfl⟩, hrest⟩
  | tuple h ih =>
    intro cs vs hcs _
    rw [List.cons_append, List.append_assoc] at hcs
    obtain ⟨r, hd, hr⟩ := dropBlanks_of_tokens_mark hcs
    obtain ⟨rest, hl, hrest⟩ := h.readsList ih (.inl rfl) hr
    exact ⟨rest, (readsPrimary_paren hd).2 ⟨_, hl, rfl⟩, hrest⟩
  | named =>
    intro cs vs hcs hlt
    obtain ⟨c, r, hd, hc, rfl, hr⟩ := dropBlanks_of_tokens_name hcs
    have e := eat_of_tokens_ne '<' (r.dropWhile isNamePart) (by decide)
      (fun he => hlt ⟨(congrArg List.head? hr).symm.trans he, _, rfl⟩)
    exact ⟨_, (readsPrimary_name hd hc).2 (.inr ⟨e, rfl⟩), (tokens_dropBlanks _).trans hr⟩
  | generic h ih =>
    intro cs vs hcs _
    rw [List.cons_append, List.cons_append, List.append_assoc] at hcs
    obtain ⟨c, r, hd, hc, rfl, hr⟩ := dropBlanks_of_tokens_name hcs
    obtain ⟨r₁, e, hr₁⟩ := eat_of_tokens hr
    obtain ⟨rest, hl, hrest⟩ := h.readsList ih (.inr rfl) hr₁
    have hne := h.ne_nil
    exact ⟨rest, (readsPrimary_name hd hc).2 (.inl ⟨r₁, _, e, hl, hne, rfl⟩), hrest⟩
  | last _ ih => exact ih.last
  | more _ _ ih ihs =>
    intro close cs vs hc hcs
    rw [List.append_assoc] at hcs
    obtain ⟨r, ht, hr⟩ := ih.readsType hcs (by simp [Token.Arguments]) (by simp)
    obtain ⟨r₁, e, hr₁⟩ := eat_of_tokens hr
    obtain ⟨rest, hi, hrest⟩ := ihs close r₁ vs hc hr₁
    exact ⟨rest, readsItems_iff.2 ⟨_, r, ht, .inl ⟨r₁, _, e, hi, rfl⟩⟩, hrest⟩

theorem parse_eq_ok_iff_derives {s : String} {t : TypeRef} :
    parse s = .ok t ↔ Derives (tokens s.toList) (.type t) := by
  rw [parse_eq_ok_iff]
  constructor
  · rintro ⟨rest, h, hd⟩
    obtain ⟨us, hus, h⟩ := h.derives
    rw [hus, tokens_eq_nil_iff.2 hd, List.append_nil]
    exact h
  · intro h
    obtain ⟨rest, hr, hrest⟩ := h.recognized.readsType (List.append_nil _).symm
      (by simp [Token.Arguments]) (by simp)
    exact ⟨rest, hr, tokens_eq_nil_iff.1 hrest⟩

theorem Derives.unique {s : String} {t u : TypeRef} (ht : Derives (tokens s.toList) (.type t))
    (hu : Derives (tokens s.toList) (.type u)) : t = u := by
  have h := (parse_eq_ok_iff_derives.2 ht).symm.trans (parse_eq_ok_iff_derives.2 hu)
  exact Except.ok.inj h

/-- After a type, tokens that do not go on with it are trailing text. -/
theorem Derives.parse_trailing {s : String} {us vs : List Token} {t : TypeRef}
    (h : Derives us (.type t)) (hs : tokens s.toList = us ++ vs) (hne : vs ≠ [])
    (h₁ : ¬Token.Arguments us vs) (h₂ : vs.head? ≠ some (.mark '?')) :
    ∃ rest, parse s = .error (.trailing rest) := by
  obtain ⟨rest, ⟨_, hr⟩, hrest⟩ := h.recognized.readsType hs h₁ h₂
  cases hd : dropBlanks rest with
  | nil => exact absurd (hrest.symm.trans (tokens_eq_nil_iff.2 hd)) hne
  | cons c cs => exact ⟨String.ofList (c :: cs), by simp only [parse, hr, hd]⟩

theorem parse_error_of_not_derives {s : String}
    (h : ∀ t, ¬Derives (tokens s.toList) (.type t)) : ∃ f, parse s = .error f := by
  cases hp : parse s with
  | error f => exact ⟨f, rfl⟩
  | ok t => exact absurd (parse_eq_ok_iff_derives.1 hp) (h t)

/-- The same tokens, the same answer. -/
theorem parse_toOption_congr {s s' : String} (h : tokens s.toList = tokens s'.toList) :
    (parse s).toOption = (parse s').toOption := by
  have hiff : ∀ t, parse s = .ok t ↔ parse s' = .ok t := by
    intro t
    rw [parse_eq_ok_iff_derives, parse_eq_ok_iff_derives, h]
  cases hp : parse s with
  | ok t => rw [(hiff t).1 hp]
  | error f =>
    cases hp' : parse s' with
    | ok t => cases hp.symm.trans ((hiff t).2 hp')
    | error f' => rfl

/-! ## The language of types -/

/-- A text is read as a type exactly if its tokens derive that type, and they derive no other.
Refused are, after a type, tokens that do not go on with it; a comma or an opening angle bracket
with no type after it; and brackets that are not closed in turn. Blanks between tokens do not
matter, unless they split a name or their absence joins two. -/
theorem parse_accepts_grammar :
    (∀ (s : String) (t : TypeRef), parse s = .ok t ↔ Derives (tokens s.toList) (.type t)) ∧
    (∀ (s : String) (t u : TypeRef), Derives (tokens s.toList) (.type t) →
      Derives (tokens s.toList) (.type u) → t = u) ∧
    (∀ (s : String) (us vs : List Token) (t : TypeRef), Derives us (.type t) →
      tokens s.toList = us ++ vs → vs ≠ [] → ¬Token.Arguments us vs →
      vs.head? ≠ some (.mark '?') → ∃ rest, parse s = .error (.trailing rest)) ∧
    (∀ (s : String) (us vs : List Token) (m : Char), tokens s.toList = us ++ .mark m :: vs →
      m = ',' ∨ m = '<' → begins vs = false → ∃ f, parse s = .error f) ∧
    (∀ s : String, unclosed [] (tokens s.toList) ≠ some [] → ∃ f, parse s = .error f) ∧
    ∀ a w b : List Char, (∀ c ∈ w, Text.isBlank c = true) → Apart a b →
      (parse (String.ofList (a ++ w ++ b))).toOption =
        (parse (String.ofList (a ++ b))).toOption := by
  refine ⟨fun s t => parse_eq_ok_iff_derives, fun s t u => Derives.unique, ?_, ?_, ?_, ?_⟩
  · intro s us vs t h hs hne h₁ h₂
    exact h.parse_trailing hs hne h₁ h₂
  · intro s us vs m hs hm hb
    refine parse_error_of_not_derives fun t h => ?_
    have ha := h.begins_answered.2
    rw [hs] at ha
    rw [begins_of_answered ha (by rcases hm with rfl | rfl <;> rfl)] at hb
    cases hb
  · intro s hu
    refine parse_error_of_not_derives fun t h => hu ?_
    have hst := h.unclosed_append [] []
    rw [List.append_nil] at hst
    exact hst
  · intro a w b hw h
    refine parse_toOption_congr ?_
    rw [String.toList_ofList, String.toList_ofList]
    exact tokens_blanks_between hw h

theorem parse_accepts_grammar_pairs :
    parse "( A,[B:C] )?" =
      .ok (.optional (.tuple [.named "A", .dictionary (.named "B") (.named "C")])) ∧
    (∀ u, Derives [.mark '[', .name "A", .mark ']'] (.type u) → u = .array (.named "A")) ∧
    (∃ rest, parse "[A]<B>" = .error (.trailing rest)) ∧
    (∃ f, parse "Set<A,>" = .error f) ∧ (∃ f, parse "Set<>" = .error f) ∧
    (∃ f, parse "([A)]" = .error f) ∧
    (parse "[A \t:B]").toOption = (parse "[A:B]").toOption := by
  obtain ⟨hiff, hone, htrail, hasks, hopen, hblank⟩ := parse_accepts_grammar
  have hbc : Derives [.mark '[', .name "B", .mark ':', .name "C", .mark ']']
      (.primary (.dictionary (.named "B") (.named "C"))) :=
    .dictionary (.plain .named) (.plain .named)
  have ht : tokens "( A,[B:C] )?".toList = [.mark '(', .name "A", .mark ',', .mark '[', .name "B",
      .mark ':', .name "C", .mark ']', .mark ')', .mark '?'] := by decide +kernel
  have ha : Derives [.mark '[', .name "A", .mark ']'] (.type (.array (.named "A"))) :=
    .plain (.array (.plain .named))
  have hs : tokens "[A]".toList = [.mark '[', .name "A", .mark ']'] := by decide +kernel
  refine ⟨(hiff _ _).2 ?_, fun u hu => hone "[A]" u _ (hs ▸ hu) (hs ▸ ha), ?_, ?_, ?_, ?_, ?_⟩
  · rw [ht]
    exact .optional (.plain (.tuple (.more (.plain .named) (.last (.plain hbc)))))
  · refine htrail "[A]<B>" _ [.mark '<', .name "B", .mark '>'] _ ha (by decide +kernel)
      (by simp) ?_ (by simp)
    rintro ⟨_, s, h⟩
    cases h
  · exact hasks "Set<A,>" [.name "Set", .mark '<', .name "A"] [.mark '>'] ','
      (by decide +kernel) (by simp) rfl
  · exact hasks "Set<>" [.name "Set"] [.mark '>'] '<' (by decide +kernel) (by simp) rfl
  · exact hopen "([A)]" (by decide +kernel)
  · exact hblank ['[', 'A'] [' ', '\t'] [':', 'B', ']'] (by simp; decide)
      (by simp [Apart]; decide)

end TypeRef
end SwiftDecl
