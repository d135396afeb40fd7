import ParallelForge.Base.PyJsonRoundTrip

/-!
# Texts that `json.loads` reads

What is true of the empty text, of letters outside strings and of strings, and of two
texts one behind the other, is true of every text that is read. So no line of it begins
with a backtick: JSON has one only inside a string, and a string holds no line feed.
-/

namespace ParallelForge.Base.PyJson
open Json

/-! ## Tokens -/

/-- What follows the first quote of a string. -/
inductive StringTail : Str → Prop
  | close : StringTail [34]
  | letter {c : ℕ} {t : Str} (hquote : c ≠ 34) (hslash : c ≠ 92) (hcontrol : 32 ≤ c) (ht : StringTail t) :
      StringTail (c :: t)
  | short {e u : ℕ} {t : Str} (hne : e ≠ 117) (hu : unescape e = some u) (ht : StringTail t) :
      StringTail (92 :: e :: t)
  | unicode {a b c d u : ℕ} {t : Str} (hu : hex4 a b c d = some u) (ht : StringTail t) :
      StringTail (92 :: 117 :: a :: b :: c :: d :: t)

/-- A property of texts that is kept token by token. -/
structure Tokens (T : Str → Prop) : Prop where
  nil : T []
  append : ∀ {t u : Str}, T t → T u → T (t ++ u)
  letter : ∀ c, c ≠ 34 → c ≠ 96 → T [c]
  string : ∀ t, StringTail t → T (34 :: t)

theorem Tokens.letters {T : Str → Prop} (hT : Tokens T) (t : Str) (h : ∀ c ∈ t, c ≠ 34 ∧ c ≠ 96) : T t := by
  induction t with
  | nil => exact hT.nil
  | cons c t ih =>
    rw [List.forall_mem_cons] at h
    exact hT.append (hT.letter c h.1.1 h.1.2) (ih h.2)

/-- What lies between a text and what is left of it. -/
def Consumes (T : Str → Prop) (s rest : Str) : Prop := ∃ t, s = t ++ rest ∧ T t

section tokens
variable {T : Str → Prop} (hT : Tokens T)
include hT

theorem Tokens.refl (s : Str) : Consumes T s s := ⟨[], rfl, hT.nil⟩

theorem Tokens.trans {s s' rest : Str} (h : Consumes T s s') (h' : Consumes T s' rest) : Consumes T s rest := by
  obtain ⟨t, rfl, ht⟩ := h
  obtain ⟨u, rfl, hu⟩ := h'
  exact ⟨t ++ u, by rw [List.append_assoc], hT.append ht hu⟩

theorem Tokens.skipLetter {c : ℕ} {s : Str} (hquote : c ≠ 34) (htick : c ≠ 96) : Consumes T (c :: s) s :=
  ⟨[c], rfl, hT.letter c hquote htick⟩

theorem consumes_while (p : ℕ → Bool) (hp : p 34 = false ∧ p 96 = false) (s : Str) :
    Consumes T s (s.dropWhile p) := by
  refine ⟨_, List.takeWhile_append_dropWhile.symm, hT.letters _ ?_⟩
  intro c hc
  have htrue := List.mem_takeWhile_imp hc
  refine ⟨?_, ?_⟩
  · rintro rfl
    rw [hp.1] at htrue
    cases htrue
  · rintro rfl
    rw [hp.2] at htrue
    cases htrue

theorem consumes_skip (s : Str) : Consumes T s (skip s) := consumes_while hT _ ⟨rfl, rfl⟩ s

theorem consumes_expect {word s rest : Str} (hword : ∀ c ∈ word, c ≠ 34 ∧ c ≠ 96)
    (h : expect word s = some rest) : Consumes T s rest := by
  unfold expect at h
  split at h
  · next hprefix =>
    cases h
    obtain ⟨t, rfl⟩ := List.isPrefixOf_iff_prefix.mp hprefix
    refine ⟨word, ?_, hT.letters word hword⟩
    rw [List.drop_left]
  · cases h

omit hT in
theorem scanUnits_consumes (s : Str) : ∀ us rest, scanUnits s = some (us, rest) →
    Consumes StringTail s rest := by
  have hmore : ∀ (word s : Str) (u : ℕ × Bool) (us : List (ℕ × Bool)) (rest : Str),
      (∀ t, StringTail t → StringTail (word ++ t)) →
      (∀ us rest, scanUnits s = some (us, rest) → Consumes StringTail s rest) →
      (scanUnits s).map (fun r => (u :: r.1, r.2)) = some (us, rest) →
      Consumes StringTail (word ++ s) rest := by
    intro word s u us rest hword ih h
    rw [Option.map_eq_some_iff] at h
    obtain ⟨r, hr, hrest⟩ := h
    cases hrest
    obtain ⟨t, ht, htail⟩ := ih r.1 r.2 hr
    exact ⟨word ++ t, by rw [List.append_assoc, ← ht], hword t htail⟩
  induction s using scanUnits.induct with
  | case1 => intro us rest h; cases h
  | case2 s =>
    intro us rest h
    rw [scanUnits_quote] at h
    cases h
    exact ⟨[34], rfl, .close⟩
  | case3 => intro us rest h; cases h
  | case4 a b c d s e hhex _ ih =>
    intro us rest h
    rw [scanUnits_unicode a b c d e s hhex] at h
    exact hmore [92, 117, a, b, c, d] s _ us rest (fun t ht => .unicode hhex ht) ih h
  | case5 a b c d s hhex =>
    intro us rest h
    simp [scanUnits, hhex] at h
  | case6 s hshort =>
    intro us rest h
    rw [scanUnits.eq_def] at h
    simp only [show ¬ (92 : ℕ) = 34 by decide, if_false, if_true] at h
    cases h
  | case7 e s hu v hv _ ih =>
    intro us rest h
    rw [scanUnits_short e v s hu hv] at h
    exact hmore [92, e] s _ us rest (fun t ht => .short hu hv ht) ih h
  | case8 e s hu hv =>
    intro us rest h
    rw [scanUnits.eq_def] at h
    simp [hu, hv] at h
  | case9 c s hquote hslash hcontrol =>
    intro us rest h
    rw [scanUnits.eq_def] at h
    simp [hquote, hslash, hcontrol] at h
  | case10 c s hquote hslash hcontrol ih =>
    intro us rest h
    rw [scanUnits_plain c s hquote hslash hcontrol] at h
    exact hmore [c] s _ us rest (fun t ht => .letter hquote hslash (Nat.not_lt.mp hcontrol) ht) ih h

theorem scanString_consumes {s t rest : Str} (h : scanString s = some (t, rest)) :
    Consumes T (34 :: s) rest := by
  unfold scanString at h
  rw [Option.map_eq_some_iff] at h
  obtain ⟨r, hr, hrest⟩ := h
  cases hrest
  obtain ⟨u, hu, htail⟩ := scanUnits_consumes s r.1 r.2 hr
  exact ⟨34 :: u, by rw [hu, List.cons_append], hT.string u htail⟩

/-! ### Numbers -/

theorem consumes_digits (s : Str) : Consumes T s (s.dropWhile isDigit) := consumes_while hT _ ⟨rfl, rfl⟩ s

theorem takeSign_consumes (s : Str) : Consumes T s (takeSign s).2 := by
  unfold takeSign
  split
  · exact hT.skipLetter (by decide) (by decide)
  · exact hT.refl s

theorem takeWhole_consumes (s : Str) : Consumes T s (takeWhole s).2 := by
  unfold takeWhole
  split
  · exact hT.skipLetter (by decide) (by decide)
  · exact consumes_digits hT s

theorem takeFraction_consumes (s : Str) : Consumes T s (takeFraction s).2 := by
  unfold takeFraction
  split
  · next rest =>
    split
    · exact hT.refl _
    · exact hT.trans (hT.skipLetter (by decide) (by decide)) (consumes_digits hT rest)
  · exact hT.refl s

theorem takeExponentSign_consumes (s : Str) : Consumes T s (takeExponentSign s).2 := by
  unfold takeExponentSign
  split
  · next c rest =>
    split
    · exact hT.skipLetter (by omega) (by omega)
    · exact hT.refl _
  · exact hT.refl []

theorem takeExponent_consumes (s : Str) : Consumes T s (takeExponent s).2 := by
  unfold takeExponent
  split
  · next c rest =>
    split
    · next h =>
      exact hT.trans (hT.trans (hT.skipLetter (by omega) (by omega)) (takeExponentSign_consumes hT rest))
        (consumes_digits hT _)
    · exact hT.refl _
  · exact hT.refl []

theorem matchNumber_consumes {s : Str} {t : NumberToken} (h : matchNumber s = some t) :
    Consumes T s t.rest := by
  unfold matchNumber at h
  simp only at h
  split at h
  · cases h
  · cases h
    exact hT.trans (hT.trans (hT.trans (takeSign_consumes hT s) (takeWhole_consumes hT _))
      (takeFraction_consumes hT _)) (takeExponent_consumes hT _)

theorem scanNumber_consumes {s rest : Str} {v : Json} (h : scanNumber s = some (v, rest)) :
    Consumes T s rest := by
  unfold scanNumber at h
  split at h
  · cases h
  · next t ht =>
    have hrest := matchNumber_consumes hT ht
    split at h
    · split at h
      · cases h
        exact hrest
      · cases h
    · split at h
      · cases h
      · cases h
        exact hrest

theorem scanLiteral_consumes {s rest : Str} {v : Json} (h : scanLiteral s = some (v, rest)) :
    Consumes T s rest := by
  unfold scanLiteral at h
  split at h
  · next r hr =>
    cases h
    exact consumes_expect hT (by decide) hr
  split at h
  · next r hr =>
    cases h
    exact consumes_expect hT (by decide) hr
  split at h
  · next r hr =>
    cases h
    exact consumes_expect hT (by decide) hr
  · exact scanNumber_consumes hT h

/-! ### Values -/

variable {readFloat : FloatText → Option FloatText}

theorem readLiteral_consumes {s rest : Str} {v : PyJson}
    (h : readLiteral readFloat s = some (v, rest)) : Consumes T s rest := by
  unfold readLiteral at h
  split at h
  · next r hr =>
    cases h
    exact consumes_expect hT (by decide) hr
  split at h
  · next r hr =>
    cases h
    exact consumes_expect hT (by decide) hr
  split at h
  · next r hr =>
    cases h
    exact consumes_expect hT (by decide) hr
  · rw [Option.map_eq_some_iff] at h
    obtain ⟨r, hr, hrest⟩ := h
    cases hrest
    exact scanLiteral_consumes hT hr

def ReadsTokens (T : Str → Prop) (readFloat : FloatText → Option FloatText) (n : ℕ) : Prop :=
  (∀ s v rest, readValue readFloat n s = some (v, rest) → Consumes T s rest) ∧
  (∀ s vs rest, readItems readFloat n s = some (vs, rest) → Consumes T s rest) ∧
  ∀ s ms rest, readMembers readFloat n s = some (ms, rest) → Consumes T s rest

theorem readValue_consumes {n : ℕ} (ih : ReadsTokens T readFloat n) :
    ∀ s v rest, readValue readFloat (n + 1) s = some (v, rest) → Consumes T s rest := by
  obtain ⟨-, hitems, hmembers⟩ := ih
  intro s v rest h
  cases s with
  | nil => cases h
  | cons c s =>
    rw [readValue] at h
    split at h
    · next hc =>
      rw [Option.map_eq_some_iff] at h
      obtain ⟨r, hr, hrest⟩ := h
      cases hrest
      rw [hc]
      exact scanString_consumes hT hr
    split at h
    · next hc =>
      have hopen : Consumes T (c :: s) (skip s) := hT.trans (hT.skipLetter (by omega) (by omega)) (consumes_skip hT s)
      split at h
      · next r hr =>
        cases h
        exact hT.trans hopen (consumes_expect hT (by decide) hr)
      · rw [Option.map_eq_some_iff] at h
        obtain ⟨r, hr, hrest⟩ := h
        cases hrest
        exact hT.trans hopen (hitems _ _ _ hr)
    split at h
    · next hc =>
      have hopen : Consumes T (c :: s) (skip s) := hT.trans (hT.skipLetter (by omega) (by omega)) (consumes_skip hT s)
      split at h
      · next r hr =>
        cases h
        exact hT.trans hopen (consumes_expect hT (by decide) hr)
      · rw [Option.map_eq_some_iff] at h
        obtain ⟨r, hr, hrest⟩ := h
        cases hrest
        exact hT.trans hopen (hmembers _ _ _ hr)
    · exact readLiteral_consumes hT h

theorem readItems_consumes {n : ℕ} (ih : ReadsTokens T readFloat n) :
    ∀ s vs rest, readItems readFloat (n + 1) s = some (vs, rest) → Consumes T s rest := by
  obtain ⟨hvalue, hitems, -⟩ := ih
  intro s vs rest h
  rw [readItems] at h
  split at h
  · cases h
  · next v s₁ hv =>
    have hfirst := hT.trans (hvalue _ _ _ hv) (consumes_skip hT s₁)
    split at h
    · cases h
    · next c s₂ hs₂ =>
      rw [hs₂] at hfirst
      split at h
      · next hc =>
        cases h
        exact hT.trans hfirst (hT.skipLetter (by omega) (by omega))
      split at h
      · next hc =>
        rw [Option.map_eq_some_iff] at h
        obtain ⟨r, hr, hrest⟩ := h
        cases hrest
        exact hT.trans (hT.trans (hT.trans hfirst (hT.skipLetter (by omega) (by omega))) (consumes_skip hT s₂))
          (hitems _ _ _ hr)
      · cases h

theorem readMembers_consumes {n : ℕ} (ih : ReadsTokens T readFloat n) :
    ∀ s ms rest, readMembers readFloat (n + 1) s = some (ms, rest) → Consumes T s rest := by
  obtain ⟨hvalue, -, hmembers⟩ := ih
  intro s ms rest h
  rw [readMembers] at h
  split at h
  · cases h
  next s₁ hquote =>
  split at h
  · cases h
  next k s₂ hkey =>
  split at h
  · cases h
  next s₃ hcolon =>
  split at h
  · cases h
  next v s₄ hv =>
  have hstart : s = 34 :: s₁ := by
    unfold expect at hquote
    split at hquote
    · next hprefix =>
      obtain ⟨u, rfl⟩ := List.isPrefixOf_iff_prefix.mp hprefix
      cases hquote
      rfl
    · cases hquote
  have hmember : Consumes T s (skip s₄) := by
    rw [hstart]
    have hname := hT.trans (scanString_consumes hT hkey) (consumes_skip hT s₂)
    have hvalued := hT.trans (hvalue _ _ _ hv) (consumes_skip hT s₄)
    exact hT.trans (hT.trans (hT.trans hname (consumes_expect hT (by decide) hcolon)) (consumes_skip hT s₃)) hvalued
  split at h
  · cases h
  · next c s₅ hs₅ =>
    rw [hs₅] at hmember
    split at h
    · next hc =>
      cases h
      exact hT.trans hmember (hT.skipLetter (by omega) (by omega))
    split at h
    · next hc =>
      rw [Option.map_eq_some_iff] at h
      obtain ⟨r, hr, hrest⟩ := h
      cases hrest
      exact hT.trans (hT.trans (hT.trans hmember (hT.skipLetter (by omega) (by omega))) (consumes_skip hT s₅))
        (hmembers _ _ _ hr)
    · cases h

theorem readsTokens (n : ℕ) : ReadsTokens T readFloat n := by
  induction n with
  | zero =>
    refine ⟨?_, ?_, ?_⟩
    · intro s v rest h
      cases h
    · intro s vs rest h
      cases h
    · intro s ms rest h
      cases h
  | succ n ih => exact ⟨readValue_consumes hT ih, readItems_consumes hT ih, readMembers_consumes hT ih⟩

/-- What is kept token by token is true of every text that is read. -/
theorem loads_tokens {s : Str} {v : PyJson} (h : loads readFloat s = some v) : T s := by
  unfold loads at h
  split at h
  · next w rest hread =>
    split at h
    · next hend =>
      have hall := hT.trans (hT.trans (consumes_skip hT s) ((readsTokens hT s.length).1 _ _ _ hread))
        (consumes_skip hT rest)
      obtain ⟨t, hs, ht⟩ := hall
      rw [hend, List.append_nil] at hs
      rw [hs]
      exact ht
    · cases h
  · cases h

end tokens

/-! ## Lines -/

/-- No line begins with a backtick. -/
def Tidy (t : Str) : Prop := t.head? ≠ some 96 ∧ t.IsChain fun a b => ¬ (a = 10 ∧ b = 96)

theorem tidy_append {t u : Str} (ht : Tidy t) (hu : Tidy u) : Tidy (t ++ u) := by
  refine ⟨?_, ?_⟩
  · cases t with
    | nil => exact hu.1
    | cons c t => exact ht.1
  · rw [List.isChain_append]
    refine ⟨ht.2, hu.2, ?_⟩
    rintro a - b hb ⟨-, rfl⟩
    exact hu.1 hb

theorem tidy_without_feed (t : Str) (hhead : t.head? ≠ some 96) (h : 10 ∉ t) : Tidy t := by
  refine ⟨hhead, ?_⟩
  clear hhead
  induction t with
  | nil => simp
  | cons c t ih =>
    rw [List.mem_cons, not_or] at h
    rw [List.isChain_cons]
    refine ⟨?_, ih h.2⟩
    rintro b - ⟨rfl, -⟩
    exact h.1 rfl

theorem hexValue_feed {a u : ℕ} (h : hexValue a = some u) : a ≠ 10 := by
  rintro rfl
  cases h

theorem hex4_feed {a b c d u : ℕ} (h : hex4 a b c d = some u) : 10 ∉ [a, b, c, d] := by
  unfold hex4 at h
  split at h
  · next ha hb hc hd =>
    have ha' := hexValue_feed ha
    have hb' := hexValue_feed hb
    have hc' := hexValue_feed hc
    have hd' := hexValue_feed hd
    simp only [List.mem_cons, List.not_mem_nil, or_false, not_or]
    omega
  · cases h

/- A string holds no line feed. -/
theorem StringTail.no_feed {t : Str} (h : StringTail t) : 10 ∉ t := by
  induction h with
  | close => decide
  | letter hquote hslash hcontrol _ ih =>
    rw [List.mem_cons, not_or]
    exact ⟨by omega, ih⟩
  | short hne hu _ ih =>
    rw [List.mem_cons, List.mem_cons, not_or, not_or]
    refine ⟨by decide, ?_, ih⟩
    rintro rfl
    cases hu
  | unicode hu _ ih =>
    have hletters := hex4_feed hu
    simp only [List.mem_cons, List.not_mem_nil, or_false, not_or] at hletters ⊢
    exact ⟨by decide, by decide, hletters.1, hletters.2.1, hletters.2.2.1, hletters.2.2.2, ih⟩

theorem tokens_tidy : Tokens Tidy where
  nil := ⟨by simp, by simp⟩
  append := tidy_append
  letter := fun c _ hc => ⟨by simpa using hc, by simp⟩
  string := by
    intro t ht
    refine tidy_without_feed _ (by simp) ?_
    rw [List.mem_cons, not_or]
    exact ⟨by decide, ht.no_feed⟩

/-- No line of a JSON text begins with a backtick. -/
theorem loads_tidy {readFloat : FloatText → Option FloatText} {s : Str} {v : PyJson}
    (h : loads readFloat s = some v) : Tidy s :=
  loads_tokens tokens_tidy h

end ParallelForge.Base.PyJson
