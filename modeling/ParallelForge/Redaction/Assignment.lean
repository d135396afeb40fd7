import ParallelForge.Redaction.Reading

/-!
# Labelled assignments

A label has no `:` or `=`, so the first of them behind the start of a match is
its separator, and the value starts at the first visible letter behind that.
The value is quoted, an auth scheme with its value, or one visible word.
-/

namespace ParallelForge.Redaction
open Base Regex

/-! ### Values -/

section value
variable {T : Text} {i j k n p q : ℕ}

def isQuote (c : ℕ) : Bool := (text "\"'").contains (foldCase c)

def notQuote (c : ℕ) : Bool := !(text "\"'").contains c

/-- `[^\s,;]`. -/
def wordLetter (c : ℕ) : Bool := !isSpaceCode c && !(text ",;").contains c

def quotedValue : Regex ℕ := seqs [among "\"'", plus (noneOf "\"'"), among "\"'"]

def bareValue : Regex ℕ := alt schemeValue (plus (solid ",;"))

def valueForm : Regex ℕ := alt quotedValue bareValue

/-- A quoted value at a position, with the length of what is quoted. -/
structure QuotedAt (T : Text) (i n : ℕ) : Prop where
  open_ : T[i]?.any isQuote = true
  length : n = run notQuote T (i + 1)
  some_letter : 1 ≤ n
  close : T[i + 1 + n]?.any isQuote = true

theorem quote_cases (c : ℕ) (h : isQuote c = true) : c = 34 ∨ c = 39 := by
  rw [isQuote, List.contains_iff_mem] at h
  have hfold : foldCase c = 34 ∨ foldCase c = 39 := by simpa [text] using h
  rcases hfold with h | h
  · exact Or.inl (fold_eq_sign c 34 (by decide) h)
  · exact Or.inr (fold_eq_sign c 39 (by decide) h)

theorem isQuote_notQuote (c : ℕ) : isQuote c = !notQuote c := by
  by_cases h : isQuote c = true
  · rcases quote_cases c h with rfl | rfl
    · decide
    · decide
  · have hnot : notQuote c = true := by
      rw [notQuote, Bool.not_eq_true', ← Bool.not_eq_true, List.contains_iff_mem]
      intro hmem
      have hc : c = 34 ∨ c = 39 := by simpa [text] using hmem
      rcases hc with rfl | rfl
      · exact h (by decide)
      · exact h (by decide)
    rw [hnot]
    simpa using h

theorem mem_ends_quoted : j ∈ ends T quotedValue i ↔ ∃ n, QuotedAt T i n ∧ j = i + n + 2 := by
  rw [quotedValue]
  constructor
  · intro h
    obtain ⟨a, ha, h₁⟩ := mem_ends_seqs_cons.mp h
    obtain ⟨b, hb, h₂⟩ := mem_ends_seqs_cons.mp h₁
    obtain ⟨hopen, rfl⟩ := mem_ends_chr.mp ha
    obtain ⟨hclose, rfl⟩ := mem_ends_chr.mp h₂
    have hend := run_end_of_mem (n := 1) hb (by
      obtain ⟨c, hc, hquote⟩ := (Option.any_eq_true _ _).mp hclose
      rw [hc]
      have hsame := isQuote_notQuote c
      rw [show isQuote c = true from hquote] at hsame
      show notQuote c = false
      simpa using hsame.symm)
    have hlen := (mem_ends_plus.mp hb).1
    change b = i + 1 + run notQuote T (i + 1) at hend
    refine ⟨run notQuote T (i + 1), ⟨hopen, rfl, by omega, ?_⟩, by omega⟩
    rw [← hend]
    exact hclose
  · rintro ⟨n, h, rfl⟩
    have hplus : i + 1 + n ∈ ends T (plus (noneOf "\"'")) (i + 1) := by
      have hlen := h.length
      have hpos := h.some_letter
      refine mem_ends_plus.mpr ⟨by omega, ?_⟩
      show i + 1 + n ≤ i + 1 + run notQuote T (i + 1)
      omega
    refine mem_ends_seqs_cons.mpr ⟨i + 1, mem_ends_chr.mpr ⟨h.open_, rfl⟩,
      mem_ends_seqs_cons.mpr ⟨i + 1 + n, hplus, mem_ends_chr.mpr ⟨h.close, by omega⟩⟩⟩

theorem quoted_head (h : QuotedAt T i n) : (ends T quotedValue i).head? = some (i + n + 2) := by
  have hmem := mem_ends_quoted.mpr ⟨n, h, rfl⟩
  cases hhead : (ends T quotedValue i).head? with
  | none =>
    rw [List.head?_eq_none_iff] at hhead
    rw [hhead] at hmem
    cases hmem
  | some j =>
    obtain ⟨n', h', rfl⟩ := mem_ends_quoted.mp (List.mem_of_mem_head? (Option.mem_def.mpr hhead))
    rw [h.length, h'.length]

/-- An auth scheme with its value: where the scheme ends, and where its value starts. -/
structure SchemeAt (T : Text) (i k p : ℕ) : Prop where
  scheme : k ∈ ends T scheme i
  spaces : 1 ≤ run isSpaceCode T k
  start : p = k + run isSpaceCode T k
  some_letter : 1 ≤ run wordLetter T p

theorem visible_word (c : ℕ) (h : wordLetter c = true) : isVisible c = true := visible_solid ",;" c h

theorem schemeValue_head (h : SchemeAt T i k p) :
    (ends T schemeValue i).head? = some (p + run wordLetter T p) := by
  have hspace : ∀ k', T[k']?.any isSpaceCode = true → ends T (plus (solid ",;")) k' = [] := by
    intro k' hk'
    rw [← List.head?_eq_none_iff]
    show (ends T (plus (.chr wordLetter)) k').head? = none
    rw [head_ends_plus, if_neg]
    have hzero : run wordLetter T k' = 0 := by
      refine run_eq_zero ?_
      by_contra hone
      rw [Bool.not_eq_false] at hone
      rw [any_visible visible_word hone] at hk'
      cases hk'
    omega
  have hsteps : ends T schemeValue i = (ends T scheme i).flatMap fun k =>
      (ends T (atLeast space 1) k).flatMap (ends T (plus (solid ",;"))) := by
    show ends T (seqs [scheme, atLeast space 1, plus (solid ",;")]) i = _
    rw [ends_seqs_cons]
    exact List.flatMap_congr fun k _ => ends_seqs_cons _ [plus (solid ",;")] k
  rw [hsteps, scheme_first h.scheme, spaces_first _ hspace h.spaces, ← h.start]
  show (ends T (plus (.chr wordLetter)) p).head? = _
  rw [head_ends_plus, if_pos h.some_letter]

theorem schemeValue_path (h : j ∈ ends T schemeValue i) : ∃ k p, SchemeAt T i k p := by
  rw [schemeValue] at h
  obtain ⟨k, hk, h₁⟩ := mem_ends_seqs_cons.mp h
  obtain ⟨p, hp, h₂⟩ := mem_ends_seqs_cons.mp h₁
  have hword := mem_ends_plus.mp h₂
  change p + 1 ≤ j ∧ j ≤ p + run wordLetter T p at hword
  have hfirst : T[p]?.any wordLetter = true := covers_run wordLetter p p le_rfl (by omega)
  have hend := end_of_spaces (n := 1) hp (any_visible visible_word hfirst)
  have hplus := mem_ends_atLeast (n := 1).mp hp
  exact ⟨k, p, hk, by omega, hend, by omega⟩

/-- How the matcher reads a value. -/
inductive ValueAt (T : Text) (i : ℕ) : ℕ → Prop
  | quoted (n : ℕ) (h : QuotedAt T i n) : ValueAt T i (i + n + 2)
  | scheme (k p : ℕ) (hquoted : ∀ n, ¬ QuotedAt T i n) (h : SchemeAt T i k p) :
    ValueAt T i (p + run wordLetter T p)
  | word (hquoted : ∀ n, ¬ QuotedAt T i n) (hscheme : ∀ k p, ¬ SchemeAt T i k p)
    (h : 1 ≤ run wordLetter T i) : ValueAt T i (i + run wordLetter T i)

theorem no_quoted (h : ∀ n, ¬ QuotedAt T i n) : ends T quotedValue i = [] := by
  rw [List.eq_nil_iff_forall_not_mem]
  intro j hj
  obtain ⟨n, hn, _⟩ := mem_ends_quoted.mp hj
  exact h n hn

theorem no_scheme (h : ∀ k p, ¬ SchemeAt T i k p) : ends T schemeValue i = [] := by
  rw [List.eq_nil_iff_forall_not_mem]
  intro j hj
  obtain ⟨k, p, hk⟩ := schemeValue_path hj
  exact h k p hk

theorem value_head (h : ValueAt T i j) : (ends T valueForm i).head? = some j := by
  rw [valueForm, ends, List.head?_append]
  cases h with
  | quoted n h =>
    rw [quoted_head h]
    rfl
  | scheme k p hquoted h =>
    rw [no_quoted hquoted, bareValue, ends, List.head?_append, schemeValue_head h]
    rfl
  | word hquoted hscheme h =>
    rw [no_quoted hquoted, bareValue, ends, List.head?_append, no_scheme hscheme]
    show (ends T (plus (.chr wordLetter)) i).head? = _
    rw [head_ends_plus, if_pos h]

theorem valueAt_of_mem (h : j ∈ ends T valueForm i) : ∃ j', ValueAt T i j' := by
  by_cases hquoted : ∃ n, QuotedAt T i n
  · obtain ⟨n, hn⟩ := hquoted
    exact ⟨_, .quoted n hn⟩
  · have hnone : ∀ n, ¬ QuotedAt T i n := fun n hn => hquoted ⟨n, hn⟩
    by_cases hscheme : ∃ k p, SchemeAt T i k p
    · obtain ⟨k, p, hk⟩ := hscheme
      exact ⟨_, .scheme k p hnone hk⟩
    · have hno : ∀ k p, ¬ SchemeAt T i k p := fun k p hk => hscheme ⟨k, p, hk⟩
      rw [valueForm, mem_ends_alt, no_quoted hnone, bareValue, mem_ends_alt, no_scheme hno] at h
      have hword : j ∈ ends T (plus (solid ",;")) i := by simpa using h
      have hrange := mem_ends_plus.mp hword
      change i + 1 ≤ j ∧ j ≤ i + run wordLetter T i at hrange
      exact ⟨_, .word hnone hno (by omega)⟩

theorem valueAt_iff : ValueAt T i j ↔ (ends T valueForm i).head? = some j := by
  constructor
  · exact value_head
  · intro h
    obtain ⟨j', hj'⟩ := valueAt_of_mem (List.mem_of_mem_head? (Option.mem_def.mpr h))
    have hsame := value_head hj'
    rw [h] at hsame
    cases hsame
    exact hj'

/- A value starts with something visible. -/
theorem value_visible (h : ValueAt T i j) : T[i]?.any isSpaceCode = false := by
  cases h with
  | quoted n h =>
    obtain ⟨c, hc, hquote⟩ := (Option.any_eq_true _ _).mp h.open_
    rw [hc]
    rcases quote_cases c hquote with rfl | rfl
    · rfl
    · rfl
  | scheme k p hquoted h =>
    have hvisible : ∀ w : String, (∀ c ∈ text w, 33 ≤ c ∧ c ≤ 126) → 0 < (text w).length →
        Reads T i (text w) → T[i]?.any isSpaceCode = false := by
      intro w hw hpos hread
      have hany := hread.any isVisible 0 hpos fun c hc d hd =>
        visible_of_fold d (hd ▸ (hw c hc).1) (hd ▸ (hw c hc).2)
      rw [Nat.add_zero] at hany
      exact any_visible (fun c hc => hc) hany
    rcases mem_ends_scheme.mp h.scheme with hread | hread
    · exact hvisible "bearer" (by decide) (by decide) hread.1
    · exact hvisible "basic" (by decide) (by decide) hread.1
  | word hquoted hscheme h =>
    have hfirst : T[i]?.any wordLetter = true := covers_run wordLetter i i le_rfl (by omega)
    exact any_visible visible_word hfirst

end value

/-! ### Labels -/

section label
variable (isAlnum : ℕ → Bool) {T : Text} {i j l s p q e : ℕ}

def notSeparator (c : ℕ) : Bool := !(c == 58 || c == 61)

/-- What a label is written in. -/
def labelLetter (c : ℕ) : Bool :=
  (97 ≤ foldCase c && foldCase c ≤ 122) || c == 45 || c == 95 || c == 32

theorem labelLetter_of_fold (c : ℕ) (h : 97 ≤ foldCase c ∧ foldCase c ≤ 122) :
    labelLetter c = true := by
  simp [labelLetter, h]

theorem separator_cases (c : ℕ) (h : ¬ notSeparator c = true) : c = 58 ∨ c = 61 := by
  rw [notSeparator, Bool.not_eq_true', Bool.not_eq_false, Bool.or_eq_true, beq_iff_eq,
    beq_iff_eq] at h
  exact h

theorem notSeparator_label (c : ℕ) (h : labelLetter c = true) : notSeparator c = true := by
  by_contra hsep
  rcases separator_cases c hsep with rfl | rfl
  · revert h
    decide
  · revert h
    decide

theorem notSeparator_space (c : ℕ) (h : isSpaceCode c = true) : notSeparator c = true := by
  by_contra hsep
  rcases separator_cases c hsep with rfl | rfl
  · revert h
    decide
  · revert h
    decide

theorem within_label_lit (w : String) (h : ∀ c ∈ text w, 97 ≤ c ∧ c ≤ 122) :
    Within labelLetter (lit w) :=
  within_lit w fun c hc d hd => labelLetter_of_fold d (hd ▸ h c hc)

theorem within_label_opt {r : Regex ℕ} (h : Within labelLetter r) : Within labelLetter (opt r) :=
  ⟨h, trivial⟩

theorem within_label_among (w : String) (h : ∀ c ∈ text w, c = 45 ∨ c = 95 ∨ c = 32) :
    Within labelLetter (among w) := by
  intro c hc
  rw [List.contains_iff_mem] at hc
  have hfold := h _ hc
  have hsign : c = 45 ∨ c = 95 ∨ c = 32 := by
    rcases hfold with hfold | hfold | hfold
    · exact Or.inl (fold_eq_sign c 45 (by decide) hfold)
    · exact Or.inr (Or.inl (fold_eq_underscore c hfold))
    · exact Or.inr (Or.inr (fold_eq_sign c 32 (by decide) hfold))
  rcases hsign with rfl | rfl | rfl
  · decide
  · decide
  · decide

theorem label_within : Within labelLetter label :=
  ⟨⟨within_label_lit "api" (by decide), within_label_opt (within_label_among "-_ " (by decide)),
      within_label_lit "key" (by decide), within_label_lit "token" (by decide)⟩,
    ⟨within_label_lit "access" (by decide), within_label_opt (within_label_among "-_" (by decide)),
      within_label_lit "token" (by decide)⟩,
    ⟨within_label_lit "refresh" (by decide), within_label_opt (within_label_among "-_" (by decide)),
      within_label_lit "token" (by decide)⟩,
    ⟨within_label_lit "auth" (by decide), within_label_opt (within_label_lit "orization" (by decide))⟩,
    within_label_lit "password" (by decide), within_label_lit "secret" (by decide),
    within_label_lit "credential" (by decide), within_label_lit "token" (by decide)⟩

def labelStart : Regex ℕ := opt (seq (lit "x") (opt (among "-_ ")))

theorem labelStart_within : Within labelLetter labelStart :=
  within_label_opt ⟨within_label_lit "x" (by decide),
    within_label_opt (within_label_among "-_ " (by decide))⟩

/-- How the matcher gets to a value: the end of the label, the separator, and the start. -/
structure LeadAt (T : Text) (i l s p : ℕ) : Prop where
  edge : AtEdge isAlnum T i
  label : Covers T labelLetter i l
  reach : i ≤ l ∧ l ≤ s
  spaces : Covers T isSpaceCode l s
  sign : T[s]? = some 58 ∨ T[s]? = some 61
  value : s + 1 ≤ p ∧ p ≤ s + 1 + run isSpaceCode T (s + 1)

theorem lead_path (h : p ∈ ends T (assignmentLead isAlnum) i) :
    ∃ l s, LeadAt isAlnum T i l s p := by
  rw [assignmentLead] at h
  obtain ⟨a, ha, h₁⟩ := mem_ends_seqs_cons.mp h
  obtain ⟨b, hb, h₂⟩ := mem_ends_seqs_cons.mp h₁
  obtain ⟨l, hl, h₃⟩ := mem_ends_seqs_cons.mp h₂
  obtain ⟨s, hs, h₄⟩ := mem_ends_seqs_cons.mp h₃
  obtain ⟨v, hv, h₅⟩ := mem_ends_seqs_cons.mp h₄
  obtain ⟨hedge, rfl⟩ := (mem_ends_edge isAlnum).mp ha
  obtain ⟨hsign, rfl⟩ := mem_ends_chr.mp hv
  have hspaces := mem_ends_star.mp hs
  have hvalue := mem_ends_star.mp h₅
  have hb' := ends_ge _ hb
  have hl' := ends_ge _ hl
  have hsep : T[s]? = some 58 ∨ T[s]? = some 61 := by
    obtain ⟨c, hc, hmem⟩ := (Option.any_eq_true _ _).mp hsign
    rw [List.contains_iff_mem] at hmem
    have hfold : foldCase c = 58 ∨ foldCase c = 61 := by simpa [text] using hmem
    rw [hc]
    rcases hfold with hfold | hfold
    · exact Or.inl (congrArg some (fold_eq_sign c 58 (by decide) hfold))
    · exact Or.inr (congrArg some (fold_eq_sign c 61 (by decide) hfold))
  refine ⟨l, s, hedge, ?_, ⟨by omega, hspaces.1⟩, fun k hlk hks => ?_, hsep, hvalue⟩
  · exact covers_trans (ends_covers _ labelStart_within _ _ hb) (ends_covers _ label_within _ _ hl)
  · exact covers_run isSpaceCode l k hlk (by omega)

/-- The first separator behind a position, and the first visible letter behind that. -/
def separatorOf (T : Text) (i : ℕ) : ℕ := i + run notSeparator T i

def valueStart (T : Text) (i : ℕ) : ℕ :=
  separatorOf T i + 1 + run isSpaceCode T (separatorOf T i + 1)

theorem any_imp {a b : ℕ → Bool} (hab : ∀ c, a c = true → b c = true) {k : ℕ}
    (h : T[k]?.any a = true) : T[k]?.any b = true := by
  obtain ⟨c, hc, hac⟩ := (Option.any_eq_true _ _).mp h
  rw [hc]
  exact hab c hac

theorem LeadAt.separator (h : LeadAt isAlnum T i l s p) : s = separatorOf T i := by
  obtain ⟨hil, hls⟩ := h.reach
  have hquiet : Covers T notSeparator i s :=
    covers_trans (fun k hik hkl => any_imp notSeparator_label (h.label k hik hkl))
      fun k hlk hks => any_imp notSeparator_space (h.spaces k hlk hks)
  have hrun : run notSeparator T i = s - i := by
    refine run_eq _ (fun k hk => hquiet (i + k) (by omega) (by omega)) ?_
    rw [Nat.add_sub_cancel' (by omega)]
    rcases h.sign with hs | hs
    · rw [hs]
      rfl
    · rw [hs]
      rfl
  rw [separatorOf, hrun]
  omega

theorem LeadAt.start (h : LeadAt isAlnum T i l s p) (hvisible : T[p]?.any isSpaceCode = false) :
    p = valueStart T i := by
  have hs := h.separator
  obtain ⟨hlow, hhigh⟩ := h.value
  rw [valueStart, ← hs]
  by_contra hne
  have hget : T[p]?.any isSpaceCode = true := covers_run isSpaceCode (s + 1) p (by omega) (by omega)
  rw [hvisible] at hget
  cases hget

/- Only the start of the value can be continued. -/
theorem lead_unique (hp : p ∈ ends T (assignmentLead isAlnum) i) (hne : p ≠ valueStart T i) :
    ends T valueForm p = [] := by
  obtain ⟨l, s, hlead⟩ := lead_path isAlnum hp
  rw [List.eq_nil_iff_forall_not_mem]
  intro j hj
  obtain ⟨j', hvalue⟩ := valueAt_of_mem hj
  exact hne (hlead.start isAlnum (value_visible hvalue))

theorem ends_assignment (i : ℕ) : ends T (assignment isAlnum) i =
    (ends T (assignmentLead isAlnum) i).flatMap (ends T valueForm) := by
  show ends T (seqs ([wordEdge isAlnum, labelStart, label, star space, among ":=", star space] ++
    [valueForm])) i = _
  rw [ends_seqs_append]
  rfl

/-- The value decides where an assignment ends. -/
theorem assignment_matchAt (hp : p ∈ ends T (assignmentLead isAlnum) i) (hvalue : ValueAt T p j) :
    matchAt T (assignment isAlnum) i = some j := by
  obtain ⟨l, s, hlead⟩ := lead_path isAlnum hp
  have hstart := hlead.start isAlnum (value_visible hvalue)
  rw [matchAt, ends_assignment, head_flatMap_unique _ _ p hp fun k hk hne =>
    lead_unique isAlnum hk (hstart ▸ hne), value_head hvalue]

/-- The secret of a value: what is between the quotes, or all of it. -/
inductive SecretAt (T : Text) (i : ℕ) : ℕ → ℕ → ℕ → Prop
  | quoted (n : ℕ) (h : QuotedAt T i n) : SecretAt T i (i + 1) (i + 1 + n) (i + n + 2)
  | bare (j : ℕ) (hquoted : ∀ n, ¬ QuotedAt T i n) (h : ValueAt T i j) : SecretAt T i i j j

theorem spans_value (k : ℕ) : (([quotedForm, bareForm] : List _).flatMap fun f =>
    formSpans T f k).map (·.2.2) = ends T valueForm k := by
  rw [List.map_flatMap]
  simp only [formSpans_end, List.flatMap_cons, List.flatMap_nil, List.append_nil, bareForm,
    ends_bare]
  rfl

theorem assignment_secret (h : (assignmentCredential isAlnum).secret T i = some (p, q, e)) :
    ∃ v l s, v ∈ ends T (assignmentLead isAlnum) i ∧ LeadAt isAlnum T i l s v ∧
      v = valueStart T i ∧ ValueAt T v e ∧ SecretAt T v p q e := by
  rw [Credential.secret, Credential.spans] at h
  obtain ⟨v, hv, hform⟩ := head_flatMap_some h
  obtain ⟨l, s, hlead⟩ := lead_path isAlnum hv
  change (([quotedForm, bareForm] : List _).flatMap fun f => formSpans T f v).head? =
    some (p, q, e) at hform
  have hend : (ends T valueForm v).head? = some e := by
    rw [← spans_value, List.head?_map, hform]
    rfl
  have hmem := List.mem_of_mem_head? (Option.mem_def.mpr hend)
  obtain ⟨e', hvalue⟩ := valueAt_of_mem hmem
  have hsame := value_head hvalue
  rw [hend] at hsame
  cases hsame
  have hstart := hlead.start isAlnum (value_visible hvalue)
  refine ⟨v, l, s, hv, hlead, hstart, hvalue, ?_⟩
  rw [List.flatMap_cons, List.flatMap_singleton, List.head?_append] at hform
  by_cases hquoted : ∃ n, QuotedAt T v n
  · -- the quoted form comes first
    obtain ⟨n, hn⟩ := hquoted
    have hhead := quoted_head hn
    have hspans : (formSpans T quotedForm v).map (·.2.2) = ends T quotedValue v := by
      rw [formSpans_end]
      rfl
    cases hq : (formSpans T quotedForm v).head? with
    | none =>
      rw [List.head?_eq_none_iff] at hq
      rw [hq, List.map_nil] at hspans
      rw [← hspans] at hhead
      cases hhead
    | some span =>
      rw [hq] at hform
      cases hform
      have hspan := List.mem_of_mem_head? (Option.mem_def.mpr hq)
      obtain ⟨hp, hq, he⟩ := mem_formSpans.mp hspan
      obtain ⟨_, rfl⟩ := mem_ends_chr.mp hp
      obtain ⟨_, rfl⟩ := mem_ends_chr.mp he
      rw [← hspans, List.head?_map, ‹(formSpans T quotedForm v).head? = _›] at hhead
      have hq' : q = v + 1 + n := by
        have hlen := Option.some.inj hhead
        simp only at hlen
        omega
      subst hq'
      have heq : v + 1 + n + 1 = v + n + 2 := by omega
      rw [heq]
      exact .quoted n hn
  · have hnone : ∀ n, ¬ QuotedAt T v n := fun n hn => hquoted ⟨n, hn⟩
    have hempty : formSpans T quotedForm v = [] := by
      have hspans : (formSpans T quotedForm v).map (·.2.2) = ends T quotedValue v := by
        rw [formSpans_end]
        rfl
      rw [no_quoted hnone] at hspans
      exact List.map_eq_nil_iff.mp hspans
    rw [hempty, List.head?_nil, Option.none_or, bareForm, formSpans_bare, List.head?_map] at hform
    obtain ⟨j, hj, heq⟩ := Option.map_eq_some_iff.mp hform
    cases heq
    exact .bare _ hnone hvalue

end label

end ParallelForge.Redaction
