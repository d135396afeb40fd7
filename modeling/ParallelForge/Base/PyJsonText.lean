import ParallelForge.Base.PyJsonRoundTrip

/-!
# Texts that `json.dumps` writes

In ASCII a value is written in printable letters, with a backtick only where a string
has one, and no string hides the beginning of an object from a search for it. The value
read back is written the same again.
-/

namespace ParallelForge.Base.PyJson
open Json

/-! ## The parts of a value -/

mutual
/-- A value and the values inside it. -/
def parts : PyJson → List PyJson
  | .arr vs => .arr vs :: partsItems vs
  | .obj ms => .obj ms :: partsMembers ms
  | .null => [.null]
  | .bool b => [.bool b]
  | .int z => [.int z]
  | .float f => [.float f]
  | .constant c => [.constant c]
  | .str s => [.str s]

def partsItems : List PyJson → List PyJson
  | [] => []
  | v :: vs => parts v ++ partsItems vs

def partsMembers : List (Str × PyJson) → List PyJson
  | [] => []
  | (_, v) :: ms => parts v ++ partsMembers ms
end

/-- The strings a value has itself, the keys of an object among them. -/
def texts : PyJson → List Str
  | .str s => [s]
  | .obj ms => ms.map Prod.fst
  | _ => []

theorem parts_self (v : PyJson) : v ∈ parts v := by
  cases v <;> simp [parts]

theorem mem_parts_arr {vs : List PyJson} {u : PyJson} :
    u ∈ parts (.arr vs) ↔ u = .arr vs ∨ ∃ v ∈ vs, u ∈ parts v := by
  have hitems : partsItems vs = vs.flatMap parts := by
    induction vs with
    | nil => rfl
    | cons v vs ih => rw [partsItems, List.flatMap_cons, ih]
  rw [parts, List.mem_cons, hitems, List.mem_flatMap]

theorem mem_parts_obj {ms : List (Str × PyJson)} {u : PyJson} :
    u ∈ parts (.obj ms) ↔ u = .obj ms ∨ ∃ p ∈ ms, u ∈ parts p.2 := by
  have hmembers : partsMembers ms = ms.flatMap fun p => parts p.2 := by
    induction ms with
    | nil => rfl
    | cons p ms ih =>
      obtain ⟨k, v⟩ := p
      rw [partsMembers, List.flatMap_cons, ih]
  rw [parts, List.mem_cons, hmembers, List.mem_flatMap]

theorem forall_parts_arr {Q : PyJson → Prop} {vs : List PyJson} (h : ∀ u ∈ parts (.arr vs), Q u) :
    ∀ v ∈ vs, ∀ u ∈ parts v, Q u :=
  fun v hv u hu => h u (mem_parts_arr.mpr (Or.inr ⟨v, hv, hu⟩))

theorem forall_parts_obj {Q : PyJson → Prop} {ms : List (Str × PyJson)}
    (h : ∀ u ∈ parts (.obj ms), Q u) : ∀ p ∈ ms, ∀ u ∈ parts p.2, Q u :=
  fun p hp u hu => h u (mem_parts_obj.mpr (Or.inr ⟨p, hp, hu⟩))

/-! ## Letters -/

theorem hexDigit_letter (n : ℕ) (h : n < 16) :
    32 ≤ hexDigit n ∧ hexDigit n < 127 ∧ hexDigit n ≠ 96 ∧ hexDigit n ≠ 123 := by
  unfold hexDigit
  split <;> omega

theorem unicodeEscape_letters (n : ℕ) : ∃ word, unicodeEscape n = 92 :: word ∧
    ∀ d ∈ word, 32 ≤ d ∧ d < 127 ∧ d ≠ 96 ∧ d ≠ 123 := by
  have hhex : ∀ k, 32 ≤ hexDigit (k % 16) ∧ hexDigit (k % 16) < 127 ∧ hexDigit (k % 16) ≠ 96 ∧
      hexDigit (k % 16) ≠ 123 := fun k => hexDigit_letter _ (Nat.mod_lt _ (by decide))
  refine ⟨_, rfl, ?_⟩
  simp only [List.forall_mem_cons, List.not_mem_nil, false_imp_iff, implies_true, and_true]
  exact ⟨by decide, hhex _, hhex _, hhex _, hhex _⟩

theorem shortEscape_letter {c e : ℕ} (h : shortEscape c = some e) :
    32 ≤ e ∧ e < 127 ∧ e ≠ 96 ∧ e ≠ 123 := by
  unfold shortEscape at h
  split_ifs at h <;> cases h <;> decide

/- A letter stands for itself, or a backslash and other letters for it. -/
theorem escape_form (c : ℕ) :
    (escape true c = [c] ∧ 32 ≤ c ∧ c < 127 ∧ c ≠ 34) ∨
    ∃ word, escape true c = 92 :: word ∧ ∀ d ∈ word, 32 ≤ d ∧ d < 127 ∧ d ≠ 96 ∧ d ≠ 123 := by
  unfold escape
  cases hshort : shortEscape c with
  | some e =>
    refine Or.inr ⟨[e], rfl, ?_⟩
    rw [List.forall_mem_singleton]
    exact shortEscape_letter hshort
  | none =>
    have hquote := (shortEscape_none c hshort).1
    simp only
    split
    · exact Or.inr (unicodeEscape_letters c)
    split
    · next hplain =>
      have hlt : c < 127 := by simpa using hplain
      exact Or.inl ⟨rfl, by omega, hlt, hquote⟩
    split
    · exact Or.inr (unicodeEscape_letters c)
    · obtain ⟨w, hw, hwords⟩ := unicodeEscape_letters (highSurrogate c)
      obtain ⟨w', hw', hwords'⟩ := unicodeEscape_letters (lowSurrogate c)
      refine Or.inr ⟨w ++ 92 :: w', by rw [hw, hw']; rfl, ?_⟩
      rw [List.forall_mem_append, List.forall_mem_cons]
      exact ⟨hwords, by decide, hwords'⟩

/-- A printable letter other than the backtick. -/
def Letter (c : ℕ) : Prop := 32 ≤ c ∧ c < 127 ∧ c ≠ 96

theorem stringText_letters (s : Str) (h : 96 ∉ s) : ∀ c ∈ stringText true s, Letter c := by
  intro c hc
  rw [stringText, List.mem_cons, List.mem_append, List.mem_flatMap, List.mem_singleton] at hc
  rcases hc with rfl | ⟨d, hd, hc⟩ | rfl
  · unfold Letter
    omega
  · rcases escape_form d with ⟨hself, hlo, hhi, -⟩ | ⟨word, hword, hall⟩
    · rw [hself, List.mem_singleton] at hc
      rw [hc]
      refine ⟨hlo, hhi, ?_⟩
      rintro rfl
      exact h hd
    · rw [hword, List.mem_cons] at hc
      rcases hc with rfl | hc
      · unfold Letter
        omega
      · have hletter := hall c hc
        exact ⟨hletter.1, hletter.2.1, hletter.2.2.1⟩
  · unfold Letter
    omega

variable {spaced ascii : Bool}

theorem gap_letters : ∀ c ∈ gap spaced, Letter c := by
  cases spaced with
  | true => simp [gap, Letter]
  | false => simp [gap]

variable {P : ℕ → Prop} (hP : ∀ c, Letter c → P c)
include hP

theorem renderItems_all (vs : List PyJson) (h : ∀ v ∈ vs, ∀ c ∈ render spaced ascii v, P c) :
    ∀ c ∈ renderItems spaced ascii vs, P c := by
  induction vs with
  | nil => exact fun c hc => hP c (by simp [renderItems, Letter] at hc ⊢; omega)
  | cons v vs ih =>
    rw [List.forall_mem_cons] at h
    rw [renderItems, List.forall_mem_cons, List.forall_mem_append, List.forall_mem_append]
    exact ⟨hP 44 (by simp [Letter]), fun c hc => hP c (gap_letters c hc), h.1, ih h.2⟩

theorem renderMembers_all (ms : List (Str × PyJson)) (hkeys : ∀ p ∈ ms, ∀ c ∈ stringText ascii p.1, P c)
    (h : ∀ p ∈ ms, ∀ c ∈ render spaced ascii p.2, P c) :
    ∀ c ∈ renderMembers spaced ascii ms, P c := by
  have hgap : ∀ c ∈ gap spaced, P c := fun c hc => hP c (gap_letters c hc)
  induction ms with
  | nil => exact fun c hc => hP c (by simp [renderMembers, Letter] at hc ⊢; omega)
  | cons p ms ih =>
    obtain ⟨k, v⟩ := p
    rw [List.forall_mem_cons] at h hkeys
    rw [renderMembers, List.forall_mem_cons, List.forall_mem_append, List.forall_mem_append,
      List.forall_mem_cons, List.forall_mem_append, List.forall_mem_append]
    exact ⟨hP 44 (by simp [Letter]), hgap, hkeys.1, hP 58 (by simp [Letter]), hgap, h.1, ih hkeys.2 h.2⟩

omit hP

theorem intText_letters (z : ℤ) : ∀ c ∈ intText z, Letter c := by
  have hdecimal : ∀ c ∈ decimal z.natAbs, Letter c := by
    intro c hc
    have hdigit := isDigit_decimal _ c hc
    simp only [isDigit, Bool.and_eq_true, decide_eq_true_eq] at hdigit
    unfold Letter
    omega
  unfold intText
  split
  · rw [List.forall_mem_cons]
    exact ⟨by simp [Letter], hdecimal⟩
  · exact hdecimal

/-- A value is written in printable letters and the letters of its strings. -/
theorem render_all {P : ℕ → Prop} (hP : ∀ c, Letter c → P c) (v : PyJson) (hplain : Plain ascii v) :
    (∀ u ∈ parts v, ∀ s ∈ texts u, ∀ c ∈ stringText ascii s, P c) → ∀ c ∈ render spaced ascii v, P c := by
  have hword : ∀ word : Str, (∀ c ∈ word, Letter c) → ∀ c ∈ word, P c := fun word h c hc => hP c (h c hc)
  induction v using induct with
  | null => exact fun _ => hword _ (by simp [render, Letter, codes])
  | bool b =>
    intro _
    cases b with
    | true => exact hword _ (by simp [render, Letter, codes])
    | false => exact hword _ (by simp [render, Letter, codes])
  | int z => exact fun _ => hword _ (intText_letters z)
  | float f => exact absurd hplain (by simp [Plain])
  | constant c => exact absurd hplain (by simp [Plain])
  | str s => exact fun h => h _ (parts_self _) s (by simp [texts])
  | arr vs ih =>
    intro h
    rw [Plain, plainItems_iff] at hplain
    have hitems : ∀ v ∈ vs, ∀ c ∈ render spaced ascii v, P c :=
      fun v hv => ih v hv (hplain v hv) (forall_parts_arr h v hv)
    cases vs with
    | nil => exact hword _ (by simp [render, Letter])
    | cons v vs =>
      rw [List.forall_mem_cons] at hitems
      rw [render, List.forall_mem_cons, List.forall_mem_append]
      exact ⟨hP 91 (by simp [Letter]), hitems.1, renderItems_all hP vs hitems.2⟩
  | obj ms ih =>
    intro h
    rw [Plain, plainMembers_iff] at hplain
    have hvalues : ∀ p ∈ ms, ∀ c ∈ render spaced ascii p.2, P c :=
      fun p hp => ih p hp (hplain.2 p hp).2 (forall_parts_obj h p hp)
    have hkeys : ∀ p ∈ ms, ∀ c ∈ stringText ascii p.1, P c :=
      fun p hp => h _ (parts_self _) p.1 (List.mem_map_of_mem hp)
    cases ms with
    | nil => exact hword _ (by simp [render, Letter])
    | cons p ms =>
      obtain ⟨k, v⟩ := p
      rw [List.forall_mem_cons] at hvalues hkeys
      rw [render, List.forall_mem_cons, List.forall_mem_append, List.forall_mem_cons,
        List.forall_mem_append, List.forall_mem_append]
      exact ⟨hP 123 (by simp [Letter]), hkeys.1, hP 58 (by simp [Letter]), hword _ gap_letters, hvalues.1,
        renderMembers_all hP ms hkeys.2 hvalues.2⟩

/-- A value is written in printable letters, without a backtick where its strings have none. -/
theorem render_letters (v : PyJson) (hplain : Plain true v)
    (h : ∀ u ∈ parts v, ∀ s ∈ texts u, 96 ∉ s) : ∀ c ∈ render spaced true v, Letter c :=
  render_all (fun _ hc => hc) v hplain fun u hu s hs => stringText_letters s (h u hu s hs)

/-- Other than in ASCII a letter of a string from 127 on stands for itself. -/
theorem stringText_open (s : Str) : ∀ c ∈ stringText false s, (32 ≤ c ∧ c < 127) ∨ c ∈ s ∧ 127 ≤ c := by
  intro c hc
  rw [stringText, List.mem_cons, List.mem_append, List.mem_flatMap, List.mem_singleton] at hc
  have hquote : c = 34 → (32 ≤ c ∧ c < 127) ∨ c ∈ s ∧ 127 ≤ c := by omega
  rcases hc with hc | ⟨d, hd, hc⟩ | hc
  · exact hquote hc
  · have hescape : ∀ n, c ∈ unicodeEscape n → 32 ≤ c ∧ c < 127 := by
      intro n hn
      obtain ⟨word, hword, hall⟩ := unicodeEscape_letters n
      rw [hword, List.mem_cons] at hn
      rcases hn with rfl | hn
      · omega
      · exact ⟨(hall c hn).1, (hall c hn).2.1⟩
    unfold escape at hc
    cases hshort : shortEscape d with
    | some e =>
      have hletter := shortEscape_letter hshort
      simp only [hshort, List.mem_cons, List.not_mem_nil, or_false] at hc
      omega
    | none =>
      simp only [hshort, Bool.not_false, Bool.true_or, if_true] at hc
      split at hc
      · exact Or.inl (hescape d hc)
      · rw [List.mem_singleton] at hc
        rw [hc]
        by_cases hwide : 127 ≤ d
        · exact Or.inr ⟨hd, hwide⟩
        · exact Or.inl (by omega)
  · exact hquote hc

/-! ## Searching for an object -/

/-- `{"v`. -/
def opening : Str := [123, 34, 118]

/-- No object with a first key on `v` begins in a text, whatever comes behind it. -/
def Clear (t rest : Str) : Prop := ∀ k < t.length, ¬ opening <+: (t ++ rest).drop k

theorem clear_nil (rest : Str) : Clear [] rest := fun k hk => absurd hk (Nat.not_lt_zero k)

theorem clear_cons {c : ℕ} {t rest : Str} (hc : ¬ opening <+: c :: (t ++ rest)) (ht : Clear t rest) :
    Clear (c :: t) rest := by
  intro k hk
  cases k with
  | zero => exact hc
  | succ k =>
    rw [List.length_cons] at hk
    exact ht k (by omega)

theorem clear_append {t u rest : Str} (ht : Clear t (u ++ rest)) (hu : Clear u rest) :
    Clear (t ++ u) rest := by
  intro k hk
  rw [List.append_assoc]
  by_cases hkt : k < t.length
  · exact ht k hkt
  · rw [List.length_append] at hk
    rw [List.drop_append, List.drop_of_length_le (by omega), List.nil_append]
    exact hu (k - t.length) (by omega)

theorem not_opening {c : ℕ} {s : Str} (hc : c ≠ 123) : ¬ opening <+: c :: s := by
  intro h
  exact hc (List.cons_prefix_cons.mp h).1.symm

theorem clear_letter {c : ℕ} {t rest : Str} (hc : c ≠ 123) (ht : Clear t rest) : Clear (c :: t) rest :=
  clear_cons (not_opening hc) ht

theorem clear_letters {t rest : Str} (h : ∀ c ∈ t, c ≠ 123) : Clear t rest := by
  induction t with
  | nil => exact clear_nil rest
  | cons c t ih =>
    rw [List.forall_mem_cons] at h
    exact clear_letter h.1 (ih h.2)

/- What stands behind the first quote of a string. -/
theorem clear_escapes (s rest : Str) (hrest : rest.head? ≠ some 118) :
    Clear (s.flatMap (escape true) ++ [34]) rest := by
  induction s with
  | nil => exact clear_letters (by simp)
  | cons c s ih =>
    rw [List.flatMap_cons, List.append_assoc]
    rcases escape_form c with ⟨hself, -, -, -⟩ | ⟨word, hword, hall⟩
    · rw [hself, List.singleton_append]
      refine clear_cons ?_ ih
      intro hopen
      have hquote := (List.cons_prefix_cons.mp hopen).2
      -- a quote is the one that ends the string
      cases s with
      | nil =>
        have hv := (List.cons_prefix_cons.mp hquote).2
        obtain ⟨r, hr⟩ := hv
        have hrest' : rest = [118] ++ r := hr.symm
        exact hrest (by rw [hrest']; rfl)
      | cons d s =>
        rw [List.flatMap_cons] at hquote
        rcases escape_form d with ⟨hd, -, -, hne⟩ | ⟨word, hd, -⟩
        · rw [hd] at hquote
          exact hne (List.cons_prefix_cons.mp hquote).1.symm
        · rw [hd] at hquote
          exact absurd (List.cons_prefix_cons.mp hquote).1 (by decide)
    · rw [hword]
      refine clear_append (clear_letters ?_) ih
      rw [List.forall_mem_cons]
      exact ⟨by decide, fun d hd => (hall d hd).2.2.2⟩

theorem clear_string (s rest : Str) (hrest : rest.head? ≠ some 118) :
    Clear (stringText true s) rest := by
  rw [stringText]
  exact clear_letter (by decide) (clear_escapes s rest hrest)

/- An object with another first key. -/
theorem not_opening_key (k rest : Str) (hk : k.head? ≠ some 118) :
    ¬ opening <+: 123 :: (stringText true k ++ rest) := by
  intro h
  have hquote := (List.cons_prefix_cons.mp h).2
  rw [stringText, List.cons_append] at hquote
  have hv := (List.cons_prefix_cons.mp hquote).2
  cases k with
  | nil => exact absurd (List.cons_prefix_cons.mp hv).1 (by decide)
  | cons c k =>
    rw [List.flatMap_cons] at hv
    rcases escape_form c with ⟨hself, -⟩ | ⟨word, hword, -⟩
    · rw [hself] at hv
      rw [← (List.cons_prefix_cons.mp hv).1] at hk
      exact hk rfl
    · rw [hword] at hv
      exact absurd (List.cons_prefix_cons.mp hv).1 (by decide)

/-- A value that is cleared whatever follows, as long as no `v` does. -/
def Cleared (spaced : Bool) (v : PyJson) : Prop :=
  ∀ rest : Str, rest.head? ≠ some 118 → Clear (render spaced true v) rest

theorem clear_gap (rest : Str) : Clear (gap spaced) rest := by
  cases spaced with
  | true => exact clear_letters (by simp [gap])
  | false => exact clear_letters (by simp [gap])

theorem clear_items (vs : List PyJson) (rest : Str) (h : ∀ v ∈ vs, Cleared spaced v) :
    Clear (renderItems spaced true vs) rest := by
  induction vs with
  | nil => exact clear_letters (by simp [renderItems])
  | cons v vs ih =>
    rw [List.forall_mem_cons] at h
    rw [renderItems]
    refine clear_letter (by decide) (clear_append (clear_gap _) (clear_append (h.1 _ ?_) (ih h.2)))
    cases vs with
    | nil => simp [renderItems]
    | cons w vs => simp [renderItems]

theorem members_head (ms : List (Str × PyJson)) (rest : Str) :
    (renderMembers spaced ascii ms ++ rest).head? ≠ some 118 := by
  cases ms with
  | nil => simp [renderMembers]
  | cons p ms => simp [renderMembers]

theorem clear_members (ms : List (Str × PyJson)) (rest : Str) (h : ∀ p ∈ ms, Cleared spaced p.2) :
    Clear (renderMembers spaced true ms) rest := by
  induction ms with
  | nil => exact clear_letters (by simp [renderMembers])
  | cons p ms ih =>
    obtain ⟨k, v⟩ := p
    rw [List.forall_mem_cons] at h
    rw [renderMembers]
    refine clear_letter (by decide) (clear_append (clear_gap _) (clear_append (clear_string k _ (by simp)) ?_))
    exact clear_letter (by decide) (clear_append (clear_gap _)
      (clear_append (h.1 _ (members_head ms rest)) (ih h.2)))

/- Behind the brace an object is cleared with its values. -/
theorem clear_object (k : Str) (v : PyJson) (ms : List (Str × PyJson)) (rest : Str)
    (h : ∀ p ∈ (k, v) :: ms, Cleared spaced p.2) :
    Clear (stringText true k ++ 58 :: (gap spaced ++ (render spaced true v ++ renderMembers spaced true ms)))
      rest := by
  rw [List.forall_mem_cons] at h
  refine clear_append (clear_string k _ (by simp)) (clear_letter (by decide) ?_)
  exact clear_append (clear_gap _) (clear_append (h.1 _ (members_head ms rest)) (clear_members ms rest h.2))

/-- No object of the value has a first key on `v`. -/
def otherKeys : PyJson → Prop
  | .obj ms => ∀ p, ms.head? = some p → p.1.head? ≠ some 118
  | _ => True

theorem render_cleared (v : PyJson) (hplain : Plain ascii v) :
    (∀ u ∈ parts v, otherKeys u) → Cleared spaced v := by
  induction v using induct with
  | null => exact fun _ rest _ => clear_letters (by simp [render, codes])
  | bool b =>
    intro _ rest _
    cases b with
    | true => exact clear_letters (by simp [render, codes])
    | false => exact clear_letters (by simp [render, codes])
  | int z =>
    intro _ rest _
    apply clear_letters
    rintro c hc rfl
    rw [render] at hc
    unfold intText at hc
    split at hc
    · rw [List.mem_cons] at hc
      rcases hc with hc | hc
      · cases hc
      · cases isDigit_decimal _ _ hc
    · cases isDigit_decimal _ _ hc
  | float f => exact absurd hplain (by simp [Plain])
  | constant c => exact absurd hplain (by simp [Plain])
  | str s => exact fun _ rest hrest => clear_string s rest hrest
  | arr vs ih =>
    intro h rest hrest
    rw [Plain, plainItems_iff] at hplain
    have hitems : ∀ v ∈ vs, Cleared spaced v := fun v hv => ih v hv (hplain v hv) (forall_parts_arr h v hv)
    cases vs with
    | nil => exact clear_letters (by simp [render])
    | cons v vs =>
      rw [List.forall_mem_cons] at hitems
      rw [render]
      refine clear_letter (by decide) (clear_append (hitems.1 _ ?_) (clear_items vs rest hitems.2))
      cases vs with
      | nil => simp [renderItems]
      | cons w vs => simp [renderItems]
  | obj ms ih =>
    intro h rest hrest
    rw [Plain, plainMembers_iff] at hplain
    have hvalues : ∀ p ∈ ms, Cleared spaced p.2 :=
      fun p hp => ih p hp (hplain.2 p hp).2 (forall_parts_obj h p hp)
    cases ms with
    | nil =>
      rw [render]
      refine clear_cons ?_ (clear_letters (by simp))
      intro hopen
      exact absurd (List.cons_prefix_cons.mp (List.cons_prefix_cons.mp hopen).2).1 (by decide)
    | cons p ms =>
      obtain ⟨k, v⟩ := p
      have hk : k.head? ≠ some 118 := h _ (parts_self _) (k, v) rfl
      rw [render]
      refine clear_cons ?_ (clear_object k v ms rest hvalues)
      rw [List.append_assoc]
      exact not_opening_key k _ hk

/-! ## Writing what was read -/

/-- How ASCII output spells a unit of a string. -/
def spellUnit (u : ℕ × Bool) : Str := if u.2 = true then unicodeEscape u.1 else escape true u.1

theorem shortEscape_wide {c : ℕ} (h : 127 ≤ c) : shortEscape c = none := by
  have hne : c ≠ 34 ∧ c ≠ 92 ∧ c ≠ 8 ∧ c ≠ 9 ∧ c ≠ 10 ∧ c ≠ 12 ∧ c ≠ 13 := by omega
  obtain ⟨h₁, h₂, h₃, h₄, h₅, h₆, h₇⟩ := hne
  simp only [shortEscape, if_neg h₁, if_neg h₂, if_neg h₃, if_neg h₄, if_neg h₅, if_neg h₆, if_neg h₇]

theorem escape_wide {c : ℕ} (hlo : 127 ≤ c) (hhi : c < 0x10000) : escape true c = unicodeEscape c := by
  have hcontrol : ¬ c < 32 := by omega
  have hplain : ¬ (!true || decide (c < 127)) = true := by simpa using hlo
  simp only [escape, shortEscape_wide hlo, if_neg hcontrol, if_neg hplain, if_pos hhi]

theorem spellUnit_units (c : ℕ) : (units true c).flatMap spellUnit = escape true c := by
  unfold units escape
  cases hshort : shortEscape c with
  | some e => simp [spellUnit, escape, hshort]
  | none =>
    simp only
    by_cases hcontrol : c < 32
    · simp [hcontrol, spellUnit]
    by_cases hplain : c < 127
    · simp [hcontrol, hplain, spellUnit, escape, hshort]
    by_cases hbmp : c < 0x10000
    · simp [hcontrol, hplain, hbmp, spellUnit]
    · simp [hcontrol, hplain, hbmp, spellUnit]

/- A unit that was spelled `\u` has no other spelling. -/
theorem unit_spelled (c : ℕ) (hc : c < 0x110000) :
    ∀ u ∈ units true c, u.2 = true → escape true u.1 = unicodeEscape u.1 := by
  unfold units
  cases hshort : shortEscape c with
  | some e => simp
  | none =>
    simp only
    by_cases hcontrol : c < 32
    · simp [hcontrol, escape, hshort]
    by_cases hplain : c < 127
    · simp [hcontrol, hplain]
    by_cases hbmp : c < 0x10000
    · simp [hcontrol, hplain, hbmp, escape_wide (Nat.not_lt.mp hplain) hbmp]
    · obtain ⟨hhigh, hlow, hhi, hlo, -⟩ := surrogate_bounds c hc hbmp
      simp only [isHigh, isLow, Bool.and_eq_true, decide_eq_true_eq] at hhigh hlow
      simp only [hcontrol, hplain, hbmp, if_false, Bool.not_true, Bool.false_or, decide_false,
        Bool.false_eq_true, List.forall_mem_cons]
      refine ⟨fun _ => escape_wide (by omega) hhi, fun _ => escape_wide (by omega) hlo, by simp⟩

theorem escape_astral {c : ℕ} (h : 0x10000 ≤ c) :
    escape true c = unicodeEscape (highSurrogate c) ++ unicodeEscape (lowSurrogate c) := by
  have hlo : 127 ≤ c := by omega
  have hcontrol : ¬ c < 32 := by omega
  have hplain : ¬ (!true || decide (c < 127)) = true := by simpa using hlo
  have hbmp : ¬ c < 0x10000 := by omega
  simp only [escape, shortEscape_wide hlo, if_neg hcontrol, if_neg hplain, if_neg hbmp]

/- Two surrogates are spelled as the letter they make. -/
theorem escape_pair {c d : ℕ} (hc : isHigh c = true) (hd : isLow d = true) :
    escape true (0x10000 + (c - 0xD800) * 0x400 + (d - 0xDC00)) = unicodeEscape c ++ unicodeEscape d := by
  simp only [isHigh, isLow, Bool.and_eq_true, decide_eq_true_eq] at hc hd
  have hhigh : highSurrogate (0x10000 + (c - 0xD800) * 0x400 + (d - 0xDC00)) = c := by
    unfold highSurrogate
    omega
  have hlow : lowSurrogate (0x10000 + (c - 0xD800) * 0x400 + (d - 0xDC00)) = d := by
    unfold lowSurrogate
    omega
  rw [escape_astral (by omega), hhigh, hlow]

theorem joinUnits_spelled (us : List (ℕ × Bool))
    (h : ∀ u ∈ us, u.2 = true → escape true u.1 = unicodeEscape u.1) :
    (joinUnits us).flatMap (escape true) = us.flatMap spellUnit := by
  have hunit : ∀ u : ℕ × Bool, (u.2 = true → escape true u.1 = unicodeEscape u.1) →
      spellUnit u = escape true u.1 := by
    intro u hu
    unfold spellUnit
    split
    · next he => exact (hu he).symm
    · rfl
  induction us using joinUnits.induct with
  | case1 => rfl
  | case2 c e =>
    rw [List.forall_mem_singleton] at h
    simp [joinUnits, hunit (c, e) h]
  | case3 c e d e' us hpair ih =>
    rw [List.forall_mem_cons, List.forall_mem_cons] at h
    simp only [Bool.and_eq_true] at hpair
    obtain ⟨⟨⟨rfl, rfl⟩, hc⟩, hd⟩ := hpair
    rw [joinUnits, if_pos (by simp [hc, hd]), List.flatMap_cons, escape_pair hc hd, ih h.2.2]
    simp [spellUnit]
  | case4 c e d e' us hpair ih =>
    rw [List.forall_mem_cons] at h
    have hrest := ih h.2
    rw [joinUnits, if_neg hpair, List.flatMap_cons, hrest, ← hunit (c, e) h.1]
    rfl

theorem stringText_rejoin (s : Str) (hs : isText s) : stringText true (rejoin true s) = stringText true s := by
  have hunits : ∀ u ∈ s.flatMap (units true), u.2 = true → escape true u.1 = unicodeEscape u.1 := by
    intro u hu
    rw [List.mem_flatMap] at hu
    obtain ⟨c, hc, hu⟩ := hu
    exact unit_spelled c (hs c hc) u hu
  have hspell : (s.flatMap (units true)).flatMap spellUnit = s.flatMap (escape true) := by
    rw [List.flatMap_assoc]
    exact List.flatMap_congr fun c _ => spellUnit_units c
  rw [stringText, rejoin, joinUnits_spelled _ hunits, hspell, stringText]

theorem renderItems_reread (vs : List PyJson)
    (h : ∀ v ∈ vs, render spaced true (reread true v) = render spaced true v) :
    renderItems spaced true (vs.map (reread true)) = renderItems spaced true vs := by
  induction vs with
  | nil => rfl
  | cons v vs ih =>
    rw [List.forall_mem_cons] at h
    rw [List.map_cons, renderItems, renderItems, h.1, ih h.2]

theorem renderMembers_reread (ms : List (Str × PyJson)) (hkeys : ∀ p ∈ ms, isText p.1)
    (h : ∀ p ∈ ms, render spaced true (reread true p.2) = render spaced true p.2) :
    renderMembers spaced true (ms.map fun p => (rejoin true p.1, reread true p.2)) =
      renderMembers spaced true ms := by
  induction ms with
  | nil => rfl
  | cons p ms ih =>
    obtain ⟨k, v⟩ := p
    rw [List.forall_mem_cons] at h hkeys
    rw [List.map_cons, renderMembers, renderMembers, stringText_rejoin k hkeys.1, h.1, ih hkeys.2 h.2]

/-- What is read back is written the same again. -/
theorem render_reread (v : PyJson) :
    Plain true v → render spaced true (reread true v) = render spaced true v := by
  induction v using induct with
  | null => exact fun _ => rfl
  | bool b => exact fun _ => rfl
  | int z => exact fun _ => rfl
  | float f => exact fun _ => rfl
  | constant c => exact fun _ => rfl
  | str s => exact fun h => stringText_rejoin s h
  | arr vs ih =>
    intro h
    rw [Plain, plainItems_iff] at h
    rw [reread, rereadItems_eq]
    cases vs with
    | nil => rfl
    | cons v vs =>
      have hall : ∀ w ∈ v :: vs, render spaced true (reread true w) = render spaced true w :=
        fun w hw => ih w hw (h w hw)
      rw [List.forall_mem_cons] at hall
      rw [List.map_cons, render, render, hall.1, renderItems_reread vs hall.2]
  | obj ms ih =>
    intro h
    rw [Plain, plainMembers_iff] at h
    rw [reread, rereadMembers_eq]
    cases ms with
    | nil => rfl
    | cons p ms =>
      obtain ⟨k, v⟩ := p
      have hall : ∀ p ∈ (k, v) :: ms, render spaced true (reread true p.2) = render spaced true p.2 :=
        fun p hp => ih p hp (h.2 p hp).2
      have hkeys : ∀ p ∈ (k, v) :: ms, isText p.1 := fun p hp => (h.2 p hp).1
      rw [List.forall_mem_cons] at hall hkeys
      rw [List.map_cons, render, render, stringText_rejoin k hkeys.1, hall.1,
        renderMembers_reread ms hkeys.2 hall.2]

/-! ## What reading leaves -/

theorem nestingItems_le {vs : List PyJson} {n : ℕ} (h : ∀ v ∈ vs, nesting v ≤ n) : nestingItems vs ≤ n := by
  induction vs with
  | nil => exact Nat.zero_le n
  | cons v vs ih =>
    rw [List.forall_mem_cons] at h
    exact Nat.max_le.mpr ⟨h.1, ih h.2⟩

theorem nestingMembers_le {ms : List (Str × PyJson)} {n : ℕ} (h : ∀ p ∈ ms, nesting p.2 ≤ n) :
    nestingMembers ms ≤ n := by
  induction ms with
  | nil => exact Nat.zero_le n
  | cons p ms ih =>
    rw [List.forall_mem_cons] at h
    exact Nat.max_le.mpr ⟨h.1, ih h.2⟩

/- A value that is read back is as deep, and finite if it was. -/
theorem reread_shape (ascii : Bool) (v : PyJson) :
    nesting (reread ascii v) = nesting v ∧ finite (reread ascii v) = finite v := by
  induction v using induct with
  | null => exact ⟨rfl, rfl⟩
  | bool b => exact ⟨rfl, rfl⟩
  | int z => exact ⟨rfl, rfl⟩
  | float f => exact ⟨rfl, rfl⟩
  | constant c => exact ⟨rfl, rfl⟩
  | str s => exact ⟨rfl, rfl⟩
  | arr vs ih =>
    have hitems : nestingItems (rereadItems ascii vs) = nestingItems vs ∧
        finiteItems (rereadItems ascii vs) = finiteItems vs := by
      induction vs with
      | nil => exact ⟨rfl, rfl⟩
      | cons v vs ihs =>
        rw [List.forall_mem_cons] at ih
        have hrest := ihs ih.2
        simp only [rereadItems, nestingItems, finiteItems, ih.1.1, ih.1.2, hrest.1, hrest.2, and_self]
    simp only [reread, nesting, finite, hitems.1, hitems.2, and_self]
  | obj ms ih =>
    have hmembers : nestingMembers (rereadMembers ascii ms) = nestingMembers ms ∧
        finiteMembers (rereadMembers ascii ms) = finiteMembers ms := by
      induction ms with
      | nil => exact ⟨rfl, rfl⟩
      | cons p ms ihs =>
        obtain ⟨k, v⟩ := p
        rw [List.forall_mem_cons] at ih
        have hrest := ihs ih.2
        simp only [rereadMembers, nestingMembers, finiteMembers, ih.1.1, ih.1.2, hrest.1, hrest.2, and_self]
    simp only [reread, nesting, finite, hmembers.1, hmembers.2, and_self]

theorem finite_of_plain (v : PyJson) : Plain ascii v → finite v = true := by
  induction v using induct with
  | null => exact fun _ => rfl
  | bool b => exact fun _ => rfl
  | int z => exact fun _ => rfl
  | float f => exact fun h => absurd h (by simp [Plain])
  | constant c => exact fun h => absurd h (by simp [Plain])
  | str s => exact fun _ => rfl
  | arr vs ih =>
    intro h
    rw [Plain, plainItems_iff] at h
    rw [finite]
    induction vs with
    | nil => rfl
    | cons v vs ihs =>
      rw [List.forall_mem_cons] at h ih
      rw [finiteItems, ih.1 h.1, ihs ih.2 h.2]
      rfl
  | obj ms ih =>
    intro h
    rw [Plain, plainMembers_iff] at h
    have hvalues : ∀ p ∈ ms, Plain ascii p.2 := fun p hp => (h.2 p hp).2
    clear h
    rw [finite]
    induction ms with
    | nil => rfl
    | cons p ms ihs =>
      obtain ⟨k, v⟩ := p
      rw [List.forall_mem_cons] at hvalues ih
      rw [finiteMembers, ih.1 hvalues.1, ihs ih.2 hvalues.2]
      rfl

end ParallelForge.Base.PyJson
