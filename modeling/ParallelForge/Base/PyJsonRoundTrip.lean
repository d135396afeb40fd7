import ParallelForge.Base.PyJson

/-!
# A written value is read back

For every value without floats, in either form of separators; up to the pairs of
surrogates that its strings may hold as two letters.
-/

namespace ParallelForge.Base.PyJson
open Json

/-- Induction over a value; an array knows it of its items, an object of its members. -/
@[elab_as_elim]
theorem induct {motive : PyJson → Prop} (null : motive .null) (bool : ∀ b, motive (.bool b))
    (int : ∀ z, motive (.int z)) (float : ∀ f, motive (.float f)) (constant : ∀ c, motive (.constant c))
    (str : ∀ s, motive (.str s)) (arr : ∀ vs : List PyJson, (∀ v ∈ vs, motive v) → motive (.arr vs))
    (obj : ∀ ms : List (Str × PyJson), (∀ p ∈ ms, motive p.2) → motive (.obj ms)) (v : PyJson) :
    motive v := by
  apply @PyJson.rec motive (fun vs => ∀ v ∈ vs, motive v) (fun ms => ∀ p ∈ ms, motive p.2)
    (fun p => motive p.2)
  · exact null
  · exact bool
  · exact int
  · exact float
  · exact constant
  · exact str
  · exact arr
  · exact obj
  · exact fun v hv => by cases hv
  · intro v vs hv hvs w hw
    rcases List.mem_cons.mp hw with rfl | hw
    · exact hv
    · exact hvs w hw
  · exact fun p hp => by cases hp
  · intro p ms hp hms q hq
    rcases List.mem_cons.mp hq with rfl | hq
    · exact hp
    · exact hms q hq
  · exact fun _ _ h => h

theorem rereadItems_eq (ascii : Bool) (vs : List PyJson) : rereadItems ascii vs = vs.map (reread ascii) := by
  induction vs with
  | nil => rfl
  | cons v vs ih => rw [rereadItems, ih, List.map_cons]

theorem rereadMembers_eq (ascii : Bool) (ms : List (Str × PyJson)) :
    rereadMembers ascii ms = ms.map fun p => (rejoin ascii p.1, reread ascii p.2) := by
  induction ms with
  | nil => rfl
  | cons p ms ih =>
    obtain ⟨k, v⟩ := p
    rw [rereadMembers, ih, List.map_cons]

theorem plainItems_iff (ascii : Bool) (vs : List PyJson) :
    PlainItems ascii vs ↔ ∀ v ∈ vs, Plain ascii v := by
  induction vs with
  | nil => simp [PlainItems]
  | cons v vs ih => rw [PlainItems, ih, List.forall_mem_cons]

theorem plainMembers_iff (ascii : Bool) (ms : List (Str × PyJson)) :
    PlainMembers ascii ms ↔ ∀ p ∈ ms, isText p.1 ∧ Plain ascii p.2 := by
  induction ms with
  | nil => simp [PlainMembers]
  | cons p ms ih =>
    obtain ⟨k, v⟩ := p
    rw [PlainMembers, ih, List.forall_mem_cons, and_assoc]

/-! ## Objects -/

/- New keys are put at the end, in their order. -/
theorem toDict_nodup (pairs : List (Str × PyJson)) (hn : (pairs.map Prod.fst).Nodup) :
    toDict pairs = pairs := by
  have hfold : ∀ (rest done : List (Str × PyJson)), ((done ++ rest).map Prod.fst).Nodup →
      rest.foldl (fun ms p => setMember ms p.1 p.2) done = done ++ rest := by
    intro rest
    induction rest with
    | nil => simp
    | cons p rest ih =>
      intro done hn
      have hnew : p.1 ∉ done.map Prod.fst := by
        rw [List.map_append, List.map_cons, List.nodup_append] at hn
        intro hmem
        exact hn.2.2 p.1 hmem p.1 List.mem_cons_self rfl
      rw [List.foldl_cons, setMember, if_neg hnew, ih (done ++ [(p.1, p.2)]) (by simpa using hn)]
      simp
  exact hfold pairs [] hn

/-! ## The reader behind the writer -/

variable {readFloat : FloatText → Option FloatText} {spaced ascii : Bool}

def Reads (readFloat : FloatText → Option FloatText) (spaced ascii : Bool) (v : PyJson) : Prop :=
  ∀ n rest, (render spaced ascii v).length ≤ n → Closed rest →
    readValue readFloat n (render spaced ascii v ++ rest) = some (reread ascii v, rest)

theorem scanString_rejoin (s rest : Str) (h : isText s) :
    scanString (s.flatMap (escape ascii) ++ 34 :: rest) = some (rejoin ascii s, rest) := by
  rw [scanString, scanUnits_string ascii s rest h]
  rfl

theorem rejoin_self (s : Str) (h : Spelled ascii s) : rejoin ascii s = s := by
  have hjoined : scanString (s.flatMap (escape ascii) ++ 34 :: []) = some (rejoin ascii s, []) :=
    scanString_rejoin s [] h.codePoint
  rw [scanString_string ascii s [] h, Option.some.injEq, Prod.mk.injEq] at hjoined
  exact hjoined.1.symm

/- What is written without escapes for code points is read as it is. -/
theorem rejoin_open {s : Str} (h : isText s) : rejoin false s = s := rejoin_self s ⟨h, fun hascii => by cases hascii⟩

/- The letters a value without floats can start with. -/
theorem render_head (v : PyJson) (h : Plain ascii v) :
    ∃ c s, render spaced ascii v = c :: s ∧ Opens c := by
  have hnumber : ∀ c, (c = 45 ∨ isDigit c = true) → Opens c := by
    unfold Opens
    rintro c (hc | hc)
    · simp [hc]
    · simp [hc]
  cases v with
  | null => exact ⟨110, [117, 108, 108], rfl, by simp [Opens]⟩
  | bool b =>
    cases b with
    | true => exact ⟨116, [114, 117, 101], rfl, by simp [Opens]⟩
    | false => exact ⟨102, [97, 108, 115, 101], rfl, by simp [Opens]⟩
  | int z =>
    obtain ⟨c, r, hr, hc⟩ := intText_head z
    exact ⟨c, r, by rw [render, hr], hnumber c hc⟩
  | float f => exact absurd h (by simp [Plain])
  | constant c => exact absurd h (by simp [Plain])
  | str s => exact ⟨_, _, by rw [render, stringText], by simp [Opens]⟩
  | arr vs => cases vs <;> exact ⟨_, _, by rw [render], by simp [Opens]⟩
  | obj ms =>
    cases ms with
    | nil => exact ⟨_, _, by rw [render], by simp [Opens]⟩
    | cons p ms =>
      obtain ⟨k, v⟩ := p
      exact ⟨_, _, by rw [render], by simp [Opens]⟩

theorem skip_render (v : PyJson) (h : Plain ascii v) (rest : Str) :
    skip (render spaced ascii v ++ rest) = render spaced ascii v ++ rest := by
  have hhead : ∃ c s, render spaced ascii v = c :: s ∧ Opens c := render_head v h
  obtain ⟨c, s, hs, hc⟩ := hhead
  rw [hs, List.cons_append, skip_cons c _ (opens_facts hc).1]

/- A blank behind a comma or a colon is skipped. -/
theorem skip_gap (spaced : Bool) (s : Str) : skip (gap spaced ++ s) = skip s := by
  cases spaced with
  | true => rfl
  | false => rfl

theorem closed_items (vs : List PyJson) (rest : Str) :
    Closed (renderItems spaced ascii vs ++ rest) := by
  cases vs with
  | nil => exact closed_cons _ (by simp)
  | cons v vs => exact closed_cons _ (by simp)

theorem closed_members (ms : List (Str × PyJson)) (rest : Str) :
    Closed (renderMembers spaced ascii ms ++ rest) := by
  cases ms with
  | nil => exact closed_cons _ (by simp)
  | cons p ms => exact closed_cons _ (by simp)

theorem readItems_render (vs : List PyJson) (rest : Str) : ∀ (v : PyJson) (n : ℕ),
    (∀ w ∈ v :: vs, Plain ascii w ∧ Reads readFloat spaced ascii w) →
    (render spaced ascii v ++ renderItems spaced ascii vs).length ≤ n →
    readItems readFloat n (render spaced ascii v ++ (renderItems spaced ascii vs ++ rest)) =
      some ((v :: vs).map (reread ascii), rest) := by
  induction vs with
  | nil =>
    intro v n hreads hn
    rw [List.length_append, renderItems, List.length_singleton] at hn
    cases n with
    | zero => omega
    | succ n =>
      have hv := (hreads v (by simp)).2 n (renderItems spaced ascii [] ++ rest) (by omega)
        (closed_items [] rest)
      have hclose : skip (renderItems spaced ascii [] ++ rest) = 93 :: rest := skip_cons 93 rest rfl
      simp only [readItems, hv, hclose, if_true]
      rfl
  | cons w vs ih =>
    intro v n hreads hn
    rw [renderItems, List.length_append, List.length_cons, List.length_append] at hn
    cases n with
    | zero => omega
    | succ n =>
      have hv := (hreads v (by simp)).2 n (renderItems spaced ascii (w :: vs) ++ rest) (by omega)
        (closed_items (w :: vs) rest)
      have hnext : skip (renderItems spaced ascii (w :: vs) ++ rest) =
          44 :: (gap spaced ++ (render spaced ascii w ++ (renderItems spaced ascii vs ++ rest))) := by
        rw [renderItems, List.cons_append, List.append_assoc, List.append_assoc]
        exact skip_cons 44 _ rfl
      have hrest := ih w n (fun x hx => hreads x (List.mem_cons_of_mem v hx)) (by omega)
      have hw := (hreads w (by simp)).1
      simp only [readItems, hv, hnext, if_true, skip_gap, skip_render w hw, hrest, Option.map_some]
      rfl

theorem expect_key (k rest : Str) :
    expect [34] (stringText ascii k ++ rest) = some (k.flatMap (escape ascii) ++ 34 :: rest) := by
  rw [stringText, List.cons_append, expect_self, List.append_assoc, List.singleton_append]

theorem skip_key (k rest : Str) : skip (stringText ascii k ++ rest) = stringText ascii k ++ rest := by
  rw [stringText, List.cons_append, skip_cons 34 _ rfl]

/- One member, up to what follows its value. -/
theorem readMember_render (k : Str) (v : PyJson) (n : ℕ) (more : Str) (hk : isText k)
    (hplain : Plain ascii v) (hv : Reads readFloat spaced ascii v)
    (hn : (render spaced ascii v).length ≤ n) (hmore : Closed more) :
    ∃ s₁ s₂ s₃, expect [34] (stringText ascii k ++ 58 :: (gap spaced ++ (render spaced ascii v ++ more))) =
        some s₁ ∧
      scanString s₁ = some (rejoin ascii k, s₂) ∧ expect [58] (skip s₂) = some s₃ ∧
      readValue readFloat n (skip s₃) = some (reread ascii v, more) := by
  refine ⟨_, _, gap spaced ++ (render spaced ascii v ++ more), expect_key k _, scanString_rejoin k _ hk,
    ?_, ?_⟩
  · rw [skip_cons 58 _ rfl, expect_self]
  · rw [skip_gap, skip_render v hplain]
    exact hv n more hn hmore

theorem readMembers_render (ms : List (Str × PyJson)) (rest : Str) :
    ∀ (k : Str) (v : PyJson) (n : ℕ),
    (∀ p ∈ (k, v) :: ms, isText p.1 ∧ Plain ascii p.2 ∧ Reads readFloat spaced ascii p.2) →
    (render spaced ascii v ++ renderMembers spaced ascii ms).length < n →
    readMembers readFloat n (stringText ascii k ++ 58 :: (gap spaced ++
        (render spaced ascii v ++ (renderMembers spaced ascii ms ++ rest)))) =
      some (((k, v) :: ms).map fun p => (rejoin ascii p.1, reread ascii p.2), rest) := by
  induction ms with
  | nil =>
    intro k v n hall hn
    rw [List.length_append, renderMembers, List.length_singleton] at hn
    cases n with
    | zero => omega
    | succ n =>
      obtain ⟨hk, hplain, hv⟩ := hall (k, v) (by simp)
      obtain ⟨s₁, s₂, s₃, h₁, h₂, h₃, h₄⟩ := readMember_render k v n
        (renderMembers spaced ascii [] ++ rest) hk hplain hv (by omega) (closed_members [] rest)
      have hclose : skip (renderMembers spaced ascii [] ++ rest) = 125 :: rest := skip_cons 125 rest rfl
      simp only [readMembers, h₁, h₂, h₃, h₄, hclose, if_true]
      rfl
  | cons p ms ih =>
    obtain ⟨k', v'⟩ := p
    intro k v n hall hn
    simp only [renderMembers, List.length_append, List.length_cons] at hn
    cases n with
    | zero => omega
    | succ n =>
      obtain ⟨hk, hplain, hv⟩ := hall (k, v) (by simp)
      obtain ⟨s₁, s₂, s₃, h₁, h₂, h₃, h₄⟩ := readMember_render k v n
        (renderMembers spaced ascii ((k', v') :: ms) ++ rest) hk hplain hv (by omega)
        (closed_members ((k', v') :: ms) rest)
      have hnext : skip (renderMembers spaced ascii ((k', v') :: ms) ++ rest) =
          44 :: (gap spaced ++ (stringText ascii k' ++ 58 :: (gap spaced ++
            (render spaced ascii v' ++ (renderMembers spaced ascii ms ++ rest))))) := by
        simp only [renderMembers, List.cons_append, List.append_assoc]
        exact skip_cons 44 _ rfl
      have hrest := ih k' v' n (fun x hx => hall x (List.mem_cons_of_mem _ hx)) (by
        rw [List.length_append]
        omega)
      simp only [readMembers, h₁, h₂, h₃, h₄, hnext, if_true, skip_gap, skip_key, hrest, Option.map_some]
      rfl

/- A literal that begins like none of the constants. -/
theorem readLiteral_scan (c : ℕ) (s : Str) (hN : c ≠ 78) (hI : c ≠ 73)
    (hminus : c = 45 → ∀ d, s.head? = some d → d ≠ 73) :
    readLiteral readFloat (c :: s) =
      (scanLiteral (c :: s)).map fun r => (ofLiteral readFloat r.1, r.2) := by
  have hother : ∀ (a : ℕ) (word : Str), c ≠ a → expect (a :: word) (c :: s) = none := by
    intro a word hc
    have hca : (a == c) = false := by
      rw [beq_eq_false_iff_ne]
      exact Ne.symm hc
    simp [expect, List.isPrefixOf, hca]
  have hnan : expect (codes "NaN") (c :: s) = none := hother _ _ hN
  have hinf : expect (codes "Infinity") (c :: s) = none := hother _ _ hI
  have hneg : expect (codes "-Infinity") (c :: s) = none := by
    by_cases hc : c = 45
    · cases s with
      | nil => rw [hc]; rfl
      | cons d s =>
        have hd := hminus hc d rfl
        have hne : (73 == d) = false := by
          rw [beq_eq_false_iff_ne]
          exact Ne.symm hd
        have hcodes : codes "-Infinity" = 45 :: 73 :: codes "nfinity" := rfl
        rw [hc, hcodes]
        simp [expect, List.isPrefixOf, hne]
    · exact hother _ _ hc
  simp only [readLiteral, hnan, hinf, hneg]

theorem readValue_literal (n : ℕ) (c : ℕ) (s : Str) (hquote : c ≠ 34) (harr : c ≠ 91) (hobj : c ≠ 123) :
    readValue readFloat (n + 1) (c :: s) = readLiteral readFloat (c :: s) := by
  rw [readValue, if_neg hquote, if_neg harr, if_neg hobj]

theorem reads_word (v : PyJson) (w : Json) (c : ℕ) (word : Str) (htext : render spaced ascii v = c :: word)
    (hother : c ≠ 34 ∧ c ≠ 91 ∧ c ≠ 123 ∧ c ≠ 78 ∧ c ≠ 73 ∧ c ≠ 45)
    (hscan : ∀ rest, scanLiteral (c :: word ++ rest) = some (w, rest))
    (hw : ofLiteral readFloat w = reread ascii v) : Reads readFloat spaced ascii v := by
  obtain ⟨hquote, harr, hobj, hN, hI, hminus⟩ := hother
  intro n rest hn _
  rw [htext] at hn ⊢
  cases n with
  | zero => simp at hn
  | succ n =>
    have hlit : readLiteral readFloat (c :: (word ++ rest)) =
        (scanLiteral (c :: (word ++ rest))).map fun r => (ofLiteral readFloat r.1, r.2) :=
      readLiteral_scan c (word ++ rest) hN hI fun hc => absurd hc hminus
    rw [List.cons_append, readValue_literal n c _ hquote harr hobj, hlit, ← List.cons_append, hscan]
    rw [Option.map_some, hw]

theorem reads_int (z : ℤ) (hz : (decimal z.natAbs).length ≤ digitLimit) :
    Reads readFloat spaced ascii (.int z) := by
  intro n rest hn hrest
  have hscan := scanNumber_int z rest hrest hz
  obtain ⟨c, r, hr, hc⟩ := intText_head z
  have hdigit : c = 45 → ∀ d, (r ++ rest).head? = some d → d ≠ 73 := by
    intro hminus d hd
    have htext : r = decimal z.natAbs := by
      rw [intText] at hr
      split at hr
      · cases hr
        rfl
      · have hmem := isDigit_decimal z.natAbs c (by rw [hr]; exact List.mem_cons_self)
        rw [hminus] at hmem
        cases hmem
    have hne := decimal_ne_nil z.natAbs
    rw [← htext] at hne
    cases r with
    | nil => exact absurd rfl hne
    | cons e r =>
      cases hd
      have hmem := isDigit_decimal z.natAbs d (by rw [← htext]; exact List.mem_cons_self)
      simp only [isDigit, Bool.and_eq_true, decide_eq_true_eq] at hmem
      omega
  have hne : c ≠ 34 ∧ c ≠ 91 ∧ c ≠ 123 ∧ c ≠ 78 ∧ c ≠ 73 := by
    simp only [isDigit, Bool.and_eq_true, decide_eq_true_eq] at hc
    omega
  obtain ⟨hquote, harr, hobj, hN, hI⟩ := hne
  rw [render] at hn ⊢
  rw [hr] at hn hscan ⊢
  cases n with
  | zero => simp at hn
  | succ n =>
    rw [List.cons_append] at hscan ⊢
    rw [readValue_literal n c _ hquote harr hobj, readLiteral_scan c _ hN hI hdigit,
      scanLiteral_number c _ hc, hscan]
    rfl

/-- A written value is read back, up to the end of its text. -/
theorem reads_render (v : PyJson) : Plain ascii v → Reads readFloat spaced ascii v := by
  induction v using induct with
  | null =>
    intro _
    exact reads_word _ .null 110 [117, 108, 108] rfl (by decide) (fun _ => rfl) rfl
  | bool b =>
    intro _
    cases b with
    | true => exact reads_word _ (.bool true) 116 [114, 117, 101] rfl (by decide) (fun _ => rfl) rfl
    | false => exact reads_word _ (.bool false) 102 [97, 108, 115, 101] rfl (by decide) (fun _ => rfl) rfl
  | int z => exact fun h => reads_int z h
  | float f => exact fun h => absurd h (by simp [Plain])
  | constant c => exact fun h => absurd h (by simp [Plain])
  | str s =>
    intro h n rest hn _
    rw [render] at hn ⊢
    cases n with
    | zero => simp [stringText] at hn
    | succ n =>
      have hscan : scanString (s.flatMap (escape ascii) ++ 34 :: rest) = some (rejoin ascii s, rest) :=
        scanString_rejoin s rest h
      rw [stringText, List.cons_append, List.append_assoc, List.singleton_append, readValue, if_pos rfl,
        hscan]
      rfl
  | arr vs ih =>
    intro h n rest hn _
    rw [Plain, plainItems_iff] at h
    cases n with
    | zero => cases vs <;> simp [render] at hn
    | succ n =>
      cases vs with
      | nil => rw [render]; rfl
      | cons v vs =>
        have hreads : ∀ w ∈ v :: vs, Plain ascii w ∧ Reads readFloat spaced ascii w :=
          fun w hw => ⟨h w hw, ih w hw (h w hw)⟩
        rw [render, List.length_cons] at hn
        have hitems := readItems_render vs rest v n hreads (by omega)
        have hplain := h v (by simp)
        have hopen : expect [93] (render spaced ascii v ++ (renderItems spaced ascii vs ++ rest)) = none := by
          have hhead : ∃ c s, render spaced ascii v = c :: s ∧ Opens c := render_head v hplain
          obtain ⟨c, s, hs, hc⟩ := hhead
          rw [hs, List.cons_append, expect_other 93 c _ (opens_facts hc).2.1]
        rw [render, List.cons_append, List.append_assoc, readValue, if_neg (by decide), if_pos rfl,
          skip_render v hplain, hopen, hitems, reread, rereadItems_eq]
        rfl
  | obj ms ih =>
    intro h n rest hn _
    rw [Plain, plainMembers_iff] at h
    cases n with
    | zero =>
      cases ms with
      | nil => simp [render] at hn
      | cons p ms => simp [render] at hn
    | succ n =>
      cases ms with
      | nil => rw [render]; rfl
      | cons p ms =>
        obtain ⟨k, v⟩ := p
        have hall : ∀ p ∈ (k, v) :: ms, isText p.1 ∧ Plain ascii p.2 ∧ Reads readFloat spaced ascii p.2 :=
          fun p hp => ⟨(h.2 p hp).1, (h.2 p hp).2, ih p hp (h.2 p hp).2⟩
        rw [render, List.length_cons, List.length_append, List.length_cons, List.length_append] at hn
        have hmembers := readMembers_render ms rest k v n hall (by omega)
        have hopen : ∀ more : Str, expect [125] (stringText ascii k ++ more) = none := by
          intro more
          rw [stringText, List.cons_append, expect_other 125 34 _ (by decide)]
        have hkeys : ((((k, v) :: ms).map fun p => (rejoin ascii p.1, reread ascii p.2)).map Prod.fst).Nodup := by
          rw [List.map_map]
          exact h.1
        rw [render, List.cons_append, List.append_assoc, List.cons_append, List.append_assoc,
          List.append_assoc, readValue, if_neg (by decide), if_neg (by decide), if_pos rfl, skip_key, hopen,
          hmembers]
        simp only [Option.map_some]
        rw [toDict_nodup _ hkeys, reread, rereadMembers_eq]

/-- The whole text of a value is read back, with blanks around it or not. -/
theorem loads_render (v : PyJson) (h : Plain ascii v) :
    loads readFloat (render spaced ascii v) = some (reread ascii v) := by
  have hreads : Reads readFloat spaced ascii v := reads_render v h
  have hwhole := hreads (render spaced ascii v).length [] (Nat.le_refl _) closed_nil
  have hskip : skip (render spaced ascii v ++ []) = render spaced ascii v ++ [] := skip_render v h []
  rw [List.append_nil] at hwhole hskip
  unfold loads
  rw [hskip, hwhole]
  rfl

end ParallelForge.Base.PyJson
