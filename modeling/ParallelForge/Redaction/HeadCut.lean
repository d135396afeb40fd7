import ParallelForge.Redaction.Assignment
import ParallelForge.Redaction.Capture
import Mathlib.Data.List.Forall2

/-!
# The head of a truncated capture

What is appended to the head completes every credential it begins. A scan of
the completed head agrees with a scan of the whole text up to the edge, so it
reaches the credential, or passes over it with another one that it begins.
-/

namespace ParallelForge.Redaction
open Base Prog Regex

section completed
variable (isAlnum : ℕ → Bool) {head : Text} {cut : ℕ}

/- One entry of a fold that only goes down. -/
theorem foldl_le_of_mem {β : Type} (f : ℕ → β → ℕ) (hf : ∀ c b, f c b ≤ c) (l : List β) (a : β)
    (ha : a ∈ l) (x : ℕ) (hx : ∀ c, f c a ≤ x) (c : ℕ) : l.foldl f c ≤ x := by
  induction l generalizing c with
  | nil => cases ha
  | cons b l ih =>
    rw [List.foldl_cons]
    rcases List.mem_cons.mp ha with rfl | ha
    · exact (foldl_down f hf l (f c a)).1.trans (hx c)
    · exact ih ha (f c b)

theorem completeHead_le_of {r : Regex ℕ} {completion : Text}
    (hentry : (r, completion) ∈ completions isAlnum) {m : ℕ × ℕ}
    (hm : m ∈ finditer (head ++ completion) r) (hstart : m.1 < head.length)
    (hend : head.length < m.2) : completeHead isAlnum head cut ≤ m.1 := by
  have hinner : ∀ (l : List (ℕ × ℕ)) (c : ℕ), l.foldl (fun cut completed =>
      if completed.1 < head.length && head.length < completed.2 then min cut completed.1
      else cut) c ≤ c := by
    intro l c
    refine (foldl_down _ ?_ l c).1
    intro c m
    split
    · omega
    · exact le_rfl
  unfold completeHead
  refine foldl_le_of_mem _ (fun c entry => hinner _ c) _ _ hentry m.1 (fun c => ?_) cut
  refine foldl_le_of_mem _ (fun c m => ?_) _ m hm m.1 (fun c => ?_) c
  · split
    · omega
    · exact le_rfl
  · have hcond : (decide (m.1 < head.length) && decide (head.length < m.2)) = true := by
      simp [hstart, hend]
    rw [if_pos hcond]
    exact min_le_right _ _

end completed

/-! ### Texts that begin alike -/

section alike
variable (isAlnum : ℕ → Bool) {T B : Text} {b i j k l p q s e n : ℕ} {r : Regex ℕ}

/-- Both texts go beyond the edge and agree before it. -/
structure Alike (T B : Text) (b : ℕ) : Prop where
  left : b ≤ T.length
  right : b ≤ B.length
  agree : ∀ k, k < b → T[k]? = B[k]?

theorem Alike.symm (h : Alike T B b) : Alike B T b :=
  ⟨h.right, h.left, fun k hk => (h.agree k hk).symm⟩

theorem alike_append (h rest rest' : Text) : Alike (h ++ rest) (h ++ rest') h.length where
  left := by
    rw [List.length_append]
    omega
  right := by
    rw [List.length_append]
    omega
  agree k hk := by rw [List.getElem?_append_left hk, List.getElem?_append_left hk]

theorem Alike.mem (h : Alike T B b) (hr : plain r = true) (hj : j ≤ b) (hmem : j ∈ ends T r i) :
    j ∈ ends B r i :=
  mem_of_upTo_eq (ends_agree r (Or.inl hr) h.left h.right h.agree i) hj hmem

theorem Alike.covers {c : ℕ → Bool} (h : Alike T B b) (hj : j ≤ b) (hT : Covers T c i j) :
    Covers B c i j := by
  intro k hik hkj
  rw [← h.agree k (by omega)]
  exact hT k hik hkj

theorem Alike.run_same (c : ℕ → Bool) (h : Alike T B b) (hend : i + run c T i < b) :
    run c B i = run c T i := by
  refine run_eq _ (fun k hk => ?_) ?_
  · rw [← h.agree (i + k) (by omega)]
    exact getElem_of_run k hk
  · rw [← h.agree _ hend]
    exact getElem_run_end

theorem Alike.edge (h : Alike T B b) (hi : i < b) (hT : AtEdge isAlnum T i) :
    AtEdge isAlnum B i := by
  have hbefore : before B i = before T i := by
    unfold before
    split
    · rfl
    · exact (h.agree _ (by omega)).symm
  unfold AtEdge at hT ⊢
  rw [hbefore, ← h.agree i hi]
  exact hT

/- A pattern that asserts a word edge at its start and nothing else. -/
theorem Alike.upTo (h : Alike T B b) (rest : Regex ℕ) (hrest : plain rest = true) (hi : i < b) :
    upTo b (ends T (.seq (wordEdge isAlnum) rest) i) =
      upTo b (ends B (.seq (wordEdge isAlnum) rest) i) :=
  ends_edge_agree _ rest hrest h.left h.right h.agree hi

end alike

/-! ### Completed credentials -/

section credentials
variable (isAlnum : ℕ → Bool) {T B : Text} {b i j k l p q s e n : ℕ}

/-- What the completed head has in place of the credential. -/
def Crosses (T B : Text) (b : ℕ) (r : Regex ℕ) (i e : ℕ) : Prop :=
  (i, e) ∈ finditer T r → ∃ m ∈ finditer B r, m.1 ≤ i ∧ b < m.2

theorem auth_crosses (h : Alike T B b) (hletters : ∀ k, b ≤ k → k < b + 8 → B[k]? = some 65)
    (hsecret : (authCredential isAlnum).secret T i = some (p, q, e)) (hp : p < b) (he : b < e) :
    Crosses T B b (authValue isAlnum) i e := by
  intro hmem
  obtain ⟨k, hat, hq, rfl⟩ := auth_secret isAlnum hsecret
  have hik : i ≤ k := ends_ge _ hat.scheme
  have hstart := hat.start
  have hspaces : run isSpaceCode B k = run isSpaceCode T k := h.run_same isSpaceCode (by omega)
  have hbody : Covers B authLetter p (b + 8) := by
    refine covers_trans (h.covers le_rfl fun k hpk hkb =>
      covers_run authLetter p k hpk (by omega)) fun k hbk hk => ?_
    rw [hletters k hbk hk]
    decide
  have hrun := le_run_of_covers hbody
  have hatB : AuthAt isAlnum B i k p :=
    ⟨h.edge isAlnum (by omega) hat.edge, h.mem (by decide) (by omega) hat.scheme,
      by rw [hspaces]; exact hat.spaces, by rw [hspaces]; exact hstart, by omega⟩
  have hmatch : matchAt B (authValue isAlnum) i = some (p + run authLetter B p) := by
    rw [matchAt_eq (auth_finds isAlnum), auth_found isAlnum hatB]
    rfl
  refine finditer_crossing (by omega) (fun s hs => ?_) hmem hmatch (by omega) h.right
  exact h.upTo isAlnum _ (by decide) (by omega)

theorem url_crosses (h : Alike T B b) (hclose : B[b]? = some 64)
    (hsecret : (urlCredential isAlnum).secret T i = some (p, q, e)) (hp : p < b) (he : b < e) :
    Crosses T B b (databaseUrl isAlnum) i e := by
  intro hmem
  obtain ⟨hat, rfl⟩ := url_secret isAlnum hsecret
  have hip : i ≤ p := ends_ge _ hat.lead
  have hlead : p ∈ ends B (urlLead isAlnum) i :=
    mem_of_upTo_eq (h.upTo isAlnum _ (by decide) (by omega)) (by omega) hat.lead
  have hatB : UrlAt isAlnum B i p b :=
    ⟨hlead, hp, h.covers le_rfl fun k hpk hkb => hat.letters k hpk (by omega), hclose⟩
  have hfound := url_found isAlnum hatB
  cases hmatch : matchAt B (databaseUrl isAlnum) i with
  | none =>
    rw [matchAt, List.head?_eq_none_iff] at hmatch
    rw [hmatch] at hfound
    cases hfound
  | some j =>
    obtain ⟨p', q', hat', rfl⟩ :=
      url_ends isAlnum (List.mem_of_mem_head? (Option.mem_def.mpr hmatch))
    have hsame := url_lead_unique isAlnum hat'.lead hlead
    have hsome := hat'.some_letter
    -- no `@` stands between the start of the password and the edge
    have hq' : b ≤ q' := by
      by_contra hlt
      have hletter := hatB.letters q' (by omega) (by omega)
      rw [hat'.close] at hletter
      cases hletter
    refine finditer_crossing (by omega) (fun s hs => ?_) hmem hmatch (by omega) h.right
    exact h.upTo isAlnum _ (by decide) (by omega)

theorem key_crosses (h : Alike T B b) (hclose : ∃ j, j ∈ ends B (keyLine "end") b)
    (hsecret : keyCredential.secret T i = some (p, q, e)) (hp : p < b) (he : b < e) :
    Crosses T B b privateKey i e := by
  intro hmem
  have hat := key_secret hsecret
  have hip : i ≤ p := ends_ge _ hat.line
  have hlineB : p ∈ ends B (keyLine "begin") i := h.mem (by decide) (by omega) hat.line
  obtain ⟨j₀, hj₀⟩ := hclose
  have hfound : j₀ ∈ ends B privateKey i := by
    have hright := h.right
    exact mem_ends_key.mpr ⟨p, hlineB, b, by omega, by omega, hj₀⟩
  cases hmatch : matchAt B privateKey i with
  | none =>
    rw [matchAt, List.head?_eq_none_iff] at hmatch
    rw [hmatch] at hfound
    cases hfound
  | some j =>
    have hcross : b < j := by
      by_contra hle
      obtain ⟨p', hp', q', hpq', _, hj⟩ :=
        mem_ends_key.mp (List.mem_of_mem_head? (Option.mem_def.mpr hmatch))
      have hqj : q' ≤ j := ends_ge _ hj
      have hlineT : p' ∈ ends T (keyLine "begin") i := h.symm.mem (by decide) (by omega) hp'
      have hcloseT : j ∈ ends T (keyLine "end") q' := h.symm.mem (by decide) (by omega) hj
      have hsame := begin_unique hlineT hat.line
      have hqq' : q ≤ q' := by
        by_contra hlt
        have hnone := hat.first q' (by omega) (by omega)
        rw [hnone] at hcloseT
        cases hcloseT
      have hend := keyLine_nested (keyLine_shape "end" (by decide) hat.close) (by decide) hcloseT hqq'
      omega
    refine finditer_crossing (by omega) (fun s hs => ?_) hmem hmatch hcross h.right
    exact ends_agree _ (Or.inl (by decide)) h.left h.right h.agree s

/- A token does not end before a letter that could belong to it. -/
theorem token_not_here (hword : ∀ c, githubLetter c = true → isWord isAlnum c = true)
    (hmem : j ∈ ends B (githubToken isAlnum) i) (hnext : B[j]?.any githubLetter = true) : False := by
  obtain ⟨hlen, hcovers, hedge⟩ := github_ends isAlnum hmem
  have hlast := hcovers (j - 1) (by omega) (by omega)
  have hbefore : (before B j).any (isWord isAlnum) = true := by
    rw [before, if_neg (by omega)]
    exact any_imp hword hlast
  have hafter : B[j]?.any (isWord isAlnum) = true := any_imp hword hnext
  unfold AtEdge at hedge
  rw [hbefore, hafter] at hedge
  cases hedge

theorem github_crosses (h : Alike T B b)
    (hword : ∀ c, githubLetter c = true → isWord isAlnum c = true)
    (hletters : ∀ k, b ≤ k → k < b + 20 → B[k]? = some 65) (hlength : B.length = b + 20)
    (hsecret : (githubCredential isAlnum).secret T i = some (p, q, e)) (hp : p < b) (he : b < e) :
    Crosses T B b (githubToken isAlnum) i e := by
  intro hmem
  obtain ⟨hip, _, hend⟩ := github_secret isAlnum hsecret
  obtain ⟨_, hcovers, _⟩ := github_ends isAlnum hend
  have hsame : Covers B githubLetter i b := h.covers le_rfl fun k hik hkb => hcovers k hik (by omega)
  have hbody : Covers B githubLetter i (b + 20) := by
    refine covers_trans hsame fun k hbk hk => ?_
    rw [hletters k hbk hk]
    decide
  -- the completed token reaches the end
  have hfound : B.length ∈ ends B (githubToken isAlnum) i := by
    rw [github_finds isAlnum B i]
    have hspan := List.mem_of_mem_head? (Option.mem_def.mpr hsecret)
    obtain ⟨a, ha, hform⟩ := List.mem_flatMap.mp hspan
    obtain ⟨f, hf, hspan⟩ := List.mem_flatMap.mp hform
    obtain ⟨hstart, _, _⟩ := mem_formSpans.mp hspan
    obtain ⟨hedge, hai⟩ := (mem_ends_edge isAlnum).mp ha
    subst hai
    have hplain : plain f.1 = true := by
      rcases List.mem_cons.mp hf with rfl | hf
      · rfl
      · obtain rfl := List.mem_singleton.mp hf
        rfl
    have hrest : f.2 = (atLeast (.chr githubLetter) 20, wordEdge isAlnum) := by
      rcases List.mem_cons.mp hf with rfl | hf
      · rfl
      · obtain rfl := List.mem_singleton.mp hf
        rfl
    have hrun : B.length ≤ p + run githubLetter B p :=
      le_run_of_covers fun k hpk hk => hbody k (by omega) (by omega)
    have hlast : AtEdge isAlnum B B.length := by
      have hbefore : (before B B.length).any (isWord isAlnum) = true := by
        rw [before, if_neg (by omega), hletters _ (by omega) (by omega)]
        exact hword 65 (by decide)
      unfold AtEdge
      rw [hbefore, List.getElem?_eq_none le_rfl]
      rfl
    refine List.mem_map.mpr ⟨(p, B.length, B.length), List.mem_flatMap.mpr ⟨a, ?_, ?_⟩, rfl⟩
    · exact (mem_ends_edge isAlnum).mpr ⟨h.edge isAlnum (by omega) hedge, rfl⟩
    · refine List.mem_flatMap.mpr ⟨f, hf, mem_formSpans.mpr ⟨h.mem hplain (by omega) hstart, ?_, ?_⟩⟩
      · rw [hrest]
        exact mem_ends_atLeast.mpr ⟨by omega, by omega⟩
      · rw [hrest]
        exact (mem_ends_edge isAlnum).mpr ⟨hlast, rfl⟩
  cases hmatch : matchAt B (githubToken isAlnum) i with
  | none =>
    rw [matchAt, List.head?_eq_none_iff] at hmatch
    rw [hmatch] at hfound
    cases hfound
  | some j =>
    have hj := List.mem_of_mem_head? (Option.mem_def.mpr hmatch)
    have hlong := (github_ends isAlnum hj).1
    have hbj : b ≤ j := by
      by_contra hlt
      exact token_not_here isAlnum hword hj (hbody j (by omega) (by omega))
    have hleft := h.left
    have hright := h.right
    obtain ⟨m, hm, hstart, hcross⟩ := finditer_crossing (b := b - 1) (by omega) (fun s hs =>
      ends_agree _ (Or.inr (h.agree (b - 1) (by omega))) (by omega) (by omega)
        (fun k hk => h.agree k (by omega)) s) hmem hmatch (by omega) (by omega)
    refine ⟨m, hm, hstart, ?_⟩
    by_contra hle
    have hmb : m.2 = b := by omega
    have hat := List.mem_of_mem_head? (Option.mem_def.mpr (mem_finditer hm))
    rw [hmb] at hat
    exact token_not_here isAlnum hword hat (hbody b (by omega) (by omega))

theorem Alike.quoted (h : Alike T B b) (hq : QuotedAt T i n) (hend : i + 1 + n < b) :
    QuotedAt B i n where
  open_ := by
    rw [← h.agree i (by omega)]
    exact hq.open_
  length := by
    have hlen := hq.length
    rw [h.run_same notQuote (by omega)]
    exact hlen
  some_letter := hq.some_letter
  close := by
    rw [← h.agree _ hend]
    exact hq.close

theorem Alike.scheme (h : Alike T B b) (hs : SchemeAt T i k p) (hend : p + run wordLetter T p < b) :
    SchemeAt B i k p := by
  have hstart := hs.start
  have hspaces : run isSpaceCode B k = run isSpaceCode T k := h.run_same isSpaceCode (by omega)
  have hword : run wordLetter B p = run wordLetter T p := h.run_same wordLetter hend
  exact ⟨h.mem (by decide) (by omega) hs.scheme, by rw [hspaces]; exact hs.spaces,
    by rw [hspaces]; exact hstart, by rw [hword]; exact hs.some_letter⟩

theorem value_unique (hj : ValueAt T i j) (hk : ValueAt T i k) : j = k := by
  have hsame := value_head hj
  rw [value_head hk] at hsame
  exact (Option.some.inj hsame).symm

theorem covers_of_reads {c : ℕ → Bool} (w : String)
    (hw : ∀ d ∈ text w, ∀ d', foldCase d' = d → c d' = true) (h : Reads T i (text w)) :
    Covers T c i (i + (text w).length) := by
  intro k hik hk
  have hany := h.any c (k - i) (by omega) hw
  rwa [Nat.add_sub_cancel' hik] at hany

theorem fold_letters (d : ℕ) (h : 97 ≤ foldCase d ∧ foldCase d ≤ 122) : wordLetter d = true := by
  have hvisible := visible_of_fold d (by omega) (by omega)
  by_contra hno
  rw [wordLetter, Bool.and_eq_true, not_and] at hno
  have hsign : (text ",;").contains d = true := by
    have hno := hno hvisible
    rwa [Bool.not_eq_true, Bool.not_eq_false'] at hno
  have hd : d = 44 ∨ d = 59 := by
    have hmem := List.contains_iff_mem.mp hsign
    rcases List.mem_cons.mp hmem with rfl | hmem
    · exact Or.inl rfl
    · exact Or.inr (List.mem_singleton.mp hmem)
  rcases hd with rfl | rfl
  · revert h
    decide
  · revert h
    decide

theorem scheme_covers (hk : k ∈ ends T scheme i) : i < k ∧ Covers T wordLetter i k := by
  have hletters : ∀ w : String, (∀ c ∈ text w, 97 ≤ c ∧ c ≤ 122) →
      ∀ c ∈ text w, ∀ d, foldCase d = c → wordLetter d = true :=
    fun w hw c hc d hd => fold_letters d (hd ▸ hw c hc)
  rcases mem_ends_scheme.mp hk with ⟨hread, rfl⟩ | ⟨hread, rfl⟩
  · exact ⟨by omega, covers_of_reads "bearer" (hletters _ (by decide)) hread⟩
  · exact ⟨by omega, covers_of_reads "basic" (hletters _ (by decide)) hread⟩

/- A quote behind the edge ends no value before it. -/
theorem value_crosses (h : Alike T B b) (hquote : B[b]? = some 39) (hi : i < b)
    (hin : ∀ n, QuotedAt T i n → i + 1 < b) (hvalue : ValueAt T i e) (he : b < e) :
    ∃ j, ValueAt B i j ∧ b < j := by
  have hedge : B[b]?.any wordLetter = true := by
    rw [hquote]
    decide
  by_cases hquotedT : ∃ n, QuotedAt T i n
  · obtain ⟨n, hn⟩ := hquotedT
    have hlen := hn.length
    have hend := value_unique hvalue (.quoted n hn)
    have hib := hin n hn
    have hrun : run notQuote B (i + 1) = b - (i + 1) := by
      refine run_eq _ (fun k hk => ?_) ?_
      · rw [← h.agree _ (by omega)]
        exact getElem_of_run k (by omega)
      · rw [Nat.add_sub_cancel' (by omega), hquote]
        decide
    have hat : QuotedAt B i (b - (i + 1)) := by
      refine ⟨?_, hrun.symm, by omega, ?_⟩
      · rw [← h.agree i hi]
        exact hn.open_
      · rw [Nat.add_sub_cancel' (by omega), hquote]
        decide
    exact ⟨_, .quoted _ hat, by omega⟩
  · have hnoneT : ∀ n, ¬ QuotedAt T i n := fun n hn => hquotedT ⟨n, hn⟩
    have hletter : T[i]?.any wordLetter = true := by
      cases hvalue with
      | quoted n hn => exact absurd hn (hnoneT n)
      | scheme k p _ hs =>
        obtain ⟨hik, hcovers⟩ := scheme_covers hs.scheme
        exact hcovers i le_rfl hik
      | word _ _ hone => exact covers_run wordLetter i i le_rfl (by omega)
    have hfirst : B[i]?.any wordLetter = true := by
      rw [← h.agree i hi]
      exact hletter
    have hsome : ∃ j, ValueAt B i j := by
      have hone := run_eq_succ hfirst
      have hmem : i + 1 ∈ ends B (plus (solid ",;")) i := by
        refine mem_ends_plus.mpr ⟨le_rfl, ?_⟩
        show i + 1 ≤ i + run wordLetter B i
        omega
      exact valueAt_of_mem (mem_ends_alt.mpr (Or.inr (mem_ends_alt.mpr (Or.inr hmem))))
    obtain ⟨j, hj⟩ := hsome
    refine ⟨j, hj, ?_⟩
    by_contra hle
    -- a value that ends before the edge would be the value of the whole text
    cases hj with
    | quoted n hn => exact hnoneT n (h.symm.quoted hn (by omega))
    | scheme k p hquotedB hs =>
      have hlt : p + run wordLetter B p < b := by
        by_contra hge
        have heq : p + run wordLetter B p = b := by omega
        have hout : B[p + run wordLetter B p]?.any wordLetter = false := getElem_run_end
        rw [heq, hedge] at hout
        cases hout
      have hsT := h.symm.scheme hs hlt
      have hend := value_unique hvalue (.scheme k p hnoneT hsT)
      have hword : run wordLetter T p = run wordLetter B p := h.symm.run_same wordLetter hlt
      omega
    | word hquotedB hschemeB hone =>
      have hlt : i + run wordLetter B i < b := by
        by_contra hge
        have heq : i + run wordLetter B i = b := by omega
        have hout : B[i + run wordLetter B i]?.any wordLetter = false := getElem_run_end
        rw [heq, hedge] at hout
        cases hout
      have hword : run wordLetter T i = run wordLetter B i := h.symm.run_same wordLetter hlt
      cases hvalue with
      | quoted n hn => exact hnoneT n hn
      | word _ _ _ => omega
      | scheme k p _ hs =>
        obtain ⟨hik, hcovers⟩ := scheme_covers hs.scheme
        have hkrun := le_run_of_covers hcovers
        have hkB : k ∈ ends B scheme i := h.mem (by decide) (by omega) hs.scheme
        have hstart := hs.start
        have hspaces := hs.spaces
        by_cases hpb : p < b
        · have hsame : run isSpaceCode B k = run isSpaceCode T k := h.run_same isSpaceCode (by omega)
          have hpword : B[p]?.any wordLetter = true := by
            rw [← h.agree p hpb]
            exact covers_run wordLetter p p le_rfl (by have hl := hs.some_letter; omega)
          have hpone := run_eq_succ hpword
          exact hschemeB k p ⟨hkB, by omega, by omega, by omega⟩
        · -- the spaces reach the edge
          have hsame : run isSpaceCode B k = b - k := by
            refine run_eq _ (fun n hn => ?_) ?_
            · rw [← h.agree _ (by omega)]
              exact getElem_of_run n (by omega)
            · rw [Nat.add_sub_cancel' (by omega), hquote]
              decide
          have hbone := run_eq_succ hedge
          exact hschemeB k b ⟨hkB, by omega, by omega, by omega⟩

theorem assignment_crosses (h : Alike T B b) (hquote : B[b]? = some 39)
    (hsecret : (assignmentCredential isAlnum).secret T i = some (p, q, e)) (hp : p < b)
    (he : b < e) : Crosses T B b (assignment isAlnum) i e := by
  intro hmem
  obtain ⟨v, l, s, hv, hlead, _, hvalue, hsecretAt⟩ := assignment_secret isAlnum hsecret
  have hiv : i ≤ v := ends_ge _ hv
  have hvp : v ≤ p ∧ ∀ n, QuotedAt T v n → v + 1 < b := by
    cases hsecretAt with
    | quoted n hn => exact ⟨by omega, fun _ _ => hp⟩
    | bare _ hnone _ => exact ⟨le_rfl, fun n hn => absurd hn (hnone n)⟩
  obtain ⟨j, hj, hbj⟩ := value_crosses h hquote (by omega) hvp.2 hvalue he
  have hvB : v ∈ ends B (assignmentLead isAlnum) i :=
    mem_of_upTo_eq (h.upTo isAlnum _ (by decide) (by omega)) (by omega) hv
  have hmatch := assignment_matchAt isAlnum hvB hj
  refine finditer_crossing (by omega) (fun s hs => ?_) hmem hmatch hbj h.right
  exact h.upTo isAlnum _ (by decide) (by omega)

end credentials

/-! ### The law of the head -/

section head
variable (isAlnum : ℕ → Bool)

/-- A credential that the head begins is cut off where it starts, or earlier. -/
theorem head_hidden (hword : ∀ c, githubLetter c = true → isWord isAlnum c = true)
    (head rest : Text) (cut : ℕ) {c : Credential} {r : Regex ℕ}
    (hcr : (c, r) ∈ (credentials isAlnum).zip (patterns isAlnum)) {i j p q e : ℕ}
    (hmem : (i, j) ∈ finditer (head ++ rest) r) (hsecret : c.secret (head ++ rest) i = some (p, q, e))
    (hp : p < head.length) (hj : head.length < j) : completeHead isAlnum head cut ≤ p := by
  have hfinds := List.forall₂_zip (credentials_find isAlnum) hcr
  have hje : e = j := by
    have hmatch := mem_finditer hmem
    rw [matchAt_eq hfinds, hsecret] at hmatch
    exact Option.some.inj hmatch
  subst hje
  have hip : i ≤ p := by
    have hspan := List.mem_of_mem_head? (Option.mem_def.mpr hsecret)
    obtain ⟨k, hk, hform⟩ := List.mem_flatMap.mp hspan
    obtain ⟨f, _, hspan⟩ := List.mem_flatMap.mp hform
    exact (ends_ge _ hk).trans (ends_ge _ (mem_formSpans.mp hspan).1)
  have hcross : ∀ completion, (r, completion) ∈ completions isAlnum →
      Crosses (head ++ rest) (head ++ completion) head.length r i e →
        completeHead isAlnum head cut ≤ p := by
    intro completion hentry hcrosses
    obtain ⟨m, hm, hmi, hend⟩ := hcrosses hmem
    have hle : completeHead isAlnum head cut ≤ m.1 :=
      completeHead_le_of isAlnum hentry hm (by omega) hend
    omega
  have halike := fun completion => alike_append head rest completion
  simp only [credentials, patterns, List.zip_cons_cons, List.zip_nil_right, List.mem_cons,
    List.not_mem_nil, or_false, Prod.mk.injEq] at hcr
  rcases hcr with ⟨rfl, rfl⟩ | ⟨rfl, rfl⟩ | ⟨rfl, rfl⟩ | ⟨rfl, rfl⟩ | ⟨rfl, rfl⟩
  · refine hcross (List.replicate 8 65) (by simp [completions]) (auth_crosses isAlnum (halike _)
      (fun k hbk hk => ?_) hsecret hp hj)
    rw [List.getElem?_append_right hbk, List.getElem?_replicate, if_pos (by omega)]
  · refine hcross (List.replicate 20 65) (by simp [completions]) (github_crosses isAlnum (halike _)
      hword (fun k hbk hk => ?_) (by simp) hsecret hp hj)
    rw [List.getElem?_append_right hbk, List.getElem?_replicate, if_pos (by omega)]
  · refine hcross (text "'") (by simp [completions]) (assignment_crosses isAlnum (halike _)
      ?_ hsecret hp hj)
    rw [List.getElem?_append_right le_rfl, Nat.sub_self]
    rfl
  · refine hcross (text "@") (by simp [completions]) (url_crosses isAlnum (halike _)
      ?_ hsecret hp hj)
    rw [List.getElem?_append_right le_rfl, Nat.sub_self]
    rfl
  · refine hcross (text "-----END PRIVATE KEY-----") (by simp [completions])
      (key_crosses (halike _) ⟨head.length + 25, ?_⟩ hsecret hp hj)
    have hshift : ends (head ++ text "-----END PRIVATE KEY-----") (keyLine "end") (head.length + 0)
        = (ends (text "-----END PRIVATE KEY-----") (keyLine "end") 0).map (head.length + ·) :=
      ends_shift (keyLine "end") (by decide) 0
    rw [Nat.add_zero] at hshift
    rw [hshift]
    exact List.mem_map.mpr ⟨25, by decide, rfl⟩

end head

end ParallelForge.Redaction
