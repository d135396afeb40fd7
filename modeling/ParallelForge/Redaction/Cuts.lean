import ParallelForge.Base.Overlap
import ParallelForge.Redaction.Edges
import Mathlib.Order.Bounds.Defs

/-!
# Overlaps and cuts are exact

`_secret_overlap` is the search of Knuth, Morris and Pratt: reading the secret
itself from its second character builds the table of borders, and reading the
value with that table gives the longest overlap. `_secret_cut_start` ends at a
cut that no complete secret straddles.
-/

namespace ParallelForge.Redaction
open Base Prog

section overlap
variable {secret : Text}

theorem drop_take_succ {index c : ℕ} (hpos : 0 < index) (hget : secret[index]? = some c) :
    (secret.take (index + 1)).drop 1 = (secret.take index).drop 1 ++ [c] := by
  have hlt : index < secret.length := (List.getElem?_eq_some_iff.mp hget).1
  rw [List.take_add_one, hget, List.drop_append_of_le_length]
  · rfl
  · rw [List.length_take]
    omega

theorem Borders.set {table : List ℕ} {index m : ℕ} (hborders : Borders secret table index)
    (hlt : index < table.length) (hm : IsOverlap secret ((secret.take (index + 1)).drop 1) m) :
    Borders secret (table.set index m) (index + 1) := by
  intro q hpos hq
  by_cases hlast : q = index + 1
  · subst hlast
    have hget : (table.set index m).getD (index + 1 - 1) 0 = m := by simp [List.getD, hlt]
    rw [hget]
    exact hm
  · have hget : (table.set index m).getD (q - 1) 0 = table.getD (q - 1) 0 := by
      have hne : index ≠ q - 1 := by omega
      simp [List.getD, List.getElem?_set_ne hne]
    rw [hget]
    exact hborders q hpos (by omega)

/-- The table after the entries below `index`, and the border that ends at `index`. -/
structure Building (secret : Text) (index : ℕ) (state : List ℕ × ℕ) : Prop where
  length : state.1.length = secret.length
  borders : Borders secret state.1 index
  border : IsOverlap secret ((secret.take index).drop 1) state.2

theorem building_one (secret : Text) : Building secret 1 (List.replicate secret.length 0, 0) := by
  have hfirst : (secret.take 1).drop 1 = [] := by
    rw [List.drop_eq_nil_iff, List.length_take]
    omega
  refine ⟨List.length_replicate, ?_, ?_⟩
  · intro q hpos hq
    have hq1 : q = 1 := by omega
    subst hq1
    have hget : (List.replicate secret.length 0).getD (1 - 1) 0 = 0 := by
      simp only [List.getD, List.getElem?_replicate]
      split <;> rfl
    rw [hfirst, hget]
    exact IsOverlap.nil secret
  · rw [hfirst]
    exact IsOverlap.nil secret

theorem fallbackStep_returns {index : ℕ} {state : List ℕ × ℕ} (hpos : 0 < index)
    (hlt : index < secret.length) (h : Building secret index state) :
    ∃ state', Returns (fallbackStep secret state index) state' ∧ Building secret (index + 1) state' := by
  have hget : secret[index]? = some (secret.get ⟨index, hlt⟩) := List.getElem?_eq_getElem hlt
  have hle : state.2 ≤ index := by
    have hlen := h.border.overlaps.le_length
    rw [List.length_drop, List.length_take] at hlen
    omega
  have hcond : ∀ m, (m != 0 && secret[index]? != secret[m]?) = true ↔
      m ≠ 0 ∧ secret[m]? ≠ some (secret.get ⟨index, hlt⟩) := by
    intro m
    rw [hget, Bool.and_eq_true, bne_iff_ne, bne_iff_ne, ne_comm (a := some _)]
  obtain ⟨m, hrun, -, hm⟩ := returns_fall h.borders _ hcond h.border hle
  rw [← drop_take_succ hpos hget, ← hget] at hm
  refine ⟨_, returns_bind hrun (returns_pure _), ?_⟩
  have hsame : (if secret[index]? = secret[m]? then m + 1 else m)
      = if secret[m]? = secret[index]? then m + 1 else m := by simp only [eq_comm]
  rw [hsame]
  refine ⟨?_, Borders.set h.borders ?_ hm, hm⟩
  · rw [List.length_set]
    exact h.length
  · rw [h.length]
    exact hlt

/- `range(1, n + 1)` counts what has been read. -/
theorem range_split {n index : ℕ} {done rest : List ℕ}
    (h : List.range' 1 n = done ++ index :: rest) : index = done.length + 1 ∧ index ≤ n := by
  have hlt : done.length < n := by
    have hlen := congrArg List.length h
    rw [List.length_range', List.length_append, List.length_cons] at hlen
    omega
  have hget : (List.range' 1 n)[done.length]? = some index := by
    rw [h, List.getElem?_append_right le_rfl, Nat.sub_self]
    rfl
  rw [List.getElem?_range' hlt, Option.some.injEq] at hget
  omega

theorem fallback_returns (secret : Text) :
    ∃ state, Returns ((List.range' 1 (secret.length - 1)).foldlM (fallbackStep secret)
      (List.replicate secret.length 0, 0)) state ∧ Borders secret state.1 secret.length := by
  obtain ⟨state, hrun, hbuilt⟩ := returns_foldlM (fallbackStep secret)
    (List.range' 1 (secret.length - 1)) (fun done state => Building secret (done.length + 1) state)
    (by
      intro done index rest state hl h
      obtain ⟨hindex, hle⟩ := range_split hl
      rw [List.length_append, List.length_singleton, ← hindex]
      rw [← hindex] at h
      exact fallbackStep_returns (by omega) (by omega) h) _ (building_one secret)
  refine ⟨state, hrun, ?_⟩
  intro q hpos hq
  rw [List.length_range'] at hbuilt
  exact hbuilt.borders q hpos (by omega)

theorem overlapStep_returns {fallback : List ℕ} {done : Text} {matched : ℕ} (character : ℕ)
    (hborders : Borders secret fallback secret.length) (h : IsOverlap secret done matched) :
    ∃ matched', Returns (overlapStep secret fallback matched character) matched' ∧
      IsOverlap secret (done ++ [character]) matched' := by
  have hcond : ∀ m, (m != 0 && (m == secret.length || some character != secret[m]?)) = true ↔
      m ≠ 0 ∧ secret[m]? ≠ some character := by
    intro m
    rw [Bool.and_eq_true, bne_iff_ne, Bool.or_eq_true, beq_iff_eq, bne_iff_ne]
    constructor
    · rintro ⟨hpos, hend | hne⟩
      · refine ⟨hpos, ?_⟩
        rw [hend, List.getElem?_length]
        exact fun he => by cases he
      · exact ⟨hpos, hne.symm⟩
    · exact fun ⟨hpos, hne⟩ => ⟨hpos, Or.inr hne.symm⟩
  obtain ⟨m, hrun, -, hm⟩ := returns_fall hborders _ hcond h h.overlaps.1
  refine ⟨_, returns_bind hrun (returns_pure _), ?_⟩
  have hsame : (if some character = secret[m]? then m + 1 else m)
      = if secret[m]? = some character then m + 1 else m := by simp only [eq_comm]
  rw [hsame]
  exact hm

/-- The overlap is the longest beginning of the secret that ends the value. -/
theorem secretOverlap_returns (value secret : Text) :
    ∃ k, Returns (secretOverlap value secret) k ∧ IsOverlap secret value k := by
  unfold secretOverlap
  by_cases hempty : value = []
  · rw [if_pos hempty, hempty]
    exact ⟨0, returns_pure 0, IsOverlap.nil secret⟩
  · rw [if_neg hempty]
    obtain ⟨table, htable, hborders⟩ := fallback_returns secret
    obtain ⟨k, hrun, hk⟩ := returns_foldlM (overlapStep secret table.1)
      (value.drop (value.length - secret.length)) (fun done m => IsOverlap secret done m)
      (fun done c rest m _ h => overlapStep_returns c hborders h) 0 (IsOverlap.nil secret)
    refine ⟨k, returns_bind htable hrun, ?_, ?_⟩
    · exact ⟨hk.overlaps.1, hk.overlaps.2.trans (List.drop_suffix _ value)⟩
    · -- an overlap is no longer than the secret, so it lies in the part that was read
      intro j hj
      refine hk.greatest j ⟨hj.1, List.suffix_of_suffix_length_le hj.2 (List.drop_suffix _ value) ?_⟩
      have hlen := hj.le_length
      rw [List.length_take, List.length_drop]
      have hle := hj.1
      omega

theorem longestOverlap_returns (value : Text) (secrets : List Text) :
    ∃ k, Returns (longestOverlap value secrets) k ∧ k ≤ value.length ∧
      ∀ s ∈ secrets, ∀ j, Overlaps s value j → j ≤ k := by
  obtain ⟨k, hrun, hk⟩ := returns_foldlM
    (fun longest secret => (do
      let k ← secretOverlap value secret
      pure (max longest k) : Prog ℕ)) secrets
    (fun done k => k ≤ value.length ∧ ∀ s ∈ done, ∀ j, Overlaps s value j → j ≤ k)
    (by
      intro done secret rest longest _ h
      obtain ⟨k, hrun, hk⟩ := secretOverlap_returns value secret
      refine ⟨_, returns_bind hrun (returns_pure _), ?_, ?_⟩
      · have hle := hk.overlaps.le_length
        have hlongest := h.1
        omega
      · intro s hs j hj
        rcases List.mem_append.mp hs with hs | hs
        · have hle := h.2 s hs j hj
          omega
        · rw [List.mem_singleton] at hs
          subst hs
          have hle := hk.greatest j hj
          omega) 0
    ⟨Nat.zero_le _, fun s hs => by cases hs⟩
  exact ⟨k, hrun, hk⟩

end overlap

section cuts
variable {value : Text}

/-- No complete secret lies on both sides of the cut. -/
def Unsplit (value : Text) (secrets : List Text) (cut : ℕ) : Prop :=
  ∀ s ∈ secrets, ∀ i, Occurs s value i → i + s.length ≤ cut ∨ cut ≤ i

theorem find_bounds {word : Text} {start stop i : ℕ} (h : find value word start stop = some i) :
    start ≤ i ∧ i + word.length ≤ stop := by
  have hmem := List.mem_of_find?_eq_some h
  rw [List.mem_range'_1] at hmem
  omega

theorem not_occurs_of_find {word : Text} {start stop i : ℕ} (hne : word ≠ [])
    (h : find value word start stop = none) (hstart : start ≤ i) (hstop : i + word.length ≤ stop) :
    ¬ Occurs word value i := by
  intro hocc
  have hlen := hocc.le_length hne
  have hmem : i ∈ List.range' start (min stop value.length + 1 - word.length - start) := by
    rw [List.mem_range'_1]
    omega
  have hnot := List.find?_eq_none.mp h i hmem
  exact hnot (List.isPrefixOf_iff_prefix.mpr hocc)

theorem cutBefore_le (value : Text) (cut : ℕ) (secret : Text) : cutBefore value cut secret ≤ cut := by
  unfold cutBefore
  split
  · split
    · omega
    · exact le_rfl
  · exact le_rfl

theorem unsplit_of_cutBefore {cut : ℕ} {secret : Text} (h : cutBefore value cut secret = cut) (i : ℕ)
    (hocc : Occurs secret value i) : i + secret.length ≤ cut ∨ cut ≤ i := by
  by_cases hempty : secret = []
  · rw [hempty, List.length_nil]
    omega
  have hpos := List.length_pos_iff.mpr hempty
  unfold cutBefore at h
  split at h
  · next k hfind =>
    have hk := find_bounds hfind
    have hlt : k < cut := by omega
    rw [if_pos hlt] at h
    omega
  · next hfind =>
    by_contra hsplit
    rw [not_or] at hsplit
    exact not_occurs_of_find hempty hfind (by omega) (by omega) hocc

/-- An occurrence of a secret lies on both sides of the position. -/
def Split (value : Text) (secrets : List Text) (p : ℕ) : Prop :=
  ∃ s ∈ secrets, ∃ i, Occurs s value i ∧ i < p ∧ p < i + s.length

theorem not_unsplit {secrets : List Text} {p : ℕ} (h : Split value secrets p) : ¬ Unsplit value secrets p := by
  obtain ⟨s, hs, i, hocc, hlo, hhi⟩ := h
  intro hunsplit
  have hside := hunsplit s hs i hocc
  omega

theorem occurs_of_find {word : Text} {start stop i : ℕ} (h : find value word start stop = some i) :
    Occurs word value i := by
  have hprefix : word.isPrefixOf (value.drop i) = true :=
    List.find?_some (p := fun i => word.isPrefixOf (value.drop i)) h
  exact List.isPrefixOf_iff_prefix.mp hprefix

/- What one secret skips is split by it. -/
theorem cutBefore_skips {secrets : List Text} {secret : Text} (hsecret : secret ∈ secrets) {cut p : ℕ}
    (hlo : cutBefore value cut secret < p) (hhi : p ≤ cut) : Split value secrets p := by
  unfold cutBefore at hlo
  split at hlo
  · next i hfind =>
    have hwindow := find_bounds hfind
    split at hlo
    · exact ⟨secret, hsecret, i, occurs_of_find hfind, hlo, by omega⟩
    · omega
  · omega

theorem foldl_cutBefore_skips {secrets : List Text} (l : List Text) (hl : ∀ s ∈ l, s ∈ secrets) {cut p : ℕ}
    (hlo : l.foldl (cutBefore value) cut < p) (hhi : p ≤ cut) : Split value secrets p := by
  induction l generalizing cut with
  | nil =>
    rw [List.foldl_nil] at hlo
    omega
  | cons s l ih =>
    rw [List.forall_mem_cons] at hl
    by_cases hmid : cutBefore value cut s < p
    · exact cutBefore_skips hl.1 hmid hhi
    · exact ih hl.2 hlo (by omega)

/- A fold that only goes down stands still only if every step does. -/
theorem foldl_down {β : Type} (f : ℕ → β → ℕ) (hf : ∀ c b, f c b ≤ c) (l : List β) :
    ∀ c, l.foldl f c ≤ c ∧ (l.foldl f c = c → ∀ b ∈ l, f c b = c) := by
  induction l with
  | nil => exact fun c => ⟨le_rfl, fun _ b hb => by cases hb⟩
  | cons a l ih =>
    intro c
    have hfirst := hf c a
    obtain ⟨hle, hsame⟩ := ih (f c a)
    rw [List.foldl_cons]
    refine ⟨by omega, ?_⟩
    intro heq b hb
    have hstill : f c a = c := by omega
    rw [hstill] at heq hsame
    rcases List.mem_cons.mp hb with rfl | hb
    · exact hstill
    · exact hsame heq b hb

/-- The cut moves left until no complete secret straddles it, and no further. -/
theorem secretCutStart_returns (secrets : List Text) (cut : ℕ) :
    ∃ c, Returns (secretCutStart value secrets cut) c ∧ c ≤ cut ∧ Unsplit value secrets c ∧
      ∀ p, c < p → p ≤ cut → Split value secrets p := by
  unfold secretCutStart
  by_cases hend : cut = value.length
  · rw [if_pos hend]
    refine ⟨cut, returns_pure cut, le_rfl, ?_, fun p hlo hhi => by omega⟩
    intro s _ i hocc
    by_cases hempty : s = []
    · rw [hempty, List.length_nil]
      omega
    · have hlen := hocc.le_length hempty
      omega
  · rw [if_neg hend]
    have hdown := foldl_down (cutBefore value) (cutBefore_le value) secrets
    obtain ⟨c, hrun, ⟨hle, hskips⟩, hlast⟩ := returns_untilStable (fun cut => cut != 0)
      (fun cut => (pure (secrets.foldl (cutBefore value) cut) : Prog ℕ))
      (fun c => c ≤ cut ∧ ∀ p, c < p → p ≤ cut → Split value secrets p) id
      (by
        intro c hc _
        have hfold := (hdown c).1
        refine ⟨_, returns_pure _, ⟨by omega, ?_⟩, ?_⟩
        · intro p hlo hhi
          by_cases hmid : c < p
          · exact hc.2 p hmid hhi
          · exact foldl_cutBefore_skips secrets (fun s hs => hs) hlo (by omega)
        · simp only [id_eq]
          omega) cut ⟨le_rfl, fun p hlo hhi => by omega⟩
    refine ⟨c, hrun, hle, ?_, hskips⟩
    intro s hs i hocc
    rcases hlast with hzero | hstill
    · have hc : c = 0 := by simpa using hzero
      omega
    · have heq := (returns_pure _).unique hstill
      exact unsplit_of_cutBefore ((hdown c).2 heq s hs) i hocc

/-- The overlap is the greatest number of letters that end the value and begin the secret, and the cut start
the greatest position up to the cut that no complete secret straddles. -/
theorem overlap_and_cut_exact (value secret : Text) (secrets : List Text) (cut : ℕ) :
    (∃ k, Returns (secretOverlap value secret) k ∧
      IsGreatest {k | k ≤ min value.length secret.length ∧ value.drop (value.length - k) = secret.take k} k) ∧
    ∃ c, Returns (secretCutStart value secrets cut) c ∧ IsGreatest {p | p ≤ cut ∧ Unsplit value secrets p} c := by
  have hlast : ∀ k, Overlaps secret value k ↔
      k ≤ min value.length secret.length ∧ value.drop (value.length - k) = secret.take k := by
    intro k
    constructor
    · intro h
      have hle := h.le_length
      have hsuffix := List.suffix_iff_eq_drop.mp h.2
      rw [List.length_take, Nat.min_eq_left h.1] at hsuffix
      exact ⟨by rw [Nat.le_min]; exact ⟨hle, h.1⟩, hsuffix.symm⟩
    · rintro ⟨hle, heq⟩
      refine ⟨hle.trans (Nat.min_le_right _ _), ?_⟩
      rw [← heq]
      exact List.drop_suffix _ _
  constructor
  · obtain ⟨k, hrun, hk⟩ := secretOverlap_returns value secret
    exact ⟨k, hrun, (hlast k).mp hk.overlaps, fun j hj => hk.greatest j ((hlast j).mpr hj)⟩
  · obtain ⟨c, hrun, hle, hunsplit, hskips⟩ := @secretCutStart_returns value secrets cut
    refine ⟨c, hrun, ⟨hle, hunsplit⟩, ?_⟩
    rintro p ⟨hp, hwhole⟩
    by_contra hlt
    exact not_unsplit (hskips p (by omega) hp) hwhole

end cuts

end ParallelForge.Redaction
