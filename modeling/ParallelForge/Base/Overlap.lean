import ParallelForge.Base.Loop

/-!
# Overlaps and occurrences of words

`Overlaps p w k` says that the last `k` letters of `w` are the first `k` of `p`.
A table of borders (the longest proper overlap of each prefix of `p` with itself)
carries the longest overlap of `p` from `w` to `w ++ [c]` by falling back while
`c` does not continue it. An occurrence of a word straddles a cut that lies
strictly inside it.
-/

namespace ParallelForge.Base
variable {α : Type} {p w : List α} {j k : ℕ} {c : α}

def Overlaps (p w : List α) (k : ℕ) : Prop := k ≤ p.length ∧ p.take k <:+ w

structure IsOverlap (p w : List α) (k : ℕ) : Prop where
  overlaps : Overlaps p w k
  greatest : ∀ j, Overlaps p w j → j ≤ k

theorem overlaps_zero (p w : List α) : Overlaps p w 0 := ⟨Nat.zero_le _, List.nil_suffix⟩

theorem Overlaps.le_length (h : Overlaps p w k) : k ≤ w.length := by
  have hle := h.2.length_le
  rw [List.length_take, Nat.min_eq_left h.1] at hle
  exact hle

theorem IsOverlap.nil (p : List α) : IsOverlap p [] 0 :=
  ⟨overlaps_zero p [], fun _ hj => hj.le_length⟩

theorem overlaps_snoc (p w : List α) (c : α) (k : ℕ) :
    Overlaps p (w ++ [c]) (k + 1) ↔ Overlaps p w k ∧ p[k]? = some c := by
  constructor
  · rintro ⟨hle, hsuffix⟩
    have hget : p[k]? = some (p.get ⟨k, by omega⟩) := List.getElem?_eq_getElem (by omega)
    have htake : p.take (k + 1) = p.take k ++ [p.get ⟨k, by omega⟩] := by
      rw [List.take_add_one, hget]
      rfl
    rw [htake] at hsuffix
    obtain ⟨t, ht⟩ := hsuffix
    rw [← List.append_assoc] at ht
    obtain ⟨hw, hc⟩ := List.append_inj' ht rfl
    rw [hget]
    exact ⟨⟨by omega, ⟨t, hw⟩⟩, by rw [List.singleton_inj.mp hc]⟩
  · rintro ⟨⟨-, t, ht⟩, hget⟩
    have hlt : k < p.length := (List.getElem?_eq_some_iff.mp hget).1
    refine ⟨hlt, t, ?_⟩
    rw [List.take_add_one, hget, ← ht]
    simp

/- The shorter of two overlaps with one word is an overlap with the longer, and a proper one. -/
theorem Overlaps.nested (hj : Overlaps p w j) (hk : Overlaps p w k) (hlt : j < k) :
    Overlaps p ((p.take k).drop 1) j := by
  refine ⟨hj.1, ?_⟩
  have hin : p.take j <:+ p.take k := by
    refine List.suffix_of_suffix_length_le hj.2 hk.2 ?_
    rw [List.length_take, List.length_take]
    omega
  refine List.suffix_of_suffix_length_le hin (List.drop_suffix 1 _) ?_
  rw [List.length_drop, List.length_take, List.length_take, Nat.min_eq_left hk.1]
  omega

theorem Overlaps.trans (hk : Overlaps p w k) (hj : Overlaps p ((p.take k).drop 1) j) :
    Overlaps p w j :=
  ⟨hj.1, (hj.2.trans (List.drop_suffix 1 _)).trans hk.2⟩

/-- The first `n` entries of the table are the borders of the prefixes they end. -/
def Borders (p : List α) (table : List ℕ) (n : ℕ) : Prop :=
  ∀ q, 0 < q → q ≤ n → IsOverlap p ((p.take q).drop 1) (table.getD (q - 1) 0)

theorem Borders.lt {table : List ℕ} {n q : ℕ} (h : Borders p table n) (hpos : 0 < q) (hq : q ≤ n) :
    table.getD (q - 1) 0 < q := by
  have hle := (h q hpos hq).overlaps.le_length
  rw [List.length_drop, List.length_take] at hle
  omega

theorem isOverlap_snoc [DecidableEq α] (hover : Overlaps p w k)
    (hbound : ∀ j, Overlaps p w j → p[j]? = some c → j ≤ k) (hend : k = 0 ∨ p[k]? = some c) :
    IsOverlap p (w ++ [c]) (if p[k]? = some c then k + 1 else k) := by
  split
  · next hc =>
    refine ⟨(overlaps_snoc p w c k).mpr ⟨hover, hc⟩, ?_⟩
    intro j hj
    cases j with
    | zero => omega
    | succ j =>
      obtain ⟨hj, hget⟩ := (overlaps_snoc p w c j).mp hj
      have := hbound j hj hget
      omega
  · next hc =>
    have hzero : k = 0 := hend.resolve_right hc
    subst hzero
    refine ⟨overlaps_zero p _, ?_⟩
    intro j hj
    cases j with
    | zero => omega
    | succ j =>
      obtain ⟨hj, hget⟩ := (overlaps_snoc p w c j).mp hj
      have hle := hbound j hj hget
      have hj0 : j = 0 := by omega
      subst hj0
      exact absurd hget hc

open Prog in
/-- Falling back along the borders and reading one more letter keeps the longest overlap. -/
theorem returns_fall [DecidableEq α] {table : List ℕ} {n : ℕ} (hborders : Borders p table n)
    (cond : ℕ → Bool) (hcond : ∀ m, cond m = true ↔ m ≠ 0 ∧ p[m]? ≠ some c)
    (h : IsOverlap p w k) (hk : k ≤ n) :
    ∃ m, Returns (whileLoop cond (fun m => pure (table.getD (m - 1) 0)) k) m ∧ m ≤ k ∧
      IsOverlap p (w ++ [c]) (if p[m]? = some c then m + 1 else m) := by
  obtain ⟨m, hrun, ⟨hover, hbound, hle⟩, hend⟩ := returns_while cond
    (fun m => pure (table.getD (m - 1) 0))
    (fun m => Overlaps p w m ∧ (∀ j, Overlaps p w j → p[j]? = some c → j ≤ m) ∧ m ≤ k) id
    (by
      rintro m ⟨hover, hbound, hle⟩ hm
      obtain ⟨hpos, hc⟩ := (hcond m).mp hm
      have hborder := hborders m (by omega) (by omega)
      have hlt := hborders.lt (by omega : 0 < m) (by omega)
      refine ⟨_, returns_pure _, ⟨hover.trans hborder.overlaps, ?_, by omega⟩, hlt⟩
      intro j hj hget
      have hne : j ≠ m := by
        intro he
        rw [he] at hget
        exact hc hget
      have hjm := hbound j hj hget
      exact hborder.greatest j (hj.nested hover (by omega))) k
    ⟨h.overlaps, fun j hj _ => h.greatest j hj, le_rfl⟩
  refine ⟨m, hrun, hle, isOverlap_snoc hover hbound ?_⟩
  by_contra hne
  rw [not_or] at hne
  rw [(hcond m).mpr hne] at hend
  cases hend

section occurrences

def Occurs (s text : List α) (i : ℕ) : Prop := s <+: text.drop i

theorem Occurs.le_length {s text : List α} {i : ℕ} (h : Occurs s text i) (hne : s ≠ []) :
    i + s.length ≤ text.length := by
  have hle := h.length_le
  rw [List.length_drop] at hle
  have hpos := List.length_pos_iff.mpr hne
  omega

theorem occurs_iff_getElem? {s text : List α} {i : ℕ} :
    Occurs s text i ↔ ∀ n, n < s.length → text[i + n]? = s[n]? := by
  unfold Occurs
  rw [List.prefix_iff_getElem?]
  constructor
  · intro h n hn
    rw [← List.getElem?_drop]
    rw [List.getElem?_eq_getElem hn]
    exact h n hn
  · intro h n hn
    rw [List.getElem?_drop]
    have hget := h n hn
    rw [List.getElem?_eq_getElem hn] at hget
    exact hget

theorem Occurs.of_append_left {s u v : List α} {i : ℕ} (h : Occurs s (u ++ v) i)
    (hle : i + s.length ≤ u.length) : Occurs s u i := by
  rw [occurs_iff_getElem?] at h ⊢
  intro n hn
  rw [← h n hn, List.getElem?_append_left (by omega)]

theorem Occurs.of_append_right {s u v : List α} {i : ℕ} (h : Occurs s (u ++ v) i)
    (hle : u.length ≤ i) : Occurs s v (i - u.length) := by
  rw [occurs_iff_getElem?] at h ⊢
  intro n hn
  rw [← h n hn, List.getElem?_append_right (by omega)]
  congr 1
  omega

/- An occurrence that runs over the end of `u` begins with an overlap. -/
theorem Occurs.overlaps {s u v : List α} {i : ℕ} (h : Occurs s (u ++ v) i) (hi : i ≤ u.length)
    (hend : u.length ≤ i + s.length) : Overlaps s u (u.length - i) := by
  refine ⟨by omega, ?_⟩
  have hsame : s.take (u.length - i) = u.drop i := by
    rw [Occurs, List.drop_append_of_le_length hi] at h
    have htake := List.prefix_of_prefix_length_le (List.take_prefix (u.length - i) s |>.trans h)
      (List.prefix_append (u.drop i) v) (by rw [List.length_take, List.length_drop]; omega)
    exact htake.eq_of_length (by rw [List.length_take, List.length_drop]; omega)
  rw [hsame]
  exact List.drop_suffix i u

theorem Occurs.reverse {s text : List α} {i : ℕ} (h : Occurs s text i) (hle : i + s.length ≤ text.length) :
    Occurs s.reverse text.reverse (text.length - (i + s.length)) := by
  obtain ⟨rest, hrest⟩ := h
  have hlen := congrArg List.length hrest
  rw [List.length_append, List.length_drop] at hlen
  have htext : text = text.take i ++ (s ++ rest) := by rw [hrest, List.take_append_drop]
  have hrev : text.reverse = rest.reverse ++ (s.reverse ++ (text.take i).reverse) := by
    conv_lhs => rw [htext]
    simp
  refine ⟨(text.take i).reverse, ?_⟩
  rw [hrev, List.drop_append_of_le_length, List.drop_eq_nil_of_le, List.nil_append]
  · rw [List.length_reverse]
    omega
  · rw [List.length_reverse]
    omega

end occurrences

end ParallelForge.Base
