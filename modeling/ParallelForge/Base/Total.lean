import ParallelForge.Base.Table
import Mathlib.Algebra.Order.BigOperators.Group.List
import Mathlib.Algebra.Order.Group.Nat
import Mathlib.Algebra.BigOperators.Group.List.Basic

/-!
# Totals over tables

What the rows of a table add up to under a weight. A total is the weight of
one row and the total `off` its key, which no write under that key moves; a
table whose rows all dominate those of another has the larger total.
-/

namespace ParallelForge.Base.Table
variable {κ α M : Type}

section monoid
variable [AddCommMonoid M]

def total (t : Table κ α) (w : κ → α → M) : M := (t.rows.map fun r => w r.1 r.2).sum

@[simp] theorem total_empty (w : κ → α → M) : (empty : Table κ α).total w = 0 := rfl

theorem total_add (t : Table κ α) (w w' : κ → α → M) :
    t.total (fun k a => w k a + w' k a) = t.total w + t.total w' := List.sum_map_add

theorem total_hom {N : Type} [AddCommMonoid N] (t : Table κ α) (w : κ → α → M) (f : M →+ N) :
    f (t.total w) = t.total fun k a => f (w k a) := by
  unfold total
  rw [map_list_sum, List.map_map]
  rfl

theorem length_select (t : Table κ α) (p : κ → α → Bool) :
    (t.select p).length = t.total fun k a => if p k a then 1 else 0 := by
  unfold select total
  induction t.rows with
  | nil => rfl
  | cons r rows ih =>
    by_cases hp : p r.1 r.2 = true
    · simp [hp, ih, Nat.add_comm]
    · simp [hp, ih]

variable [DecidableEq κ]

/-- The weight without the row under `k`. -/
def off (k : κ) (w : κ → α → M) (i : κ) (a : α) : M := if i = k then 0 else w i a

theorem total_congr (t : Table κ α) (w w' : κ → α → M)
    (h : ∀ k a, t.get k = some a → w k a = w' k a) : t.total w = t.total w' := by
  unfold total
  congr 1
  apply List.map_congr_left
  intro r hr
  exact h r.1 r.2 ((mem_rows_iff t r.1 r.2).mp hr)

theorem total_eq_zero (t : Table κ α) (w : κ → α → M) (h : ∀ k a, t.get k = some a → w k a = 0) :
    t.total w = 0 := by
  rw [total_congr t w (fun _ _ => 0) h]
  simp [total]

theorem sum_off (rows : List (κ × α)) (hu : (rows.map Prod.fst).Nodup) (w : κ → α → M) (k : κ) :
    (rows.map fun r => w r.1 r.2).sum
      = ((rows.find? fun r => r.1 == k).map Prod.snd).elim 0 (w k)
        + (rows.map fun r => off k w r.1 r.2).sum := by
  induction rows with
  | nil => simp
  | cons r rows ih =>
    obtain ⟨i, a⟩ := r
    simp only [List.map_cons, List.nodup_cons] at hu
    have ih := ih hu.2
    by_cases hk : i = k
    · subst hk
      -- no later row has this key, so the rest of the total is `off` it already
      have hrest : (rows.map fun r => off i w r.1 r.2) = rows.map fun r => w r.1 r.2 := by
        apply List.map_congr_left
        intro r hr
        have hne : r.1 ≠ i := fun he => hu.1 (he ▸ List.mem_map_of_mem hr)
        simp [off, hne]
      have hself : off i w i a = 0 := if_pos rfl
      simp [hself, hrest]
    · have hb : (i == k) = false := by simpa using hk
      simp only [List.map_cons, List.sum_cons, List.find?_cons, hb, off, if_neg hk]
      rw [ih, add_left_comm]
      rfl

/-- A total, taken apart at one key. -/
theorem total_eq_off (t : Table κ α) (w : κ → α → M) (k : κ) :
    t.total w = (t.get k).elim 0 (w k) + t.total (off k w) :=
  sum_off t.rows t.unique w k

theorem total_of_some (t : Table κ α) (w : κ → α → M) (k : κ) (a : α) (h : t.get k = some a) :
    t.total w = w k a + t.total (off k w) := by
  rw [total_eq_off t w k, h]
  rfl

theorem total_off_put (t : Table κ α) (w : κ → α → M) (k : κ) (b : α) :
    (t.put k b).total (off k w) = t.total (off k w) := by
  unfold put
  split
  · simp [total, off]
  · simp only [total, modify, mapRows, List.map_map]
    congr 1
    apply List.map_congr_left
    intro r hr
    by_cases hk : r.1 = k
    · simp [off, hk]
    · simp [off, hk]

theorem total_put (t : Table κ α) (w : κ → α → M) (k : κ) (b : α) :
    (t.put k b).total w = w k b + t.total (off k w) := by
  rw [total_eq_off _ w k, get_put_self, total_off_put]
  rfl

theorem total_off_congr (t : Table κ α) (w w' : κ → α → M) (k : κ)
    (h : ∀ i a, i ≠ k → t.get i = some a → w i a = w' i a) :
    t.total (off k w) = t.total (off k w') := by
  apply total_congr
  intro i a ha
  unfold off
  split
  · rfl
  · next hi => exact h i a hi ha

/- The total by keys. -/
theorem total_eq_keys (t : Table κ α) (w : κ → α → M) :
    t.total w = ((t.rows.map Prod.fst).map fun k => (t.get k).elim 0 (w k)).sum := by
  unfold total
  rw [List.map_map]
  congr 1
  apply List.map_congr_left
  intro r hr
  have hg : t.get r.1 = some r.2 := (mem_rows_iff t r.1 r.2).mp hr
  simp [hg]

end monoid

variable [DecidableEq κ]

theorem mem_keys (t : Table κ α) (k : κ) : k ∈ t.rows.map Prod.fst ↔ ∃ a, t.get k = some a := by
  simp only [List.mem_map, Prod.exists, mem_rows_iff]
  constructor
  · rintro ⟨k', a, h, rfl⟩
    exact ⟨a, h⟩
  · rintro ⟨a, h⟩
    exact ⟨k, a, h, rfl⟩

theorem total_mono (t t' : Table κ α) (w w' : κ → α → ℕ)
    (h : ∀ k a, t.get k = some a → ∃ b, t'.get k = some b ∧ w k a ≤ w' k b) :
    t.total w ≤ t'.total w' := by
  rw [total_eq_keys, total_eq_keys]
  have hsub : (t.rows.map Prod.fst).Subperm (t'.rows.map Prod.fst) := by
    apply List.subperm_of_subset t.unique
    intro k hk
    obtain ⟨a, ha⟩ := (mem_keys t k).mp hk
    obtain ⟨b, hb, -⟩ := h k a ha
    exact (mem_keys t' k).mpr ⟨b, hb⟩
  obtain ⟨l, hperm, hl⟩ := hsub
  have hle : ((t.rows.map Prod.fst).map fun k => (t.get k).elim 0 (w k)).sum
      ≤ ((t.rows.map Prod.fst).map fun k => (t'.get k).elim 0 (w' k)).sum := by
    apply List.sum_le_sum
    intro k hk
    obtain ⟨a, ha⟩ := (mem_keys t k).mp hk
    obtain ⟨b, hb, hab⟩ := h k a ha
    simpa [ha, hb] using hab
  refine hle.trans ?_
  rw [← (hperm.map _).sum_eq]
  exact (hl.map _).sum_le_sum fun _ _ => Nat.zero_le _

end ParallelForge.Base.Table
