import ParallelForge.Base.Table

/-!
# Changes of a table

A change sets one key to a value or removes it. Changes of distinct keys are made
independently of their order, and those that list every key on which two tables
differ lead from the one to the other.
-/

namespace ParallelForge.Base.Table
variable {κ α δ : Type} [DecidableEq κ]

def erase (t : Table κ α) (k : κ) : Table κ α :=
  ⟨t.rows.filter fun r => r.1 ≠ k, List.Nodup.sublist (List.Sublist.map _ List.filter_sublist) t.unique⟩

theorem get_erase (t : Table κ α) (k k' : κ) : (t.erase k).get k' = if k' = k then none else t.get k' := by
  apply Option.ext
  intro a
  rw [← mem_rows_iff, erase, List.mem_filter, mem_rows_iff, decide_eq_true_eq]
  by_cases hk : k' = k
  · simp [hk]
  · simp [hk]

/-- What the key has after the change. -/
def set (t : Table κ α) (k : κ) : Option α → Table κ α
  | some a => t.put k a
  | none => t.erase k

theorem get_set (t : Table κ α) (k k' : κ) (o : Option α) : (t.set k o).get k' = if k' = k then o else t.get k' := by
  cases o with
  | none => exact get_erase t k k'
  | some a => exact get_put t k k' a

section changes
variable (key : δ → κ) (value : δ → Option α)

def setAll (t : Table κ α) (changes : List δ) : Table κ α :=
  changes.foldl (fun t d => t.set (key d) (value d)) t

variable {key value}

theorem get_setAll_other (changes : List δ) (k : κ) : ∀ t : Table κ α, (∀ d ∈ changes, key d ≠ k) →
    (t.setAll key value changes).get k = t.get k := by
  induction changes with
  | nil => exact fun _ _ => rfl
  | cons d changes ih =>
    intro t hother
    have hd : k ≠ key d := (hother d List.mem_cons_self).symm
    rw [setAll, List.foldl_cons, ← setAll, ih _ fun e he => hother e (List.mem_cons_of_mem d he), get_set, if_neg hd]

theorem get_setAll (changes : List δ) : ∀ t : Table κ α, (changes.map key).Nodup → ∀ d ∈ changes,
    (t.setAll key value changes).get (key d) = value d := by
  induction changes with
  | nil => exact fun _ _ d hd => absurd hd List.not_mem_nil
  | cons e changes ih =>
    intro t hn d hd
    rw [List.map_cons, List.nodup_cons] at hn
    rw [setAll, List.foldl_cons, ← setAll]
    rcases List.mem_cons.mp hd with rfl | hd
    · have hother : ∀ e ∈ changes, key e ≠ key d := fun e he heq => hn.1 (heq ▸ List.mem_map_of_mem he)
      rw [get_setAll_other changes (key d) _ hother, get_set, if_pos rfl]
    · exact ih _ hn.2 d hd

/-- Changes with distinct keys, each to what the second table has, and one for every key
on which the tables differ. -/
theorem get_setAll_of_differ (changes : List δ) (t u : Table κ α) (hn : (changes.map key).Nodup)
    (hvalue : ∀ d ∈ changes, value d = u.get (key d))
    (hall : ∀ k, t.get k ≠ u.get k → ∃ d ∈ changes, key d = k) (k : κ) :
    (t.setAll key value changes).get k = u.get k := by
  by_cases hk : ∃ d ∈ changes, key d = k
  · obtain ⟨d, hd, rfl⟩ := hk
    rw [get_setAll changes t hn d hd, hvalue d hd]
  · have hother : ∀ d ∈ changes, key d ≠ k := fun d hd heq => hk ⟨d, hd, heq⟩
    have hsame : t.get k = u.get k := Classical.not_not.mp fun hne => hk (hall k hne)
    rw [get_setAll_other changes k t hother, hsame]

end changes

end ParallelForge.Base.Table
