import Mathlib.Data.Nat.Notation
import Mathlib.Data.Option.Basic

/-!
# One row under READ COMMITTED

A row of a database whose transactions run at READ COMMITTED: the version last
committed, and the transaction that holds the row lock with the version it has
written. A plain `SELECT` takes no lock; an `UPDATE` waits for the lock and
applies to the committed version, not to what its transaction read earlier.
-/

namespace ParallelForge.Base
variable {ρ : Type}

structure LockedRow (ρ : Type) where
  committed : ρ
  holder : Option (ℕ × ρ)

namespace LockedRow

/-- What transaction `k` has written under its lock. -/
def held (r : LockedRow ρ) (k : ℕ) : Option ρ :=
  match r.holder with
  | some (j, w) => if j = k then some w else none
  | none => none

/-- `SELECT`: own writes, else the committed version. -/
def read (r : LockedRow ρ) (k : ℕ) : ρ := (r.held k).getD r.committed

/-- `SELECT ... FOR UPDATE SKIP LOCKED`. -/
def claim (r : LockedRow ρ) (k : ℕ) : Option (LockedRow ρ) :=
  match r.holder with
  | some _ => none
  | none => some { r with holder := some (k, r.committed) }

/-- `UPDATE`; `none` while another transaction holds the lock. -/
def write (r : LockedRow ρ) (k : ℕ) (f : ρ → ρ) : Option (LockedRow ρ) :=
  match r.holder with
  | none => some { r with holder := some (k, f r.committed) }
  | some (j, w) => if j = k then some { r with holder := some (k, f w) } else none

def commit (r : LockedRow ρ) (k : ℕ) : LockedRow ρ :=
  match r.held k with
  | some w => ⟨w, none⟩
  | none => r

def rollback (r : LockedRow ρ) (k : ℕ) : LockedRow ρ :=
  match r.held k with
  | some _ => { r with holder := none }
  | none => r

def free (row : ρ) : LockedRow ρ := ⟨row, none⟩

@[simp] theorem held_free (row : ρ) (k : ℕ) : (free row).held k = none := rfl

/- There is one lock. -/
theorem held_unique (r : LockedRow ρ) (j k : ℕ) (v : ρ) (h : r.held k = some v) (hjk : j ≠ k) :
    r.held j = none := by
  unfold held at h ⊢
  cases hh : r.holder with
  | none => rfl
  | some x =>
    rw [hh] at h
    have hk : x.1 = k := by
      by_contra hne
      simp [hne] at h
    simp [hk, Ne.symm hjk]

theorem claim_eq_some (r r' : LockedRow ρ) (k : ℕ) (h : r.claim k = some r') :
    r'.committed = r.committed ∧ r'.held k = some r.committed ∧
      ∀ j, j ≠ k → r'.held j = r.held j := by
  unfold claim at h
  cases hh : r.holder with
  | some x => simp [hh] at h
  | none =>
    rw [hh] at h
    cases h
    refine ⟨rfl, by simp [held], ?_⟩
    intro j hj
    simp [held, hh, Ne.symm hj]

theorem write_eq_some (r r' : LockedRow ρ) (k : ℕ) (f : ρ → ρ) (h : r.write k f = some r') :
    r'.committed = r.committed ∧ r'.held k = some (f (r.read k)) ∧
      ∀ j, j ≠ k → r'.held j = r.held j := by
  unfold write at h
  cases hh : r.holder with
  | none =>
    rw [hh] at h
    cases h
    refine ⟨rfl, by simp [held, read, hh], ?_⟩
    intro j hj
    simp [held, hh, Ne.symm hj]
  | some x =>
    rw [hh] at h
    by_cases hx : x.1 = k
    · simp only [hx, ite_true, Option.some.injEq] at h
      subst h
      refine ⟨rfl, by simp [held, read, hh, hx], ?_⟩
      intro j hj
      simp [held, hh, hx, Ne.symm hj]
    · simp [hx] at h

theorem commit_committed (r : LockedRow ρ) (k : ℕ) : (r.commit k).committed = r.read k := by
  unfold commit read
  cases r.held k <;> rfl

theorem commit_held (r : LockedRow ρ) (k : ℕ) : (r.commit k).held k = none := by
  unfold commit
  cases h : r.held k with
  | some w => rfl
  | none => exact h

theorem commit_held_other (r : LockedRow ρ) (j k : ℕ) (hj : j ≠ k) :
    (r.commit k).held j = r.held j := by
  unfold commit
  cases h : r.held k with
  | some w => exact (held_unique r j k w h hj).symm
  | none => rfl

theorem rollback_committed (r : LockedRow ρ) (k : ℕ) : (r.rollback k).committed = r.committed := by
  unfold rollback
  cases r.held k <;> rfl

theorem rollback_held (r : LockedRow ρ) (k : ℕ) : (r.rollback k).held k = none := by
  unfold rollback
  cases h : r.held k with
  | some w => rfl
  | none => exact h

theorem rollback_held_other (r : LockedRow ρ) (j k : ℕ) (hj : j ≠ k) :
    (r.rollback k).held j = r.held j := by
  unfold rollback
  cases h : r.held k with
  | some w => exact (held_unique r j k w h hj).symm
  | none => rfl

end LockedRow

end ParallelForge.Base
