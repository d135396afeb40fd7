import ParallelForge.Budget.Ledger
import Mathlib.Algebra.Group.Pi.Lemmas
import Mathlib.Data.Nat.Cast.Basic
import Mathlib.Tactic.Abel

/-!
# What a scope has used

Consumed and outstanding together are what admission compares with a budget:
the booked amount of every reservation, the repairs debited, and one provider
attempt for each debit whose attempt is still to come.
-/

namespace ParallelForge.Budget
open Base Scheduling

/-- A debit counts one repair, and one provider attempt until its next attempt is admitted. -/
def Controls.debitWeight (c : Controls) (runId : UUID) (scope : Option UUID) (attemptId : UUID)
    (_ : Option UUID) : ℕ :=
  if c.attemptIn runId scope attemptId then 1 else 0

def Controls.pendingWeight (c : Controls) (runId : UUID) (scope : Option UUID) (attemptId : UUID)
    (next : Option UUID) : ℕ :=
  if c.attemptIn runId scope attemptId && next.isNone then 1 else 0

namespace Ledger
variable (L : Ledger) (runId taskId attemptId : UUID) (scope : Option UUID)

def used : UsageAmounts := (L.usage runId scope).consumed + (L.usage runId scope).outstanding

/-- A settled attempt counts as charged, one still running as reserved. -/
def rowAmounts (attemptId : UUID) (r : Reservation) : UsageAmounts :=
  (L.consumptions.get attemptId).elim (budgetCeiling r.budget) fun c => c.charge.charged

def bookedRow (attemptId : UUID) (r : Reservation) : UsageAmounts :=
  if r.countedIn runId scope then L.rowAmounts attemptId r else 0

def booked : UsageAmounts := L.reservations.total (L.bookedRow runId scope)

def debited : ℕ := L.debits.total (L.controls.debitWeight runId scope)

def pendingIn : ℕ := L.debits.total (L.controls.pendingWeight runId scope)

theorem used_eq : L.used runId scope =
    L.booked runId scope + (Pi.single .repairs (L.debited runId scope : WithTop ℕ) +
      Pi.single .providerAttempts (L.pendingIn runId scope : WithTop ℕ)) := by
  have hrepairs : (L.repairRows runId scope).length = L.debited runId scope :=
    Table.length_select _ _
  have hpending : ((L.repairRows runId scope).filter fun r => r.2.isNone).length
      = L.pendingIn runId scope := by
    unfold repairRows Table.select
    rw [List.filter_filter]
    refine Eq.trans ?_ (Table.length_select L.debits
      fun a next => L.controls.attemptIn runId scope a && next.isNone)
    congr 1
    apply List.filter_congr
    intro r _
    exact Bool.and_comm _ _
  have hbooked : L.booked runId scope =
      (L.reservations.total fun a r => if r.countedIn runId scope then
        (L.consumptions.get a).elim 0 fun c => c.charge.charged else 0) +
      L.reservations.total fun a r => if r.countedIn runId scope then
        (L.consumptions.get a).elim (budgetCeiling r.budget) fun _ => 0 else 0 := by
    rw [← Table.total_add]
    apply Table.total_congr
    intro a r _
    unfold bookedRow rowAmounts
    split
    · cases L.consumptions.get a with
      | none => simp
      | some c => simp
    · simp
  rw [used, hbooked]
  simp only [usage, hrepairs, hpending]
  abel

/- A row that counts is one provider attempt, reserved or settled. -/
theorem rowAmounts_providerAttempts (r : Reservation) :
    L.rowAmounts attemptId r .providerAttempts = 1 := by
  unfold rowAmounts
  cases L.consumptions.get attemptId with
  | none =>
    have hunits := ((oneAttempt_iff r.budget).mp r.units).1
    simp [budgetCeiling, hunits]
  | some c => exact c.charge.one_attempt

theorem booked_providerAttempts : ∃ n : ℕ, L.booked runId scope .providerAttempts = n := by
  refine ⟨L.reservations.total fun _ r => if r.countedIn runId scope then 1 else 0, ?_⟩
  have heval := Table.total_hom L.reservations (L.bookedRow runId scope)
    (Pi.evalAddMonoidHom (fun _ : Dimension => WithTop ℕ) .providerAttempts)
  have hcast := Table.total_hom L.reservations
    (fun _ r => if r.countedIn runId scope then 1 else 0) (Nat.castAddMonoidHom (WithTop ℕ))
  simp only [Pi.evalAddMonoidHom_apply] at heval
  simp only [Nat.coe_castAddMonoidHom] at hcast
  rw [booked, heval, hcast]
  apply Table.total_congr
  intro a r _
  unfold bookedRow
  split
  · simp [rowAmounts_providerAttempts]
  · simp

theorem used_providerAttempts :
    ∃ n : ℕ, L.used runId scope .providerAttempts = ((n + L.pendingIn runId scope : ℕ) : WithTop ℕ) := by
  obtain ⟨n, hn⟩ := L.booked_providerAttempts runId scope
  refine ⟨n, ?_⟩
  rw [used_eq]
  simp [hn]

section transfer
variable {L runId taskId attemptId} {L' : Ledger} {attempt : Attempt}

theorem transferRepair_eq_ok :
    L.transferRepair runId taskId attemptId attempt = .ok L' ↔
      (L.pendingRepairs runId taskId = [] ∧ L' = L) ∨
      ∃ parentId next parent, L.pendingRepairs runId taskId = [(parentId, next)] ∧
        L.controls.attempts.get parentId = some parent ∧
        parent.attemptNumber + 1 = attempt.attemptNumber ∧
        L' = { L with debits := L.debits.put parentId (some attemptId) } := by
  unfold transferRepair
  split
  · next h => simp [h, eq_comm]
  · next parentId next h =>
    simp only [bind_eq_ok, orRaise_eq_ok, require_eq_ok, h, Except.ok.injEq]
    constructor
    · intro hx
      obtain ⟨parent, hparent, _, hnumber, he⟩ := hx
      exact Or.inr ⟨parentId, next, parent, rfl, hparent, hnumber, he.symm⟩
    · intro hx
      rcases hx with ⟨hnil, -⟩ | ⟨_, _, parent, heq, hparent, hnumber, he⟩
      · cases hnil
      · cases heq
        exact ⟨parent, hparent, (), hnumber, he.symm⟩
  · next h1 h2 =>
    constructor
    · intro hx
      cases hx
    · intro hx
      rcases hx with ⟨hnil, -⟩ | ⟨parentId, next, _, heq, -⟩
      · exact absurd hnil h1
      · exact absurd heq (h2 parentId next)

theorem mem_pendingRepairs (parentId : UUID) (next : Option UUID) :
    (parentId, next) ∈ L.pendingRepairs runId taskId ↔
      L.debits.get parentId = some next ∧ next = none ∧
        L.controls.attemptIn runId (some taskId) parentId = true := by
  rw [pendingRepairs, Table.mem_select_iff, Bool.and_eq_true, Option.isNone_iff_eq_none]
  tauto

/- Attempts of a task are attempts of its run. -/
theorem attemptIn_run (c : Controls) (h : c.attemptIn runId (some taskId) attemptId = true) :
    c.attemptIn runId none attemptId = true := by
  unfold Controls.attemptIn countedIn at *
  cases ha : c.attempts.get attemptId with
  | none => simp [ha] at h
  | some a =>
    simp only [ha, Option.any_some, Bool.and_eq_true] at h
    simp [h.1]

theorem attemptIn_scope (c : Controls) (hscope : scope = some taskId ∨ scope = none)
    (h : c.attemptIn runId (some taskId) attemptId = true) :
    c.attemptIn runId scope attemptId = true := by
  rcases hscope with rfl | rfl
  · exact h
  · exact attemptIn_run c h

/- Binding a pending debit frees its provider attempt and keeps its repair. -/
theorem used_bind (parentId next : UUID) (hpending : L.debits.get parentId = some none)
    (hin : L.controls.attemptIn runId scope parentId = true) :
    L.used runId scope =
      { L with debits := L.debits.put parentId (some next) }.used runId scope +
        Pi.single .providerAttempts 1 := by
  have hdebited : { L with debits := L.debits.put parentId (some next) }.debited runId scope
      = L.debited runId scope := by
    have hbefore := Table.total_of_some L.debits (L.controls.debitWeight runId scope) parentId
      none hpending
    exact (Table.total_put _ _ _ _).trans hbefore.symm
  have hfree : L.pendingIn runId scope =
      { L with debits := L.debits.put parentId (some next) }.pendingIn runId scope + 1 := by
    have hbefore := Table.total_of_some L.debits (L.controls.pendingWeight runId scope) parentId
      none hpending
    have hafter := Table.total_put L.debits (L.controls.pendingWeight runId scope) parentId
      (some next)
    have hone : L.controls.pendingWeight runId scope parentId none = 1 := by
      simp [Controls.pendingWeight, hin]
    have hzero : L.controls.pendingWeight runId scope parentId (some next) = 0 := by
      simp [Controls.pendingWeight]
    show L.debits.total (L.controls.pendingWeight runId scope)
      = (L.debits.put parentId (some next)).total (L.controls.pendingWeight runId scope) + 1
    omega
  rw [used_eq, used_eq, hdebited, hfree, Nat.cast_add, Nat.cast_one, Pi.single_add]
  simp only [add_assoc]
  rfl

/-- Moving the repair slot into the attempt frees what the slot had reserved, in the scopes of
the task. -/
theorem transferRepair_used (hscope : scope = some taskId ∨ scope = none)
    (h : L.transferRepair runId taskId attemptId attempt = .ok L') :
    L.used runId scope = L'.used runId scope +
      Pi.single .providerAttempts ((L.pendingRepairs runId taskId).length : WithTop ℕ) := by
  rcases transferRepair_eq_ok.mp h with ⟨hnil, rfl⟩ | ⟨parentId, next, parent, hone, -, -, rfl⟩
  · simp [hnil]
  · have hmem : (parentId, next) ∈ L.pendingRepairs runId taskId := by simp [hone]
    obtain ⟨hget, rfl, hin⟩ := (mem_pendingRepairs parentId next).mp hmem
    have hbind := used_bind scope parentId attemptId hget (attemptIn_scope scope _ hscope hin)
    simpa [hone] using hbind

/- The transfer writes nothing that closes a scope. -/
theorem transferRepair_closed (budget : TaskBudget)
    (h : L.transferRepair runId taskId attemptId attempt = .ok L') :
    scopeClosed (L'.usage runId scope) budget = scopeClosed (L.usage runId scope) budget := by
  rcases transferRepair_eq_ok.mp h with ⟨-, rfl⟩ | ⟨parentId, next, parent, -, -, -, rfl⟩
  · rfl
  · rfl

theorem transferRepair_controls (h : L.transferRepair runId taskId attemptId attempt = .ok L') :
    L'.controls = L.controls ∧ L'.reservations = L.reservations ∧
      L'.consumptions = L.consumptions := by
  rcases transferRepair_eq_ok.mp h with ⟨-, rfl⟩ | ⟨parentId, next, parent, -, -, -, rfl⟩
  · exact ⟨rfl, rfl, rfl⟩
  · exact ⟨rfl, rfl, rfl⟩

/- An attempt of a task is in the scopes that count the task. -/
theorem attemptIn_eq (c : Controls) (r : UUID)
    (h : c.attemptIn runId (some taskId) attemptId = true) :
    c.attemptIn r scope attemptId = countedIn r scope runId taskId := by
  unfold Controls.attemptIn at *
  cases ha : c.attempts.get attemptId with
  | none => simp [ha] at h
  | some a =>
    simp only [ha, Option.any_some, countedIn, Bool.and_eq_true, beq_iff_eq, Option.all_some] at h
    simp only [Option.any_some, h.1, h.2]

theorem transferRepair_used_other (r : UUID) (hout : countedIn r scope runId taskId = false)
    (h : L.transferRepair runId taskId attemptId attempt = .ok L') :
    L'.used r scope = L.used r scope := by
  rcases transferRepair_eq_ok.mp h with ⟨-, rfl⟩ | ⟨parentId, next, parent, hone, -, -, rfl⟩
  · rfl
  · have hmem : (parentId, next) ∈ L.pendingRepairs runId taskId := by simp [hone]
    obtain ⟨hget, rfl, hin⟩ := (mem_pendingRepairs parentId next).mp hmem
    have hzero : L.controls.attemptIn r scope parentId = false := by
      rw [attemptIn_eq scope _ r hin]
      exact hout
    have hdebited := Table.total_of_some L.debits (L.controls.debitWeight r scope) parentId none hget
    have hdebited' := Table.total_put L.debits (L.controls.debitWeight r scope) parentId
      (some attemptId)
    have hpending := Table.total_of_some L.debits (L.controls.pendingWeight r scope) parentId none hget
    have hpending' := Table.total_put L.debits (L.controls.pendingWeight r scope) parentId
      (some attemptId)
    rw [used_eq, used_eq]
    simp only [debited, pendingIn, booked]
    rw [hdebited, hdebited', hpending, hpending']
    simp only [Controls.debitWeight, Controls.pendingWeight, hzero]
    rfl

end transfer

section books

theorem used_reserve (r : Reservation) (hnew : L.reservations.get attemptId = none)
    (hopen : L.consumptions.get attemptId = none) :
    { L with reservations := L.reservations.put attemptId r }.used runId scope =
      L.used runId scope + if r.countedIn runId scope then budgetCeiling r.budget else 0 := by
  have hbefore := Table.total_eq_off L.reservations (L.bookedRow runId scope) attemptId
  have hafter := Table.total_put L.reservations (L.bookedRow runId scope) attemptId r
  have hrow : L.bookedRow runId scope attemptId r =
      if r.countedIn runId scope then budgetCeiling r.budget else 0 := by
    simp [bookedRow, rowAmounts, hopen]
  have hbooked : { L with reservations := L.reservations.put attemptId r }.booked runId scope =
      L.booked runId scope + if r.countedIn runId scope then budgetCeiling r.budget else 0 := by
    show (L.reservations.put attemptId r).total (L.bookedRow runId scope) =
      L.reservations.total (L.bookedRow runId scope) + _
    rw [hafter, hbefore, hnew, hrow]
    simp only [Option.elim_none, zero_add]
    exact add_comm _ _
  rw [used_eq, used_eq, hbooked]
  exact add_right_comm _ _ _

/- A settlement moves the usage of a dimension only up by what was exceeded. -/
theorem used_settle (r : Reservation) (row : Consumption) (d : Dimension)
    (hr : L.reservations.get attemptId = some r) (hopen : L.consumptions.get attemptId = none)
    (hle : r.countedIn runId scope = true → row.charge.charged d ≤ budgetCeiling r.budget d) :
    { L with consumptions := L.consumptions.put attemptId row }.used runId scope d ≤
      L.used runId scope d := by
  rw [used_eq, used_eq]
  simp only [Pi.add_apply]
  refine add_le_add ?_ le_rfl
  have hbefore := Table.total_of_some L.reservations (L.bookedRow runId scope) attemptId r hr
  have hafter := Table.total_of_some L.reservations
    ({ L with consumptions := L.consumptions.put attemptId row }.bookedRow runId scope) attemptId r hr
  have hoff : L.reservations.total (Table.off attemptId
        ({ L with consumptions := L.consumptions.put attemptId row }.bookedRow runId scope)) =
      L.reservations.total (Table.off attemptId (L.bookedRow runId scope)) := by
    apply Table.total_off_congr
    intro i q hi _
    simp only [bookedRow, rowAmounts, Table.get_put_ne _ _ hi]
  unfold booked
  rw [hbefore, hafter, hoff]
  simp only [Pi.add_apply]
  refine add_le_add ?_ le_rfl
  unfold bookedRow rowAmounts
  split
  · next hcount => simpa [hopen] using hle hcount
  · exact le_rfl

theorem used_debit (hnew : L.debits.get attemptId = none) :
    { L with debits := L.debits.put attemptId none }.used runId scope =
      L.used runId scope +
        if L.controls.attemptIn runId scope attemptId then repairUnits else 0 := by
  have hdebited := Table.total_eq_off L.debits (L.controls.debitWeight runId scope) attemptId
  have hdebited' := Table.total_put L.debits (L.controls.debitWeight runId scope) attemptId none
  have hpending := Table.total_eq_off L.debits (L.controls.pendingWeight runId scope) attemptId
  have hpending' := Table.total_put L.debits (L.controls.pendingWeight runId scope) attemptId none
  rw [hnew, Option.elim_none, zero_add] at hdebited hpending
  rw [used_eq, used_eq]
  simp only [debited, pendingIn]
  rw [hdebited, hdebited', hpending, hpending']
  simp only [Controls.debitWeight, Controls.pendingWeight, Option.isNone_none, Bool.and_true]
  split
  · simp only [Nat.cast_add, Nat.cast_one, Pi.single_add, repairUnits]
    show L.booked runId scope + _ = L.booked runId scope + _ + _
    abel
  · simp only [Nat.zero_add, add_zero]
    rfl

/- Rows that others write do not count, as long as the debited attempts stay what they were. -/
theorem used_controls (c : Controls)
    (h : ∀ a next, L.debits.get a = some next →
      c.attemptIn runId scope a = L.controls.attemptIn runId scope a) :
    { L with controls := c }.used runId scope = L.used runId scope := by
  have hdebited : { L with controls := c }.debited runId scope = L.debited runId scope := by
    apply Table.total_congr
    intro a next ha
    simp only [Controls.debitWeight, h a next ha]
  have hpending : { L with controls := c }.pendingIn runId scope = L.pendingIn runId scope := by
    apply Table.total_congr
    intro a next ha
    simp only [Controls.pendingWeight, h a next ha]
  rw [used_eq, used_eq, hdebited, hpending]
  rfl

theorem used_unused (hr : ∀ a r, L.reservations.get a = some r → r.countedIn runId scope = false)
    (hd : ∀ a next, L.debits.get a = some next → L.controls.attemptIn runId scope a = false) :
    L.used runId scope = 0 := by
  have hbooked : L.booked runId scope = 0 := by
    apply Table.total_eq_zero
    intro a r ha
    simp [bookedRow, hr a r ha]
  have hdebited : L.debited runId scope = 0 := by
    apply Table.total_eq_zero
    intro a next ha
    simp [Controls.debitWeight, hd a next ha]
  have hpending : L.pendingIn runId scope = 0 := by
    apply Table.total_eq_zero
    intro a next ha
    simp [Controls.pendingWeight, hd a next ha]
  rw [used_eq, hbooked, hdebited, hpending]
  simp

end books

end Ledger

end ParallelForge.Budget
