import ParallelForge.Base.Run
import ParallelForge.Budget.Fit

/-!
# Budget conservation

A ledger under any interleaving of reservations, settlements and repair debits,
while others write the controls but leave the budgets frozen. Every scope keeps
what is consumed and outstanding within its budget, except in a dimension that
a settled attempt reported as exceeded; and a debited repair always finds its
provider attempt when the next attempt of its task is admitted.
-/

namespace ParallelForge.Budget
open Base Scheduling

section governs
variable {c : Controls} {runId taskId : UUID}

/-- The budget limits its scope: some task of the run is checked against it. -/
def Controls.Governs (c : Controls) (runId : UUID) (s : BudgetScope) : Prop :=
  ∃ taskId contract primary task scopes,
    c.taskContracts runId taskId = .ok (contract, primary, task) ∧
    c.budgetScopes runId taskId contract primary = .ok scopes ∧ s ∈ scopes

theorem taskContracts_eq_ok {contract primary : TaskContract} {task : TaskRow} :
    c.taskContracts runId taskId = .ok (contract, primary, task) ↔
      (∃ run, c.runs.get runId = some run) ∧ c.tasks.get taskId = some task ∧
      task.runId = runId ∧ task.contract = some contract ∧
      (∃ roots, c.roots runId = .ok roots ∧
        (roots.filter fun value => value.purpose == .primary) = [primary]) ∧
      contract.runId = runId ∧ contract.taskId = taskId := by
  unfold Controls.taskContracts decode
  simp only [bind_eq_ok, orRaise_eq_ok, require_eq_ok, exists_const]
  constructor
  · intro h
    obtain ⟨run, hrun, task', htask, hlineage, contract', hcontract, roots, hroots, h⟩ := h
    split at h
    · next primary' hfilter =>
      simp only [bind_eq_ok, require_eq_ok, exists_const, Except.ok.injEq, Prod.mk.injEq] at h
      obtain ⟨hid, rfl, rfl, rfl⟩ := h
      exact ⟨⟨run, hrun⟩, htask, hlineage, hcontract, ⟨roots, hroots, hfilter⟩, hid⟩
    · cases h
  · intro h
    obtain ⟨⟨run, hrun⟩, htask, hlineage, hcontract, ⟨roots, hroots, hfilter⟩, hid⟩ := h
    refine ⟨run, hrun, task, htask, hlineage, contract, hcontract, roots, hroots, ?_⟩
    simp only [hfilter, bind_eq_ok, require_eq_ok, exists_const]
    exact ⟨hid, trivial⟩

/-- The budgets that limit a task's own scopes are those its transactions check. -/
theorem governs_checked {contract primary : TaskContract} {task : TaskRow}
    {scopes : List BudgetScope} {s : BudgetScope}
    (htask : c.taskContracts runId taskId = .ok (contract, primary, task))
    (hscopes : c.budgetScopes runId taskId contract primary = .ok scopes)
    (hg : c.Governs runId s) (hs : s.taskId = some taskId ∨ s.taskId = none) : s ∈ scopes := by
  obtain ⟨other, contract', primary', task', scopes', htask', hscopes', hmem⟩ := hg
  obtain ⟨runBudget', pool', hrun', rfl, hpool'⟩ := budgetScopes_eq_ok hscopes'
  rcases hs with hs | hs
  · -- only the task itself is checked against its budget and its pool
    have hother : other = taskId := by
      have hid := mem_budgetScopes hscopes' s hmem
      rw [hs] at hid
      simpa [eq_comm] using hid
    subst hother
    rw [htask] at htask'
    cases htask'
    rw [hscopes] at hscopes'
    cases hscopes'
    exact hmem
  · -- the run has one primary, so its budget does not depend on the task
    obtain ⟨-, -, -, -, ⟨roots, hroots, hfilter⟩, -⟩ := taskContracts_eq_ok.mp htask
    obtain ⟨-, -, -, -, ⟨roots', hroots', hfilter'⟩, -⟩ := taskContracts_eq_ok.mp htask'
    rw [hroots] at hroots'
    cases hroots'
    rw [hfilter] at hfilter'
    cases hfilter'
    obtain ⟨runBudget, pool, hrun, rfl, -⟩ := budgetScopes_eq_ok hscopes
    rw [hrun] at hrun'
    cases hrun'
    simp only [List.cons_append, List.mem_cons, List.mem_append, List.not_mem_nil, or_false] at hmem ⊢
    rcases hmem with rfl | hmem | hmem
    · cases hs
    · rw [hpool' s hmem] at hs
      cases hs
    · exact Or.inr (Or.inr hmem)

end governs

/-- A settled attempt of the scope reported the dimension in `exceeded_fields`. -/
def Ledger.Exceeded (L : Ledger) (runId : UUID) (scope : Option UUID) (d : Dimension) : Prop :=
  ∃ a r c, L.reservations.get a = some r ∧ r.countedIn runId scope = true ∧
    L.consumptions.get a = some c ∧ d ∈ c.charge.exceededFields

/-- The books refer to rows that exist, no attempt exceeds its units, and every budget covers
the usage of its scope where nothing was exceeded. -/
structure Ledger.Conserved (L : Ledger) : Prop where
  reserved_attempt : ∀ a r, L.reservations.get a = some r →
    ∃ row, L.controls.attempts.get a = some row
  debit_attempt : ∀ a next, L.debits.get a = some next → ∃ row, L.controls.attempts.get a = some row
  settled_reserved : ∀ a c, L.consumptions.get a = some c → ∃ r, L.reservations.get a = some r
  units : ∀ a c, L.consumptions.get a = some c →
    .providerAttempts ∉ c.charge.exceededFields ∧ .repairs ∉ c.charge.exceededFields
  covered : ∀ runId s, L.controls.Governs runId s → ∀ d,
    L.used runId s.taskId d ≤ budgetCeiling s.budget d ∨ L.Exceeded runId s.taskId d

theorem countedIn_iff (runId rowRunId rowTaskId : UUID) (scope : Option UUID) :
    countedIn runId scope rowRunId rowTaskId = true ↔
      rowRunId = runId ∧ (scope = some rowTaskId ∨ scope = none) := by
  unfold countedIn
  cases scope with
  | none => simp
  | some t => simp

section steps
variable {L L' : Ledger} {runId taskId attemptId : UUID}

theorem reserveAttempt_cases {reservation : TaskBudget} {key : String}
    (h : L.reserveAttempt runId taskId attemptId reservation key = .ok L') :
    (L' = L ∧ ∃ r, L.reservations.get attemptId = some r) ∨ ∃ (units : oneAttempt reservation = true) (contract primary : TaskContract)
      (task : TaskRow) (attempt : Attempt) (M : Ledger) (scopes : List BudgetScope),
      L.controls.contracts runId taskId attemptId = .ok (contract, primary, task, attempt) ∧
      L.reservations.get attemptId = none ∧
      L.transferRepair runId taskId attemptId attempt = .ok M ∧
      L.controls.budgetScopes runId taskId contract primary = .ok scopes ∧
      (∀ s ∈ scopes, M.admits runId reservation s = true) ∧
      L' = { M with reservations :=
        M.reservations.put attemptId ⟨runId, taskId, key, reservation, units⟩ } := by
  unfold Ledger.reserveAttempt at h
  split at h
  · next units =>
    simp only [bind_eq_ok, require_eq_ok, exists_const, Prod.exists] at h
    obtain ⟨-, contract, primary, task, attempt, hcon, h⟩ := h
    split at h
    · next existing hex =>
      simp only [bind_eq_ok, require_eq_ok, exists_const, Except.ok.injEq] at h
      exact Or.inl ⟨h.2.symm, existing, hex⟩
    · next hnone =>
      simp only [bind_eq_ok, require_eq_ok, exists_const, Except.ok.injEq] at h
      obtain ⟨_, -, -, M, htr, scopes, hsc, hall, he⟩ := h
      rw [(Ledger.transferRepair_controls htr).1] at hsc
      exact Or.inr ⟨units, contract, primary, task, attempt, M, scopes, hcon, hnone, htr, hsc,
        List.all_eq_true.mp hall, he.symm⟩
  · cases h

theorem settleAttempt_cases {telemetry : Option AttemptTelemetry} {row : Consumption}
    (h : L.settleAttempt runId taskId attemptId telemetry = .ok (L', row)) :
    L' = L ∨ ∃ r, L.reservations.get attemptId = some r ∧ L.consumptions.get attemptId = none ∧
      row.charge = chargeOf r.budget telemetry false ∧
      L' = { L with consumptions := L.consumptions.put attemptId row } := by
  unfold Ledger.settleAttempt at h
  simp only [bind_eq_ok, orRaise_eq_ok, require_eq_ok, exists_const, Prod.exists] at h
  obtain ⟨contract, primary, task, attempt, -, r, hr, -, h⟩ := h
  split at h
  · simp only [bind_eq_ok, require_eq_ok, exists_const, Except.ok.injEq, Prod.mk.injEq] at h
    exact Or.inl h.2.1.symm
  · next hnone =>
    unfold projectAttemptCharge at h
    simp only [bind_eq_ok, require_eq_ok, exists_const, Except.ok.injEq, Prod.mk.injEq] at h
    obtain ⟨charge, ⟨-, rfl⟩, scopes, -, rfl, rfl⟩ := h
    exact Or.inr ⟨r, hr, hnone, rfl, rfl⟩

theorem tryDebitRepair_cases {debited : Bool}
    (h : L.tryDebitRepair runId taskId attemptId = .ok (L', debited)) :
    L' = L ∨ ∃ contract primary task attempt scopes c,
      L.controls.contracts runId taskId attemptId = .ok (contract, primary, task, attempt) ∧
      L.debits.get attemptId = none ∧ L.consumptions.get attemptId = some c ∧
      L.controls.budgetScopes runId taskId contract primary = .ok scopes ∧
      (∀ s ∈ scopes, L.admitsRepair runId s = true) ∧
      L' = { L with debits := L.debits.put attemptId none } := by
  unfold Ledger.tryDebitRepair at h
  rw [bind_eq_ok] at h
  obtain ⟨allowed, hcan, h⟩ := h
  split at h
  · cases h
    exact Or.inl rfl
  · next hallowed =>
    split at h
    · cases h
      exact Or.inl rfl
    · next hnew =>
      cases h
      unfold Ledger.canDebitRepair at hcan
      simp only [bind_eq_ok, Prod.exists] at hcan
      obtain ⟨contract, primary, task, attempt, hcon, hcan⟩ := hcan
      rw [if_neg hnew] at hcan
      simp only [bind_eq_ok, require_eq_ok, exists_const, Except.ok.injEq] at hcan
      obtain ⟨hsettled, scopes, hsc, hall⟩ := hcan
      obtain ⟨c, hc⟩ := Option.isSome_iff_exists.mp hsettled
      have htrue : allowed = true := by simpa using hallowed
      have hnone : L.debits.get attemptId = none := by simpa using hnew
      rw [htrue] at hall
      exact Or.inr ⟨contract, primary, task, attempt, scopes, c, hcon, hnone, hc, hsc,
        List.all_eq_true.mp hall, rfl⟩

theorem Ledger.Exceeded.reserve {r : Reservation} {scope : Option UUID} {d : Dimension} {rid : UUID}
    (hnew : L.reservations.get attemptId = none) (h : L.Exceeded rid scope d) :
    { L with reservations := L.reservations.put attemptId r }.Exceeded rid scope d := by
  obtain ⟨a, q, c, hq, hcount, hc, hd⟩ := h
  refine ⟨a, q, c, ?_, hcount, hc, hd⟩
  rw [Table.get_put_ne _ _ (Table.ne_of_get _ hnew hq)]
  exact hq

theorem Ledger.Conserved.reserve {reservation : TaskBudget} {key : String} (hinv : L.Conserved)
    (h : L.reserveAttempt runId taskId attemptId reservation key = .ok L') : L'.Conserved := by
  rcases reserveAttempt_cases h with ⟨rfl, -⟩ |
    ⟨units, contract, primary, task, attempt, M, scopes, hcon, hnew, htr, hsc, hall, rfl⟩
  · exact hinv
  obtain ⟨hcontrols, hres, hcons⟩ := Ledger.transferRepair_controls htr
  have htask := (taskContracts_of_contracts hcon).1
  have hnewM : M.reservations.get attemptId = none := by rw [hres]; exact hnew
  have hopenM : M.consumptions.get attemptId = none := by
    rw [hcons]
    cases hc : L.consumptions.get attemptId with
    | none => rfl
    | some c =>
      obtain ⟨r, hr⟩ := hinv.settled_reserved attemptId c hc
      rw [hnew] at hr
      cases hr
  constructor
  case reserved_attempt =>
    intro a r ha
    show ∃ row, M.controls.attempts.get a = some row
    rw [hcontrols]
    by_cases hk : a = attemptId
    · exact ⟨attempt, hk ▸ (taskContracts_of_contracts hcon).2.1⟩
    · rw [Table.get_put_ne _ _ hk, hres] at ha
      exact hinv.reserved_attempt a r ha
  case debit_attempt =>
    intro a next ha
    show ∃ row, M.controls.attempts.get a = some row
    rw [hcontrols]
    rcases Ledger.transferRepair_eq_ok.mp htr with ⟨-, rfl⟩ | ⟨parentId, _, parent, -, hparent, -, rfl⟩
    · exact hinv.debit_attempt a next ha
    · by_cases hk : a = parentId
      · exact ⟨parent, hk ▸ hparent⟩
      · exact hinv.debit_attempt a next (by rwa [Table.get_put_ne _ _ hk] at ha)
  case settled_reserved =>
    intro a c hc
    have hc' : L.consumptions.get a = some c := by rw [← hcons]; exact hc
    obtain ⟨r, hr⟩ := hinv.settled_reserved a c hc'
    refine ⟨r, ?_⟩
    show (M.reservations.put attemptId _).get a = some r
    rw [Table.get_put_ne _ _ (Table.ne_of_get _ hnew hr), hres]
    exact hr
  case units =>
    intro a c hc
    have hc' : L.consumptions.get a = some c := by rw [← hcons]; exact hc
    exact hinv.units a c hc'
  case covered =>
    intro rid s hg d
    have hg' : L.controls.Governs rid s := by rw [← hcontrols]; exact hg
    rw [Ledger.used_reserve M rid attemptId s.taskId _ hnewM hopenM]
    by_cases hin : countedIn rid s.taskId runId taskId = true
    · -- the scope was checked with this very reservation on top
      obtain ⟨rfl, hs⟩ := (countedIn_iff _ _ _ _).mp hin
      have hmem := governs_checked htask hsc hg' hs
      have hfits := ((admits_iff s).mp (hall s hmem)).2.2
      have hcount : Reservation.countedIn ⟨runId, taskId, key, reservation, units⟩ runId s.taskId
          = true := hin
      rw [if_pos hcount]
      exact Or.inl (hfits d)
    · rw [Bool.not_eq_true] at hin
      have hcount : Reservation.countedIn ⟨runId, taskId, key, reservation, units⟩ rid s.taskId
          = false := hin
      rw [hcount, if_neg Bool.false_ne_true, add_zero,
        Ledger.transferRepair_used_other s.taskId rid hin htr]
      rcases hinv.covered rid s hg' d with hle | hx
      · exact Or.inl hle
      · have hxM : M.Exceeded rid s.taskId d := by
          obtain ⟨a, q, c, hq, hcnt, hc, hd⟩ := hx
          exact ⟨a, q, c, by rw [hres]; exact hq, hcnt, by rw [hcons]; exact hc, hd⟩
        exact Or.inr (hxM.reserve hnewM)

theorem Ledger.Conserved.settle {telemetry : Option AttemptTelemetry} {row : Consumption}
    (hinv : L.Conserved)
    (h : L.settleAttempt runId taskId attemptId telemetry = .ok (L', row)) : L'.Conserved := by
  rcases settleAttempt_cases h with rfl | ⟨r, hr, hopen, hcharge, rfl⟩
  · exact hinv
  have hone := ((oneAttempt_iff r.budget).mp r.units)
  constructor
  case reserved_attempt => exact hinv.reserved_attempt
  case debit_attempt => exact hinv.debit_attempt
  case settled_reserved =>
    intro a c hc
    by_cases ha : a = attemptId
    · exact ⟨r, ha ▸ hr⟩
    · exact hinv.settled_reserved a c (by rwa [Table.get_put_ne _ _ ha] at hc)
  case units =>
    intro a c hc
    by_cases ha : a = attemptId
    · subst ha
      rw [Table.get_put_self, Option.some.injEq] at hc
      rw [← hc, hcharge]
      constructor
      · apply not_exceeded
        simp [observedUsage, budgetCeiling, hone.1]
      · apply not_exceeded
        simp [observedUsage]
    · exact hinv.units a c (by rwa [Table.get_put_ne _ _ ha] at hc)
  case covered =>
    intro rid s hg d
    by_cases hx : { L with consumptions := L.consumptions.put attemptId row }.Exceeded rid s.taskId d
    · exact Or.inr hx
    · left
      have hbefore : L.used rid s.taskId d ≤ budgetCeiling s.budget d := by
        rcases hinv.covered rid s hg d with hle | hy
        · exact hle
        · -- what was exceeded before is exceeded still
          obtain ⟨a, q, c, hq, hcnt, hc, hd⟩ := hy
          refine absurd ⟨a, q, c, hq, hcnt, ?_, hd⟩ hx
          show (L.consumptions.put attemptId row).get a = some c
          rw [Table.get_put_ne _ _ (Table.ne_of_get _ hopen hc)]
          exact hc
      refine le_trans ?_ hbefore
      apply Ledger.used_settle L rid attemptId s.taskId r row d hr hopen
      intro hcnt
      rw [hcharge]
      apply charged_le_ceiling
      intro hd
      rw [← hcharge] at hd
      exact hx ⟨attemptId, r, row, hr, hcnt, Table.get_put_self _ _ _, hd⟩

theorem Ledger.Conserved.debit {debited : Bool} (hinv : L.Conserved)
    (h : L.tryDebitRepair runId taskId attemptId = .ok (L', debited)) : L'.Conserved := by
  rcases tryDebitRepair_cases h with rfl |
    ⟨contract, primary, task, attempt, scopes, c, hcon, hnew, -, hsc, hall, rfl⟩
  · exact hinv
  obtain ⟨htask, hattempt, hrun, htaskId⟩ := taskContracts_of_contracts hcon
  constructor
  case reserved_attempt => exact hinv.reserved_attempt
  case debit_attempt =>
    intro a next ha
    by_cases hk : a = attemptId
    · exact ⟨attempt, hk ▸ hattempt⟩
    · exact hinv.debit_attempt a next (by rwa [Table.get_put_ne _ _ hk] at ha)
  case settled_reserved => exact hinv.settled_reserved
  case units => exact hinv.units
  case covered =>
    intro rid s hg d
    have hg' : L.controls.Governs rid s := hg
    have hcount : L.controls.attemptIn rid s.taskId attemptId = countedIn rid s.taskId runId taskId := by
      simp [Controls.attemptIn, hattempt, hrun, htaskId]
    rw [Ledger.used_debit L rid attemptId s.taskId hnew, hcount]
    by_cases hin : countedIn rid s.taskId runId taskId = true
    · obtain ⟨rfl, hs⟩ := (countedIn_iff _ _ _ _).mp hin
      have hmem := governs_checked htask hsc hg' hs
      have hfits := hall s hmem
      simp only [Ledger.admitsRepair, Bool.and_eq_true, fitsWithin_iff] at hfits
      rw [if_pos hin]
      exact Or.inl (hfits.2 d)
    · rw [if_neg hin, add_zero]
      exact hinv.covered rid s hg' d

/-- Nothing is booked in the scope. -/
def Ledger.Unused (L : Ledger) (runId : UUID) (scope : Option UUID) : Prop :=
  (∀ a r, L.reservations.get a = some r → r.countedIn runId scope = false) ∧
    ∀ a next, L.debits.get a = some next → L.controls.attemptIn runId scope a = false

/-- Others may write any control row, but attempts keep their identity and the budgets stay
frozen: one that limits a scope afterwards did so before, or nothing is booked in the scope. -/
def Ledger.Frozen (L : Ledger) (c : Controls) : Prop :=
  (∀ a row, L.controls.attempts.get a = some row → ∃ row', c.attempts.get a = some row' ∧
    row'.runId = row.runId ∧ row'.taskRowId = row.taskRowId ∧
    row'.attemptNumber = row.attemptNumber) ∧
  ∀ runId s, c.Governs runId s → L.controls.Governs runId s ∨ L.Unused runId s.taskId

theorem Ledger.Frozen.attemptIn {c : Controls} (h : L.Frozen c) (rid : UUID) (scope : Option UUID)
    (a : UUID) (row : Attempt) (ha : L.controls.attempts.get a = some row) :
    c.attemptIn rid scope a = L.controls.attemptIn rid scope a := by
  obtain ⟨row', hrow', hrun, htask, -⟩ := h.1 a row ha
  simp [Controls.attemptIn, ha, hrow', hrun, htask]

theorem Ledger.Conserved.controls {c : Controls} (hinv : L.Conserved) (h : L.Frozen c) :
    { L with controls := c }.Conserved := by
  have hsame : ∀ rid scope a next, L.debits.get a = some next →
      c.attemptIn rid scope a = L.controls.attemptIn rid scope a := by
    intro rid scope a next ha
    obtain ⟨row, hrow⟩ := hinv.debit_attempt a next ha
    exact h.attemptIn rid scope a row hrow
  constructor
  case reserved_attempt =>
    intro a r ha
    obtain ⟨row, hrow⟩ := hinv.reserved_attempt a r ha
    obtain ⟨row', hrow', -⟩ := h.1 a row hrow
    exact ⟨row', hrow'⟩
  case debit_attempt =>
    intro a next ha
    obtain ⟨row, hrow⟩ := hinv.debit_attempt a next ha
    obtain ⟨row', hrow', -⟩ := h.1 a row hrow
    exact ⟨row', hrow'⟩
  case settled_reserved => exact hinv.settled_reserved
  case units => exact hinv.units
  case covered =>
    intro rid s hg d
    rw [Ledger.used_controls L rid s.taskId c (hsame rid s.taskId)]
    rcases h.2 rid s hg with hbefore | hunused
    · exact hinv.covered rid s hbefore d
    · rw [Ledger.used_unused L rid s.taskId hunused.1 hunused.2]
      exact Or.inl zero_le

/-- The attempt row of an admission, numbered after the latest of its task. -/
def Controls.nextAttempt (c : Controls) (runId taskId : UUID) : Attempt :=
  ⟨runId, taskId, (c.latestNumber runId taskId).getD 0 + 1, .running⟩

def Ledger.withNext (L : Ledger) (runId taskId attemptId : UUID) : Ledger :=
  let attempts := L.controls.attempts.put attemptId (L.controls.nextAttempt runId taskId)
  { L with controls := { L.controls with attempts := attempts } }

/-- `admit_next` (`application/services/subscription_execution.py:45-58`), as far as the ledger:
the attempt is created and reserved in one transaction. -/
def Ledger.admitNext (L : Ledger) (runId taskId attemptId : UUID) (reservation : TaskBudget)
    (idempotencyKey : String) : Except String Ledger := do
  require (L.controls.attempts.get attemptId = none) "attempt identity is taken"
  (L.withNext runId taskId attemptId).reserveAttempt runId taskId attemptId reservation
    idempotencyKey

theorem Ledger.frozen_withNext (hnew : L.controls.attempts.get attemptId = none) :
    L.Frozen (L.withNext runId taskId attemptId).controls := by
  constructor
  · intro a row ha
    refine ⟨row, ?_, rfl, rfl, rfl⟩
    show (L.controls.attempts.put attemptId _).get a = some row
    rw [Table.get_put_ne _ _ (Table.ne_of_get _ hnew ha)]
    exact ha
  · intro rid s hg
    exact Or.inl hg

theorem admitNext_eq_ok {reservation : TaskBudget} {key : String}
    (h : L.admitNext runId taskId attemptId reservation key = .ok L') :
    L.controls.attempts.get attemptId = none ∧
      (L.withNext runId taskId attemptId).reserveAttempt runId taskId attemptId reservation key
        = .ok L' := by
  unfold Ledger.admitNext at h
  simpa only [bind_eq_ok, require_eq_ok, exists_const] using h

theorem Ledger.Conserved.admitNext {reservation : TaskBudget} {key : String} (hinv : L.Conserved)
    (h : L.admitNext runId taskId attemptId reservation key = .ok L') : L'.Conserved := by
  obtain ⟨hnew, hres⟩ := admitNext_eq_ok h
  exact (hinv.controls (Ledger.frozen_withNext hnew)).reserve hres

end steps

inductive Action
  | admitNext (runId taskId attemptId : UUID) (reservation : TaskBudget) (idempotencyKey : String)
  | reserve (runId taskId attemptId : UUID) (reservation : TaskBudget) (idempotencyKey : String)
  | settle (runId taskId attemptId : UUID) (telemetry : Option AttemptTelemetry)
  | debit (runId taskId attemptId : UUID)
  | others (controls : Controls)

/-- A transaction that raises is rolled back. -/
def Ledger.commit (L : Ledger) (outcome : Except String Ledger) : Ledger :=
  match outcome with
  | .ok L' => L'
  | .error _ => L

def step (L : Ledger) : Action → Ledger
  | .admitNext runId taskId attemptId reservation key =>
    L.commit (L.admitNext runId taskId attemptId reservation key)
  | .reserve runId taskId attemptId reservation key =>
    L.commit (L.reserveAttempt runId taskId attemptId reservation key)
  | .settle runId taskId attemptId telemetry =>
    L.commit ((L.settleAttempt runId taskId attemptId telemetry).map Prod.fst)
  | .debit runId taskId attemptId =>
    L.commit ((L.tryDebitRepair runId taskId attemptId).map Prod.fst)
  | .others controls => { L with controls := controls }

/-- Budgets stay frozen through the writes of others. -/
def FrozenBudgets (L : Ledger) : Action → Prop
  | .others controls => L.Frozen controls
  | _ => True

theorem commit_induct {P : Ledger → Prop} (L : Ledger) (outcome : Except String Ledger) (hL : P L)
    (h : ∀ L', outcome = .ok L' → P L') : P (L.commit outcome) := by
  unfold Ledger.commit
  split
  · next L' => exact h L' rfl
  · exact hL

theorem step_conserved (L : Ledger) (action : Action) (hinv : L.Conserved)
    (h : FrozenBudgets L action) : (step L action).Conserved := by
  cases action with
  | admitNext runId taskId attemptId reservation key =>
    exact commit_induct L _ hinv fun L' hL' => hinv.admitNext hL'
  | reserve runId taskId attemptId reservation key =>
    exact commit_induct L _ hinv fun L' hL' => hinv.reserve hL'
  | settle runId taskId attemptId telemetry =>
    refine commit_induct L _ hinv fun L' hL' => ?_
    obtain ⟨⟨L'', row⟩, hsettle, rfl⟩ := (map_eq_ok _ _ _).mp hL'
    exact hinv.settle hsettle
  | debit runId taskId attemptId =>
    refine commit_induct L _ hinv fun L' hL' => ?_
    obtain ⟨⟨L'', debited⟩, hdebit, rfl⟩ := (map_eq_ok _ _ _).mp hL'
    exact hinv.debit hdebit
  | others controls => exact hinv.controls h

theorem opened_conserved (controls : Controls) : (Ledger.opened controls).Conserved := by
  constructor
  case reserved_attempt => exact fun a r h => by cases h
  case debit_attempt => exact fun a next h => by cases h
  case settled_reserved => exact fun a c h => by cases h
  case units => exact fun a c h => by cases h
  case covered =>
    intro runId s _ d
    have hzero := Ledger.used_unused (Ledger.opened controls) runId s.taskId
      (fun a r h => by cases h) fun a next h => by cases h
    rw [hzero]
    exact Or.inl zero_le

end ParallelForge.Budget
