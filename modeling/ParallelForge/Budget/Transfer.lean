import ParallelForge.Budget.Conservation

/-!
# The repair slot

A debited repair reserves the provider attempt of the attempt to come. While
repairs are debited for the latest attempt of a task only, which every caller of
`try_debit_repair` sees to, the next admission of the task takes that slot
whatever else was admitted in between.
-/

namespace ParallelForge.Budget
open Base Scheduling

section latest
variable {c c' : Controls} {runId taskId : UUID}

theorem latestNumber_eq_some (m : ℕ) :
    c.latestNumber runId taskId = some m ↔
      (∃ a row, c.attempts.get a = some row ∧ row.runId = runId ∧ row.taskRowId = taskId ∧
        row.attemptNumber = m) ∧
      ∀ a row, c.attempts.get a = some row → row.runId = runId → row.taskRowId = taskId →
        row.attemptNumber ≤ m := by
  unfold Controls.latestNumber
  rw [List.max?_eq_some_iff]
  simp only [List.mem_map, Prod.exists, Table.mem_select_iff, countedIn_iff, Option.some.injEq,
    reduceCtorEq, or_false]
  constructor
  · intro h
    obtain ⟨⟨a, row, ⟨ha, hr, ht⟩, hm⟩, hmax⟩ := h
    refine ⟨⟨a, row, ha, hr, ht.symm, hm⟩, ?_⟩
    intro b q hb hr' ht'
    exact hmax q.attemptNumber ⟨b, q, ⟨hb, hr', ht'.symm⟩, rfl⟩
  · intro h
    obtain ⟨⟨a, row, ha, hr, ht, hm⟩, hmax⟩ := h
    refine ⟨⟨a, row, ⟨ha, hr, ht.symm⟩, hm⟩, ?_⟩
    intro k hk
    obtain ⟨b, q, ⟨hb, hr', ht'⟩, rfl⟩ := hk
    exact hmax b q hb hr' ht'.symm

/- Every attempt of a task is at most the latest. -/
theorem le_latestNumber {a : UUID} {row : Attempt} (h : c.attempts.get a = some row) :
    row.attemptNumber ≤ (c.latestNumber row.runId row.taskRowId).getD 0 := by
  cases hm : c.latestNumber row.runId row.taskRowId with
  | none =>
    unfold Controls.latestNumber at hm
    rw [List.max?_eq_none_iff, List.map_eq_nil_iff] at hm
    have hmem : (a, row) ∈ c.attempts.select
        fun _ q => countedIn row.runId (some row.taskRowId) q.runId q.taskRowId := by
      rw [Table.mem_select_iff]
      exact ⟨h, (countedIn_iff _ _ _ _).mpr ⟨rfl, Or.inl rfl⟩⟩
    rw [hm] at hmem
    cases hmem
  | some m => exact ((latestNumber_eq_some m).mp hm).2 a row h rfl rfl

theorem withNext_attempts (L : Ledger) (attemptId a : UUID) :
    (L.withNext runId taskId attemptId).controls.attempts.get a =
      if a = attemptId then some (L.controls.nextAttempt runId taskId)
      else L.controls.attempts.get a := Table.get_put _ _ _ _

/- The admitted attempt is the latest of its task. -/
theorem withNext_latest (L : Ledger) (attemptId : UUID) :
    (L.withNext runId taskId attemptId).controls.latestNumber runId taskId =
      some ((L.controls.latestNumber runId taskId).getD 0 + 1) := by
  rw [latestNumber_eq_some]
  constructor
  · exact ⟨attemptId, _, by rw [withNext_attempts, if_pos rfl], rfl, rfl, rfl⟩
  · intro a row ha hr ht
    rw [withNext_attempts] at ha
    split at ha
    · cases ha
      exact le_rfl
    · have hle := le_latestNumber ha
      rw [hr, ht] at hle
      omega

theorem withNext_latest_other (L : Ledger) (attemptId : UUID) (r t : UUID) (m : ℕ)
    (hnew : L.controls.attempts.get attemptId = none) (hother : ¬ (runId = r ∧ taskId = t))
    (h : L.controls.latestNumber r t = some m) :
    (L.withNext runId taskId attemptId).controls.latestNumber r t = some m := by
  rw [latestNumber_eq_some] at h ⊢
  obtain ⟨⟨a, row, ha, hr, ht, hm⟩, hmax⟩ := h
  constructor
  · refine ⟨a, row, ?_, hr, ht, hm⟩
    rw [withNext_attempts, if_neg (Table.ne_of_get _ hnew ha)]
    exact ha
  · intro b q hb hr' ht'
    rw [withNext_attempts] at hb
    split at hb
    · cases hb
      exact absurd ⟨hr', ht'⟩ hother
    · exact hmax b q hb hr' ht'

end latest

/-- How attempts are numbered and repairs debited: every attempt was reserved when it was created,
no two attempts of a task share a number, and a pending debit is on the latest attempt. -/
structure Ledger.Sequenced (L : Ledger) : Prop where
  reserved : ∀ a row, L.controls.attempts.get a = some row → ∃ r, L.reservations.get a = some r
  distinct : ∀ a b p q, L.controls.attempts.get a = some p → L.controls.attempts.get b = some q →
    p.runId = q.runId → p.taskRowId = q.taskRowId → p.attemptNumber = q.attemptNumber → a = b
  pending_latest : ∀ a row, L.debits.get a = some none → L.controls.attempts.get a = some row →
    L.controls.latestNumber row.runId row.taskRowId = some row.attemptNumber

/-- Debits are on latest attempts, and only admissions create attempts. -/
def LatestDebits (L : Ledger) : Action → Prop
  | .debit _ _ a => ∀ row, L.controls.attempts.get a = some row →
    L.controls.latestNumber row.runId row.taskRowId = some row.attemptNumber
  | .others controls => ∀ a, L.controls.attempts.get a = none → controls.attempts.get a = none
  | _ => True

section sequenced
variable {L L' : Ledger} {runId taskId attemptId : UUID}

theorem attemptIn_iff (c : Controls) (a : UUID) :
    c.attemptIn runId (some taskId) a = true ↔
      ∃ row, c.attempts.get a = some row ∧ row.runId = runId ∧ row.taskRowId = taskId := by
  unfold Controls.attemptIn
  rw [Option.any_eq_true]
  simp only [countedIn_iff, Option.some.injEq, reduceCtorEq, or_false]
  constructor
  · intro h
    obtain ⟨row, hrow, hr, ht⟩ := h
    exact ⟨row, hrow, hr, ht.symm⟩
  · intro h
    obtain ⟨row, hrow, hr, ht⟩ := h
    exact ⟨row, hrow, hr, ht.symm⟩

/- After the transfer the task has no pending debit. -/
theorem transfer_settles {attempt : Attempt} {a : UUID} {row : Attempt}
    (htr : L.transferRepair runId taskId attemptId attempt = .ok L')
    (ha : L'.debits.get a = some none) (hrow : L.controls.attempts.get a = some row) :
    L.debits.get a = some none ∧ ¬ (runId = row.runId ∧ taskId = row.taskRowId) := by
  rcases Ledger.transferRepair_eq_ok.mp htr with ⟨hnil, rfl⟩ | ⟨parentId, next, parent, hone, -, -, rfl⟩
  · refine ⟨ha, ?_⟩
    intro hsame
    have hmem : (a, none) ∈ L'.pendingRepairs runId taskId :=
      (Ledger.mem_pendingRepairs a none).mpr
        ⟨ha, rfl, (attemptIn_iff _ a).mpr ⟨row, hrow, hsame.1.symm, hsame.2.symm⟩⟩
    rw [hnil] at hmem
    cases hmem
  · have hne : a ≠ parentId := by
      intro he
      rw [he, Table.get_put_self] at ha
      cases ha
    rw [Table.get_put_ne _ _ hne] at ha
    refine ⟨ha, ?_⟩
    intro hsame
    have hmem : (a, none) ∈ L.pendingRepairs runId taskId :=
      (Ledger.mem_pendingRepairs a none).mpr
        ⟨ha, rfl, (attemptIn_iff _ a).mpr ⟨row, hrow, hsame.1.symm, hsame.2.symm⟩⟩
    rw [hone, List.mem_singleton] at hmem
    cases hmem
    exact hne rfl

/- Reserving again is a replay, since every attempt was reserved when it was created. -/
theorem Ledger.Sequenced.reserve {reservation : TaskBudget} {key : String} (hseq : L.Sequenced)
    (h : L.reserveAttempt runId taskId attemptId reservation key = .ok L') : L' = L := by
  rcases reserveAttempt_cases h with ⟨he, -⟩ |
    ⟨units, contract, primary, task, attempt, M, scopes, hcon, hnone, -⟩
  · exact he
  · obtain ⟨r, hr⟩ := hseq.reserved attemptId attempt (taskContracts_of_contracts hcon).2.1
    rw [hnone] at hr
    cases hr

/- A new attempt has no reservation. -/
theorem Ledger.Conserved.unreserved (hinv : L.Conserved)
    (hnew : L.controls.attempts.get attemptId = none) : L.reservations.get attemptId = none := by
  cases hr : L.reservations.get attemptId with
  | none => rfl
  | some r =>
    obtain ⟨row, hrow⟩ := hinv.reserved_attempt attemptId r hr
    rw [hnew] at hrow
    cases hrow

theorem Ledger.Sequenced.admitNext {reservation : TaskBudget} {key : String} (hseq : L.Sequenced)
    (hinv : L.Conserved)
    (h : L.admitNext runId taskId attemptId reservation key = .ok L') : L'.Sequenced := by
  obtain ⟨hnew, hres⟩ := admitNext_eq_ok h
  have hunreserved : (L.withNext runId taskId attemptId).reservations.get attemptId = none :=
    hinv.unreserved hnew
  rcases reserveAttempt_cases hres with ⟨-, r, hr⟩ |
    ⟨units, contract, primary, task, attempt, M, scopes, hcon, -, htr, -, -, rfl⟩
  · rw [hunreserved] at hr
    cases hr
  obtain ⟨hcontrols, hreservations, -⟩ := Ledger.transferRepair_controls htr
  constructor
  case reserved =>
    intro a row ha
    show ∃ r, (M.reservations.put attemptId _).get a = some r
    rw [Table.get_put]
    split
    · exact ⟨_, rfl⟩
    · next hne =>
      rw [show M.controls = _ from hcontrols, withNext_attempts, if_neg hne] at ha
      rw [hreservations]
      exact hseq.reserved a row ha
  case distinct =>
    intro a b p q ha hb hr ht hn
    rw [show M.controls = _ from hcontrols, withNext_attempts] at ha hb
    -- the new number is above every other of the task
    split at ha
    · next hea =>
      split at hb
      · next heb => rw [hea, heb]
      · have hle := le_latestNumber hb
        cases ha
        simp only [Controls.nextAttempt] at hr ht hn
        rw [← hr, ← ht] at hle
        omega
    · split at hb
      · have hle := le_latestNumber ha
        cases hb
        simp only [Controls.nextAttempt] at hr ht hn
        rw [hr, ht] at hle
        omega
      · exact hseq.distinct a b p q ha hb hr ht hn
  case pending_latest =>
    intro a row ha hrow
    rw [show M.controls = _ from hcontrols] at hrow ⊢
    obtain ⟨hbefore, hother⟩ := transfer_settles htr ha hrow
    obtain ⟨row', hrow'⟩ := hinv.debit_attempt a none hbefore
    have hsame : row' = row := by
      rw [withNext_attempts, if_neg (Table.ne_of_get _ hnew hrow'), hrow'] at hrow
      exact Option.some.inj hrow
    subst hsame
    exact withNext_latest_other L attemptId _ _ _ hnew hother
      (hseq.pending_latest a row' hbefore hrow')

theorem Ledger.Sequenced.settle {telemetry : Option AttemptTelemetry} {row : Consumption}
    (hseq : L.Sequenced)
    (h : L.settleAttempt runId taskId attemptId telemetry = .ok (L', row)) : L'.Sequenced := by
  rcases settleAttempt_cases h with rfl | ⟨r, -, -, -, rfl⟩
  · exact hseq
  · exact ⟨hseq.reserved, hseq.distinct, hseq.pending_latest⟩

theorem Ledger.Sequenced.debit {debited : Bool} (hseq : L.Sequenced)
    (hlatest : LatestDebits L (.debit runId taskId attemptId))
    (h : L.tryDebitRepair runId taskId attemptId = .ok (L', debited)) : L'.Sequenced := by
  rcases tryDebitRepair_cases h with rfl | ⟨_, _, _, _, _, _, -, -, -, -, -, rfl⟩
  · exact hseq
  · refine ⟨hseq.reserved, hseq.distinct, ?_⟩
    intro a row ha hrow
    by_cases hk : a = attemptId
    · subst hk
      exact hlatest row hrow
    · rw [Table.get_put_ne _ _ hk] at ha
      exact hseq.pending_latest a row ha hrow

/- The attempts others leave in place, seen from either side. -/
theorem Ledger.Frozen.back {c : Controls} (hfrozen : L.Frozen c)
    (hkept : LatestDebits L (.others c)) (a : UUID) (row' : Attempt)
    (h : c.attempts.get a = some row') :
    ∃ row, L.controls.attempts.get a = some row ∧ row'.runId = row.runId ∧
      row'.taskRowId = row.taskRowId ∧ row'.attemptNumber = row.attemptNumber := by
  cases hrow : L.controls.attempts.get a with
  | none =>
    rw [hkept a hrow] at h
    cases h
  | some row =>
    obtain ⟨row'', hrow'', hr, ht, hn⟩ := hfrozen.1 a row hrow
    rw [h] at hrow''
    cases hrow''
    exact ⟨row, rfl, hr, ht, hn⟩

theorem Ledger.Sequenced.controls {c : Controls} (hseq : L.Sequenced) (hfrozen : L.Frozen c)
    (hkept : LatestDebits L (.others c)) : { L with controls := c }.Sequenced := by
  constructor
  case reserved =>
    intro a row' ha
    obtain ⟨row, hrow, -⟩ := hfrozen.back hkept a row' ha
    exact hseq.reserved a row hrow
  case distinct =>
    intro a b p' q' ha hb hr ht hn
    obtain ⟨p, hp, hpr, hpt, hpn⟩ := hfrozen.back hkept a p' ha
    obtain ⟨q, hq, hqr, hqt, hqn⟩ := hfrozen.back hkept b q' hb
    exact hseq.distinct a b p q hp hq (by rw [← hpr, ← hqr, hr]) (by rw [← hpt, ← hqt, ht])
      (by rw [← hpn, ← hqn, hn])
  case pending_latest =>
    intro a row' ha hrow'
    obtain ⟨row, hrow, hr, ht, hn⟩ := hfrozen.back hkept a row' hrow'
    have hlatest := ((latestNumber_eq_some _).mp (hseq.pending_latest a row ha hrow)).2
    rw [latestNumber_eq_some]
    refine ⟨⟨a, row', hrow', rfl, rfl, rfl⟩, ?_⟩
    intro b q' hb hr' ht'
    obtain ⟨q, hq, hqr, hqt, hqn⟩ := hfrozen.back hkept b q' hb
    rw [hqn, hn]
    exact hlatest b q hq (by rw [← hqr, hr', hr]) (by rw [← hqt, ht', ht])

end sequenced

theorem step_sequenced (L : Ledger) (action : Action) (hseq : L.Sequenced) (hinv : L.Conserved)
    (hfrozen : FrozenBudgets L action) (hlatest : LatestDebits L action) :
    (step L action).Sequenced := by
  cases action with
  | admitNext runId taskId attemptId reservation key =>
    exact commit_induct L _ hseq fun L' hL' => hseq.admitNext hinv hL'
  | reserve runId taskId attemptId reservation key =>
    refine commit_induct L _ hseq fun L' hL' => ?_
    rw [hseq.reserve hL']
    exact hseq
  | settle runId taskId attemptId telemetry =>
    refine commit_induct L _ hseq fun L' hL' => ?_
    obtain ⟨⟨L'', row⟩, hsettle, rfl⟩ := (map_eq_ok _ _ _).mp hL'
    exact hseq.settle hsettle
  | debit runId taskId attemptId =>
    refine commit_induct L _ hseq fun L' hL' => ?_
    obtain ⟨⟨L'', debited⟩, hdebit, rfl⟩ := (map_eq_ok _ _ _).mp hL'
    exact hseq.debit hlatest hdebit
  | others controls => exact hseq.controls hfrozen hlatest

/-- Everything an admission asks of the ledger besides a free provider attempt. -/
structure Ledger.Ready (L : Ledger) (runId taskId attemptId : UUID) (reservation : TaskBudget)
    (idempotencyKey : String) : Prop where
  fresh : L.controls.attempts.get attemptId = none
  units : oneAttempt reservation = true
  key : idempotencyKey ≠ "" ∧ idempotencyKey.length ≤ 255
  unique : L.duplicateKey runId idempotencyKey = false
  legacy : L.controls.legacyOpen runId = false
  run : ∃ run, L.controls.runs.get runId = some run ∧
    runAllowsSubscriptionAttempt run.state run.pendingGate = true
  task : ∃ contract primary task scopes,
    L.controls.taskContracts runId taskId = .ok (contract, primary, task) ∧
    L.controls.budgetScopes runId taskId contract primary = .ok scopes ∧
    (task.pauseRequested || task.cancelRequested) = false ∧
    (task.state = .queued ∨ task.state = .running) ∧
    ∀ s ∈ scopes, reservation.billingMode = s.budget.billingMode ∧
      scopeClosed (L.usage runId s.taskId) s.budget = false ∧
      ∀ d, d ≠ .providerAttempts →
        L.used runId s.taskId d + budgetCeiling reservation d ≤ budgetCeiling s.budget d

section transfer
variable {L : Ledger} {a attemptId : UUID} {row : Attempt} {reservation : TaskBudget} {key : String}

/- The pending debit of a task is its only one, also after the next attempt is created. -/
theorem pendingRepairs_withNext (hinv : L.Conserved) (hseq : L.Sequenced)
    (hnew : L.controls.attempts.get attemptId = none) (ha : L.debits.get a = some none)
    (hrow : L.controls.attempts.get a = some row) :
    (L.withNext row.runId row.taskRowId attemptId).pendingRepairs row.runId row.taskRowId
      = [(a, none)] := by
  have hold : ∀ b q, L.controls.attempts.get b = some q →
      (L.withNext row.runId row.taskRowId attemptId).controls.attempts.get b = some q := by
    intro b q hb
    rw [withNext_attempts, if_neg (Table.ne_of_get _ hnew hb)]
    exact hb
  apply Table.select_eq_singleton
  · exact ha
  · rw [Bool.and_eq_true, attemptIn_iff]
    exact ⟨⟨row, hold a row hrow, rfl, rfl⟩, rfl⟩
  · intro b next hb hp
    rw [Bool.and_eq_true, attemptIn_iff, Option.isNone_iff_eq_none] at hp
    obtain ⟨⟨q', hq', hr, ht⟩, rfl⟩ := hp
    obtain ⟨q, hq⟩ := hinv.debit_attempt b none hb
    have hsame : q' = q := Option.some.inj (hq'.symm.trans (hold b q hq))
    subst hsame
    -- both debits are on the latest attempt of the one task
    have hb' := hseq.pending_latest b q' hb hq
    have ha' := hseq.pending_latest a row ha hrow
    rw [hr, ht, ha', Option.some.injEq] at hb'
    exact hseq.distinct b a q' row hq hrow hr ht hb'.symm

/- A scope that covers its usage has a provider attempt for the debit it already counts. -/
theorem slot_fits {s : BudgetScope} {M : Ledger} {runId : UUID} (hinv : L.Conserved)
    (hgoverns : L.controls.Governs runId s) (hunits : oneAttempt reservation = true)
    (hslot : L.used runId s.taskId = M.used runId s.taskId + Pi.single .providerAttempts 1)
    (hrest : ∀ d, d ≠ .providerAttempts →
      L.used runId s.taskId d + budgetCeiling reservation d ≤ budgetCeiling s.budget d) :
    M.used runId s.taskId + budgetCeiling reservation ≤ budgetCeiling s.budget := by
  intro d
  by_cases hd : d = .providerAttempts
  · subst hd
    have hone : budgetCeiling reservation .providerAttempts = 1 := by
      simp [budgetCeiling, ((oneAttempt_iff reservation).mp hunits).1]
    have hused : L.used runId s.taskId .providerAttempts
        = M.used runId s.taskId .providerAttempts + 1 := by
      rw [hslot]
      simp
    rw [Pi.add_apply, hone, ← hused]
    rcases hinv.covered runId s hgoverns .providerAttempts with hle | ⟨b, r, c, -, -, hc, hx⟩
    · exact hle
    · exact absurd hx (hinv.units b c hc).1
  · have hle := hrest d hd
    rw [hslot] at hle
    simpa [Pi.single_eq_of_ne hd] using hle

theorem withNext_used (hinv : L.Conserved) (hnew : L.controls.attempts.get attemptId = none)
    (r t rid : UUID) (scope : Option UUID) :
    (L.withNext r t attemptId).used rid scope = L.used rid scope := by
  apply Ledger.used_controls
  intro b next hb
  obtain ⟨q, hq⟩ := hinv.debit_attempt b next hb
  exact (Ledger.frozen_withNext hnew).attemptIn rid scope b q hq

theorem contracts_withNext {runId taskId : UUID} {contract primary : TaskContract} {task : TaskRow}
    (h : L.controls.taskContracts runId taskId = .ok (contract, primary, task)) :
    (L.withNext runId taskId attemptId).controls.contracts runId taskId attemptId =
      .ok (contract, primary, task, L.controls.nextAttempt runId taskId) := by
  have htask : (L.withNext runId taskId attemptId).controls.taskContracts runId taskId
      = .ok (contract, primary, task) := h
  unfold Controls.contracts
  simp only [bind_eq_ok, orRaise_eq_ok, require_eq_ok, exists_const, withNext_attempts, if_true]
  exact ⟨(contract, primary, task), htask, _, rfl, ⟨rfl, rfl⟩, rfl⟩

/-- The slot of a debited repair goes to the next attempt. -/
theorem slot_transfers (hinv : L.Conserved) (hseq : L.Sequenced) (ha : L.debits.get a = some none)
    (hrow : L.controls.attempts.get a = some row)
    (hready : L.Ready row.runId row.taskRowId attemptId reservation key) :
    ∃ L', L.admitNext row.runId row.taskRowId attemptId reservation key = .ok L' ∧
      L'.debits.get a = some (some attemptId) := by
  obtain ⟨contract, primary, task, scopes, htask, hscopes, hstop, hstate, hall⟩ := hready.task
  obtain ⟨run, hrun, hallows⟩ := hready.run
  have hnew := hready.fresh
  have hlatest := hseq.pending_latest a row ha hrow
  have hcon := @contracts_withNext L attemptId _ _ _ _ _ htask
  have helig : (L.withNext row.runId row.taskRowId attemptId).eligible row.runId row.taskRowId task
      (L.controls.nextAttempt row.runId row.taskRowId) = .ok () := by
    unfold Ledger.eligible
    simp only [bind_eq_ok, orRaise_eq_ok, require_eq_ok, exists_const]
    exact ⟨run, hrun, hallows, withNext_latest L attemptId, hstop, hstate, Or.inr rfl⟩
  have hrowN : (L.withNext row.runId row.taskRowId attemptId).controls.attempts.get a = some row := by
    rw [withNext_attempts, if_neg (Table.ne_of_get _ hnew hrow)]
    exact hrow
  have hnumber : row.attemptNumber + 1
      = (L.controls.nextAttempt row.runId row.taskRowId).attemptNumber := by
    simp [Controls.nextAttempt, hlatest]
  have htr := (@Ledger.transferRepair_eq_ok _ _ _ attemptId _ _).mpr (Or.inr ⟨a, none, row,
    pendingRepairs_withNext hinv hseq hnew ha hrow, hrowN, hnumber, rfl⟩)
  have hreserves := (@reserves_iff (L.withNext row.runId row.taskRowId attemptId) _ _ _ _ _ _ _ _ _ _
    reservation hready.key (hinv.unreserved hnew) hready.unique hcon helig htr hscopes).mpr
    ⟨hready.units, hready.legacy, ?_⟩
  · obtain ⟨L', hL'⟩ := hreserves
    refine ⟨L', ?_, ?_⟩
    · unfold Ledger.admitNext
      simp only [bind_eq_ok, require_eq_ok, exists_const]
      exact ⟨hnew, hL'⟩
    · rcases reserveAttempt_cases hL' with ⟨-, r, hr⟩ |
        ⟨_, _, _, _, attempt, M, _, hcon', -, htr', -, -, rfl⟩
      · have hnone : L.reservations.get attemptId = some r := hr
        rw [hinv.unreserved hnew] at hnone
        cases hnone
      · rw [hcon] at hcon'
        cases hcon'
        rw [htr] at htr'
        cases htr'
        exact Table.get_put_self _ _ _
  · rw [List.all_eq_true]
    intro s hs
    obtain ⟨hmode, hopen, hrest⟩ := hall s hs
    rw [admits_iff]
    refine ⟨hmode, hopen, ?_⟩
    have hin : (L.withNext row.runId row.taskRowId attemptId).controls.attemptIn row.runId
        (some row.taskRowId) a = true := (attemptIn_iff _ a).mpr ⟨row, hrowN, rfl, rfl⟩
    have hscope := Ledger.attemptIn_scope s.taskId _ (mem_budgetScopes hscopes s hs) hin
    have hslot := @Ledger.used_bind (L.withNext row.runId row.taskRowId attemptId) _ s.taskId a
      attemptId ha hscope
    rw [withNext_used hinv hnew] at hslot
    exact slot_fits hinv ⟨_, _, _, _, _, htask, hscopes, hs⟩ hready.units hslot hrest

end transfer

section runs
variable (controls : Controls) (actions : List Action)

theorem run_conserved (h : Along step FrozenBudgets (Ledger.opened controls) actions) :
    (run step (Ledger.opened controls) actions).Conserved :=
  run_invariant_along step FrozenBudgets Ledger.Conserved
    (fun L action hinv hok => step_conserved L action hinv hok) _ actions
    (opened_conserved controls) h

theorem run_sequenced (hfresh : controls.attempts = Table.empty)
    (h : Along step FrozenBudgets (Ledger.opened controls) actions)
    (hlatest : Along step LatestDebits (Ledger.opened controls) actions) :
    (run step (Ledger.opened controls) actions).Sequenced := by
  have hboth := (along_and step FrozenBudgets LatestDebits _ actions).mpr ⟨h, hlatest⟩
  have hstart : (Ledger.opened controls).Sequenced := by
    have hnone : ∀ a, (Ledger.opened controls).controls.attempts.get a = none := by
      intro a
      show controls.attempts.get a = none
      rw [hfresh]
      rfl
    constructor
    case reserved => exact fun a row ha => by rw [hnone] at ha; cases ha
    case distinct => exact fun a b p q ha => by rw [hnone] at ha; cases ha
    case pending_latest => exact fun a row ha => by cases ha
  exact (run_invariant_along step _ (fun L => L.Sequenced ∧ L.Conserved)
    (fun L action hinv hok => ⟨step_sequenced L action hinv.1 hinv.2 hok.1 hok.2,
      step_conserved L action hinv.2 hok.1⟩) _ actions
    ⟨hstart, opened_conserved controls⟩ hboth).1

end runs

/-- Budget conservation. In every run under frozen budgets, in every scope, provider attempts
and repairs stay within their limits, and so does every dimension that no settled attempt of the
scope exceeded. Where repairs are debited for latest attempts, the slot of a pending debit goes to
the next attempt of its task, whatever reservation it brings that fits the other dimensions. -/
theorem budget_conserved (controls : Controls) (actions : List Action)
    (h : Along step FrozenBudgets (Ledger.opened controls) actions) :
    (∀ runId s, (run step (Ledger.opened controls) actions).controls.Governs runId s →
      (run step (Ledger.opened controls) actions).used runId s.taskId .providerAttempts
        ≤ s.budget.maxProviderAttempts ∧
      (run step (Ledger.opened controls) actions).used runId s.taskId .repairs
        ≤ s.budget.maxRepairs ∧
      ∀ d, (run step (Ledger.opened controls) actions).used runId s.taskId d
          ≤ budgetCeiling s.budget d ∨
        (run step (Ledger.opened controls) actions).Exceeded runId s.taskId d) ∧
    (controls.attempts = Table.empty →
      Along step LatestDebits (Ledger.opened controls) actions →
      ∀ a, (run step (Ledger.opened controls) actions).debits.get a = some none →
        ∃ row, (run step (Ledger.opened controls) actions).controls.attempts.get a = some row ∧
          ∀ attemptId reservation key,
            (run step (Ledger.opened controls) actions).Ready row.runId row.taskRowId attemptId
              reservation key →
            ∃ L', (run step (Ledger.opened controls) actions).admitNext row.runId row.taskRowId
                attemptId reservation key = .ok L' ∧
              L'.debits.get a = some (some attemptId)) := by
  have hinv := run_conserved controls actions h
  constructor
  · intro runId s hg
    refine ⟨?_, ?_, hinv.covered runId s hg⟩
    · rcases hinv.covered runId s hg .providerAttempts with hle | ⟨b, r, c, -, -, hc, hx⟩
      · exact hle
      · exact absurd hx (hinv.units b c hc).1
    · rcases hinv.covered runId s hg .repairs with hle | ⟨b, r, c, -, -, hc, hx⟩
      · exact hle
      · exact absurd hx (hinv.units b c hc).2
  · intro hfresh hlatest a ha
    have hseq := run_sequenced controls actions hfresh h hlatest
    obtain ⟨row, hrow⟩ := hinv.debit_attempt a none ha
    exact ⟨row, hrow, fun attemptId reservation key hready =>
      slot_transfers hinv hseq ha hrow hready⟩

/-- A primary is admitted, settled within its reservation and debited for repair. -/
def sampleActions : List Action :=
  [.admitNext 1 10 100 sampleCeiling "attempt:100", .settle 1 10 100 (some sampleTelemetry),
    .debit 1 10 100]

def sampleStart : Controls := { sampleControls with attempts := Table.empty }

theorem budget_conserved_repair :
    (run step (Ledger.opened sampleStart) sampleActions).debits.get 100 = some none ∧
      (run step (Ledger.opened sampleStart) sampleActions).used 1 (some 10) .providerAttempts ≤ 3 ∧
      ∃ L', (run step (Ledger.opened sampleStart) sampleActions).admitNext 1 10 101
          { sampleCeiling with maxDurationSeconds := 1199, maxToolCalls := 60 } "attempt:101" = .ok L' ∧
        L'.debits.get 100 = some (some 101) := by
  have hfrozen : Along step FrozenBudgets (Ledger.opened sampleStart) sampleActions :=
    ⟨trivial, trivial, trivial, trivial⟩
  have hpending : (run step (Ledger.opened sampleStart) sampleActions).debits.get 100 = some none := rfl
  have hlatest : Along step LatestDebits (Ledger.opened sampleStart) sampleActions := by
    refine ⟨trivial, trivial, ?_, trivial⟩
    intro row hrow
    cases hrow
    rfl
  have hclaim := budget_conserved sampleStart sampleActions hfrozen
  refine ⟨hpending, ?_, ?_⟩
  · exact (hclaim.1 1 ⟨some 10, "task", {}⟩
      ⟨10, _, _, _, _, rfl, rfl, List.mem_cons_self ..⟩).1
  · obtain ⟨row, hrow, htransfer⟩ := hclaim.2 rfl hlatest 100 hpending
    cases hrow
    apply htransfer
    refine ⟨rfl, rfl, by decide, rfl, rfl, ⟨_, rfl, rfl⟩, _, _, _, _, rfl, rfl, rfl, Or.inr rfl, ?_⟩
    intro s hs
    simp only [List.cons_append, List.nil_append, List.mem_cons, List.not_mem_nil, or_false] at hs
    rcases hs with rfl | rfl
    · refine ⟨rfl, rfl, ?_⟩
      intro d _
      cases d <;> decide +kernel
    · refine ⟨rfl, rfl, ?_⟩
      intro d _
      cases d <;> decide +kernel

def smallCeiling : TaskBudget := { sampleCeiling with maxDurationSeconds := 300, maxToolCalls := 10 }

def smallTelemetry : AttemptTelemetry := { sampleTelemetry with durationMs := 1000, toolCallCount := 1 }

/-- Two attempts of a task are settled, and the older one is debited for repair. -/
def staleActions : List Action :=
  [.admitNext 1 10 100 smallCeiling "attempt:100", .settle 1 10 100 (some smallTelemetry),
    .admitNext 1 10 101 smallCeiling "attempt:101", .settle 1 10 101 (some smallTelemetry),
    .debit 1 10 100]

/-- The debit of an attempt that is not the latest holds a slot that no admission gets. -/
theorem budget_conserved_stale_debit :
    Along step FrozenBudgets (Ledger.opened sampleStart) staleActions ∧
      (run step (Ledger.opened sampleStart) staleActions).debits.get 100 = some none ∧
      (run step (Ledger.opened sampleStart) staleActions).Ready 1 10 102 smallCeiling "attempt:102" ∧
      (run step (Ledger.opened sampleStart) staleActions).admitNext 1 10 102 smallCeiling "attempt:102" =
        .error "repair attempt lineage conflicts" := by
  refine ⟨⟨trivial, trivial, trivial, trivial, trivial, trivial⟩, rfl, ?_, rfl⟩
  refine ⟨rfl, rfl, by decide, rfl, rfl, ⟨_, rfl, rfl⟩, _, _, _, _, rfl, rfl, rfl, Or.inr rfl, ?_⟩
  intro s hs
  simp only [List.cons_append, List.nil_append, List.mem_cons, List.not_mem_nil, or_false] at hs
  rcases hs with rfl | rfl
  · refine ⟨rfl, rfl, ?_⟩
    intro d hd
    cases d with
    | providerAttempts => exact absurd rfl hd
    | _ => decide +kernel
  · refine ⟨rfl, rfl, ?_⟩
    intro d hd
    cases d with
    | providerAttempts => exact absurd rfl hd
    | _ => decide +kernel

end ParallelForge.Budget
