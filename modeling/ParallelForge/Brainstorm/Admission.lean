import ParallelForge.Brainstorm.Totals
import ParallelForge.Base.Result
import ParallelForge.Base.Table

/-!
# Admission of authoring attempts (`persistence/repositories/epic_brainstorm.py:463-591, 1008-1159`)

`claim` looks at up to fifty waiting jobs, in the order they were created, and
admits the first one whose epic has room for another attempt. What an attempt
may use is reserved on its row.
-/

namespace ParallelForge.Brainstorm
open Base Quota Scheduling Budget

inductive JobState
  | queued
  | quotaWait
  | capacityWait
  | running
  | reconciling
  | proposed
  | paused
  | cancelled
  | failed
  | cancelRequested
  deriving DecidableEq, Repr

structure Snapshot where
  kind : String
  route : RouteSpec
  budget : TaskBudget

/-- A row of `epic_brainstorm_jobs`; a snapshot that does not decode is absent. -/
structure Job where
  epicId : UUID
  projectId : UUID
  kind : String
  snapshot : Option Snapshot
  state : JobState
  failure : Option String
  version : ℕ
  createdAt : ℤ
  nextEligibleAt : Option ℤ
  currentAttemptId : Option UUID
  retryAuthorizedUntil : Option ℕ
  overrideUnknownUsage : Bool
  waitPoolRevision : Option ℕ

/-- A row of `epic_brainstorm_budget_ledgers`; a ceiling that does not decode is absent. -/
structure EpicLedger where
  projectId : UUID
  ceiling : Option TaskBudget
  disabledDimensions : List String

structure World where
  jobs : Table UUID Job
  attempts : Table UUID Attempt
  quota : Quota.Store
  ledgers : Table UUID EpicLedger
  children : UUID → List Child

/-- `_epic_attempts` with `_attempt_scopes`. -/
def World.scopeOf (w : World) (attemptId : UUID) (a : Attempt) : Option MoneyScope :=
  attemptScope (((w.jobs.get a.jobId).bind (·.snapshot)).map (·.route))
    ((w.quota.authoring.get attemptId).map (·.key))

def World.epicAttempts (w : World) (epicId : UUID) : List (Attempt × Option MoneyScope) :=
  (w.attempts.select fun _ a => (w.jobs.get a.jobId).any fun job => job.epicId == epicId).map
    fun row => (row.2, w.scopeOf row.1 row.2)

def World.totals (w : World) (legacyHold : TaskBudget) (epicId : UUID) : EpicTotals :=
  epicTotals legacyHold none (w.epicAttempts epicId) (w.children epicId)

/-- `validate_brainstorm_budget`. -/
def validBudget (budget : TaskBudget) : Bool :=
  [EpicDimension.durationMs, .toolCallCount, .inputTokens, .outputTokens,
    .estimatedApiCostMinor].all fun key => (budgetAmounts budget key).all fun value => value ≤ maxUsage

/-- The dimensions a reservation has. -/
def reservedDimensions : List EpicDimension :=
  [.durationMs, .toolCallCount, .inputTokens, .outputTokens, .estimatedApiCostMinor]

/-- The least that is worth an attempt. -/
def leastUseful (key : EpicDimension) : ℤ := if key = .durationMs then 1000 else 1

def narrower (value loc : Option ℤ) : Option ℤ :=
  match value, loc with
  | none, loc => loc
  | value, none => value
  | some value, some loc => some (min value loc)

section reservation
variable (job : Job) (snapshot : Snapshot) (key : QuotaPoolKey) (ledger : EpicLedger)
  (prior : List (Attempt × Option MoneyScope)) (aggregate : EpicTotals) (budget : TaskBudget)

def enabled (dimension : EpicDimension) : Bool := !ledger.disabledDimensions.contains dimension.name

/-- The scope of the next attempt does not agree with the money of the earlier ones. -/
def moneyConflict : Bool :=
  let evidence := moneyEvidence prior
  let candidate : MoneyScope := (snapshot.route, key)
  let costEnabled := enabled ledger .estimatedApiCostMinor
  evidence.isUnsafe ||
    (evidence.unit.isSome && aggregate.currency.isSome && evidence.unit != aggregate.currency) ||
    (evidence.unknownHold && budget.maxCostMinor ≠ ⊤ && costEnabled) ||
    (evidence.hasMoney && budget.maxCostMinor ≠ 0 && costEnabled &&
      if evidence.unit.isSome then !evidence.compatible.contains candidate
      else evidence.heldRoutes.isEmpty || evidence.heldRoutes.any fun scope => scope != candidate)

def ownerRetry (nextNumber : ℕ) : Bool := job.retryAuthorizedUntil.any fun until_ => nextNumber ≤ until_

/-- The limit of a dimension that is enabled. -/
def enabledLimit (dimension : EpicDimension) : Option ℤ :=
  if enabled ledger dimension then budgetAmounts budget dimension else none

def remaining (dimension : EpicDimension) : Option ℤ :=
  (enabledLimit ledger budget dimension).map fun limit =>
    limit - aggregate.known dimension - aggregate.held dimension

def blockedDimension (dimension : EpicDimension) : Bool :=
  (remaining ledger aggregate budget dimension).any fun value => value < leastUseful dimension

/-- What attempts that have not settled may give back. -/
def activeHeld (dimension : EpicDimension) : ℤ :=
  ((prior.filter fun p => !p.1.processSettled).map fun p =>
    match p.1.reserve dimension with
    | some reserved =>
      max (reserved - if dimension = .toolCallCount then p.1.toolCallsUsed else 0) 0
    | none => 0).sum

/-- Waiting for active attempts would unblock every blocked dimension. -/
def waitable : Bool :=
  (reservedDimensions.filter (blockedDimension ledger aggregate budget)).all fun dimension =>
    0 < activeHeld prior dimension &&
      (enabledLimit ledger budget dimension).any fun limit =>
        leastUseful dimension ≤ limit - aggregate.known dimension -
          (aggregate.held dimension - activeHeld prior dimension)

/-- No attempt is left, or too many are uncertain. -/
def countsExhausted (nextNumber : ℕ) : Bool :=
  ((budget.maxProviderAttempts : ℤ) ≤
      aggregate.known .providerAttempts + aggregate.held .providerAttempts &&
    enabled ledger .providerAttempts && !ownerRetry job nextNumber) ||
  (0 < unknownAttempts (prior.map Prod.fst) &&
    budget.unknownTelemetryPolicy.maxUncertainAttempts ≤ unknownAttempts (prior.map Prod.fst) &&
    !job.overrideUnknownUsage)

/-- The route and the pool of the next attempt go with the earlier attempts. -/
def checkScope : Except String Unit :=
  if prior.isEmpty then .ok () else do
    require (validKey key && key.provider == snapshot.route.provider)
      "epic discovery quota scope is invalid"
    require ((!job.overrideUnknownUsage &&
        moneyConflict snapshot key ledger prior aggregate budget) = false)
      "epic monetary proof conflicts with admission scope"

/-- What one attempt gets of a dimension. An owner retry passes over what is used up. -/
def granted (nextNumber : ℕ) (dimension : EpicDimension) : Option ℤ :=
  if dimension = .providerAttempts then none
  else if ownerRetry job nextNumber && blockedDimension ledger aggregate budget dimension then
    budgetAmounts snapshot.budget dimension
  else narrower (remaining ledger aggregate budget dimension)
    (budgetAmounts snapshot.budget dimension)

/-- The reservation if there is room, and else whether to wait for it. -/
def reserve (nextNumber : ℕ) : Option (EpicDimension → Option ℤ) × Bool :=
  if countsExhausted job ledger prior aggregate budget nextNumber then (none, false)
  else if reservedDimensions.any (blockedDimension ledger aggregate budget) &&
      !ownerRetry job nextNumber then
    (none, waitable ledger prior aggregate budget)
  else if aggregate.sharedUnknown && !job.overrideUnknownUsage then
    (none, prior.any fun p => !p.1.processSettled)
  else (some (granted job snapshot ledger aggregate budget nextNumber), false)

/-- `_reservation`. -/
def reservation (nextNumber : ℕ) :
    Except String (Option (EpicDimension → Option ℤ) × Bool) := do
  require (validBudget snapshot.budget = true) "brainstorm budget exceeds supported usage range"
  checkScope job snapshot key ledger prior aggregate budget
  .ok (reserve job snapshot ledger prior aggregate budget nextNumber)

end reservation

/-! ### What a reservation guarantees -/

section granted
variable {job : Job} {snapshot : Snapshot} {key : QuotaPoolKey} {ledger : EpicLedger}
  {prior : List (Attempt × Option MoneyScope)} {aggregate : EpicTotals} {budget : TaskBudget}
  {number : ℕ} {r : EpicDimension → Option ℤ} {waits : Bool}

theorem narrower_le (value loc : Option ℤ) (z : ℤ) (hz : value = some z) :
    ∃ r, narrower value loc = some r ∧ r ≤ z := by
  subst hz
  cases loc with
  | none => exact ⟨z, rfl, le_rfl⟩
  | some l => exact ⟨min z l, rfl, min_le_left z l⟩

theorem narrower_nonneg (value loc : Option ℤ) (hvalue : ∀ z, value = some z → 0 ≤ z)
    (hloc : ∀ z, loc = some z → 0 ≤ z) (r : ℤ) (h : narrower value loc = some r) : 0 ≤ r := by
  cases value with
  | none => exact hloc r (by cases loc <;> exact h)
  | some z =>
    cases loc with
    | none =>
      cases h
      exact hvalue _ rfl
    | some l =>
      cases h
      exact le_min (hvalue z rfl) (hloc l rfl)

theorem remaining_useful (d : EpicDimension) (hd : blockedDimension ledger aggregate budget d = false)
    (z : ℤ) (hz : remaining ledger aggregate budget d = some z) : 0 ≤ z := by
  have hleast : 0 ≤ leastUseful d := by
    unfold leastUseful
    split <;> decide
  have huseful : leastUseful d ≤ z := by
    simpa [blockedDimension, hz] using hd
  exact hleast.trans huseful

/- Without a retry, nothing that is used up is passed over. -/
theorem reserve_eq_some (hretry : job.retryAuthorizedUntil = none)
    (h : reserve job snapshot ledger prior aggregate budget number = (some r, waits)) :
    countsExhausted job ledger prior aggregate budget number = false ∧
      (∀ d, d ≠ .providerAttempts → blockedDimension ledger aggregate budget d = false) ∧
      r = fun d => if d = .providerAttempts then none
        else narrower (remaining ledger aggregate budget d) (budgetAmounts snapshot.budget d) := by
  have hno : ownerRetry job number = false := by simp [ownerRetry, hretry]
  unfold reserve at h
  split at h
  · cases h
  · rename_i hcounts
    split at h
    · cases h
    · rename_i hblocked
      split at h
      · cases h
      · cases h
        rw [hno, Bool.not_false, Bool.and_true, List.any_eq_true] at hblocked
        refine ⟨Bool.eq_false_iff.mpr hcounts, fun d hd => ?_, ?_⟩
        · have hmem : d ∈ reservedDimensions := by
            cases d with
            | providerAttempts => exact absurd rfl hd
            | durationMs => decide
            | toolCallCount => decide
            | inputTokens => decide
            | outputTokens => decide
            | estimatedApiCostMinor => decide
          exact Bool.eq_false_iff.mpr fun hb => hblocked ⟨d, hmem, hb⟩
        · funext d
          simp [granted, hno]

theorem reservation_eq_some (hretry : job.retryAuthorizedUntil = none)
    (h : reservation job snapshot key ledger prior aggregate budget number = .ok (some r, waits)) :
    countsExhausted job ledger prior aggregate budget number = false ∧
      (∀ d, d ≠ .providerAttempts → blockedDimension ledger aggregate budget d = false) ∧
      r = fun d => if d = .providerAttempts then none
        else narrower (remaining ledger aggregate budget d) (budgetAmounts snapshot.budget d) := by
  unfold reservation at h
  rw [require_bind_eq_ok, bind_unit_eq_ok] at h
  obtain ⟨_, _, h⟩ := h
  exact reserve_eq_some hretry (Except.ok.inj h)

theorem reservation_nonneg (hretry : job.retryAuthorizedUntil = none)
    (h : reservation job snapshot key ledger prior aggregate budget number = .ok (some r, waits))
    (d : EpicDimension) (z : ℤ) (hz : r d = some z) : 0 ≤ z := by
  obtain ⟨_, hblocked, rfl⟩ := reservation_eq_some hretry h
  simp only at hz
  split at hz
  · cases hz
  · rename_i hd
    have hremaining := remaining_useful d (hblocked d hd)
    exact narrower_nonneg _ _ hremaining (budgetAmounts_nonneg snapshot.budget d) z hz

/-- What is used, what is held and the reservation fit the limit. -/
theorem reservation_fits (hretry : job.retryAuthorizedUntil = none)
    (h : reservation job snapshot key ledger prior aggregate budget number = .ok (some r, waits))
    (d : EpicDimension) (limit : ℤ) (hlimit : enabledLimit ledger budget d = some limit) :
    aggregate.known d + aggregate.held d + freshHold r d ≤ limit := by
  obtain ⟨hcounts, _, rfl⟩ := reservation_eq_some hretry h
  by_cases hd : d = .providerAttempts
  · subst hd
    have henabled : enabled ledger .providerAttempts = true := by
      by_contra hoff
      simp [enabledLimit, hoff] at hlimit
    have hmax : (budget.maxProviderAttempts : ℤ) = limit := by
      simpa [enabledLimit, henabled, budgetAmounts] using hlimit
    have hno : ownerRetry job number = false := by simp [ownerRetry, hretry]
    have hroom : aggregate.known .providerAttempts + aggregate.held .providerAttempts <
        budget.maxProviderAttempts := by
      have hcounts := (Bool.or_eq_false_iff.mp hcounts).1
      simpa [henabled, hno] using hcounts
    simp only [freshHold, if_true]
    omega
  · have hremaining : remaining ledger aggregate budget d =
        some (limit - aggregate.known d - aggregate.held d) := by
      simp [remaining, hlimit]
    obtain ⟨z, hz, hle⟩ := narrower_le _ (budgetAmounts snapshot.budget d) _ hremaining
    have hhold : freshHold (fun d => if d = .providerAttempts then none
        else narrower (remaining ledger aggregate budget d)
          (budgetAmounts snapshot.budget d)) d = z := by
      simp [freshHold, hd, hz]
    rw [hhold]
    omega

end granted

end ParallelForge.Brainstorm
