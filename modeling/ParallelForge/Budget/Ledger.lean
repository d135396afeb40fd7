import ParallelForge.Base.Result
import ParallelForge.Base.Total
import ParallelForge.Budget.Amounts
import ParallelForge.Scheduling.Tables
import Mathlib.Data.List.Sort

/-!
# The budget ledger (`persistence/repositories/subscription_budget.py`)

One debit per admitted attempt. The repository writes the three books of a
ledger (reservations, consumption, repair debits) and only reads its controls,
which other services write: runs, task contracts, attempts, pools and the
reservations of the legacy accounting.
-/

namespace ParallelForge.Budget
open Base Scheduling

/-- What accounting reads of a logical task contract. -/
structure TaskContract where
  runId : UUID
  taskId : UUID
  purpose : SpecialistPurpose
  budget : TaskBudget
  deriving DecidableEq

/-- A row of `subscription_tasks`; `contract` is absent when the payload does not decode to one. -/
structure TaskRow where
  runId : UUID
  parentTaskId : Option UUID
  state : LogicalState
  pauseRequested : Bool
  cancelRequested : Bool
  contract : Option TaskContract
  deriving DecidableEq

structure Attempt where
  runId : UUID
  taskRowId : UUID
  attemptNumber : ℕ
  status : LogicalState
  deriving DecidableEq, Repr

inductive LegacyStatus
  | reserved
  | released
  | consumed
  deriving DecidableEq, Repr

structure LegacyReservation where
  runId : UUID
  status : LegacyStatus
  deriving DecidableEq, Repr

/-- The rows this repository reads and others write. Pools are unique for a
run and an optional task; a pool is absent inside when its payload does not decode. -/
structure Controls where
  runs : Table UUID RunRow
  tasks : Table UUID TaskRow
  attempts : Table UUID Attempt
  pools : Table (UUID × Option UUID) (Option TaskBudget)
  legacy : Table UUID LegacyReservation

/-- Reservations bind one attempt and no repair unit. -/
structure Reservation where
  runId : UUID
  taskId : UUID
  idempotencyKey : String
  budget : TaskBudget
  units : oneAttempt budget = true
  deriving DecidableEq

structure Consumption where
  telemetry : Option AttemptTelemetry
  charge : AttemptCharge
  policyViolations : List String
  uncertain : Bool

structure Ledger where
  controls : Controls
  reservations : Table UUID Reservation
  consumptions : Table UUID Consumption
  debits : Table UUID (Option UUID)

/-- Nothing is booked yet. -/
def Ledger.opened (controls : Controls) : Ledger :=
  ⟨controls, Table.empty, Table.empty, Table.empty⟩

/-- `_decode`. -/
def decode {α : Type} (payload : Option α) : Except String α :=
  orRaise payload "stored budget record type conflicts"

/-- The rows of a run, or of one of its tasks. -/
def countedIn (runId : UUID) (scope : Option UUID) (rowRunId rowTaskId : UUID) : Bool :=
  rowRunId == runId && scope.all (· == rowTaskId)

def Controls.attemptIn (c : Controls) (runId : UUID) (scope : Option UUID) (attemptId : UUID) :
    Bool :=
  (c.attempts.get attemptId).any fun a => countedIn runId scope a.runId a.taskRowId

/-- `func.max(attempt_number)` of a task. -/
def Controls.latestNumber (c : Controls) (runId taskId : UUID) : Option ℕ :=
  ((c.attempts.select fun _ a => countedIn runId (some taskId) a.runId a.taskRowId).map
    fun r => r.2.attemptNumber).max?

/-- The decoded root contracts of a run. -/
def Controls.roots (c : Controls) (runId : UUID) : Except String (List TaskContract) :=
  (c.tasks.select fun _ t => t.runId == runId && t.parentTaskId.isNone).mapM
    fun r => decode r.2.contract

/-- `_task_contracts`. -/
def Controls.taskContracts (c : Controls) (runId taskId : UUID) :
    Except String (TaskContract × TaskContract × TaskRow) := do
  let _ ← orRaise (c.runs.get runId) "run does not exist"
  let task ← orRaise (c.tasks.get taskId) "task budget lineage conflicts"
  require (task.runId = runId) "task budget lineage conflicts"
  let contract ← decode task.contract
  let roots ← c.roots runId
  match roots.filter fun value => value.purpose == .primary with
  | [primary] => do
    require (contract.runId = runId ∧ contract.taskId = taskId) "task budget identity conflicts"
    .ok (contract, primary, task)
  | _ => .error "one frozen primary budget is required"

/-- `_contracts`. -/
def Controls.contracts (c : Controls) (runId taskId attemptId : UUID) :
    Except String (TaskContract × TaskContract × TaskRow × Attempt) := do
  let (contract, primary, task) ← c.taskContracts runId taskId
  let attempt ← orRaise (c.attempts.get attemptId) "attempt budget lineage conflicts"
  require (attempt.runId = runId ∧ attempt.taskRowId = taskId) "attempt budget lineage conflicts"
  .ok (contract, primary, task, attempt)

structure BudgetScope where
  taskId : Option UUID
  name : String
  budget : TaskBudget
  deriving DecidableEq

def taskPoolScope (taskId : UUID) (budget : TaskBudget) : BudgetScope :=
  ⟨some taskId, "task_pool", budget⟩

/-- `_budget_scopes`: the task, its pool if there is one, the run. -/
def Controls.budgetScopes (c : Controls) (runId taskId : UUID) (contract primary : TaskContract) :
    Except String (List BudgetScope) := do
  let runBudget ← ((c.pools.get (runId, none)).map decode).getD (.ok primary.budget)
  let taskPool ← ((c.pools.get (runId, some taskId)).map fun pool =>
    (decode pool).map fun budget => [taskPoolScope taskId budget]).getD (.ok [])
  .ok (⟨some taskId, "task", contract.budget⟩ :: taskPool ++ [⟨none, "run", runBudget⟩])

structure SubscriptionUsage where
  consumed : UsageAmounts
  outstanding : UsageAmounts
  uncertainAttempts : ℕ
  policyViolations : List String

def Reservation.countedIn (r : Reservation) (runId : UUID) (scope : Option UUID) : Bool :=
  Budget.countedIn runId scope r.runId r.taskId

/-- The repair debits of a scope. -/
def Ledger.repairRows (L : Ledger) (runId : UUID) (scope : Option UUID) :
    List (UUID × Option UUID) :=
  L.debits.select fun attemptId _ => L.controls.attemptIn runId scope attemptId

/-- `_usage` (`subscription_budget.py:224-262`). -/
def Ledger.usage (L : Ledger) (runId : UUID) (scope : Option UUID) : SubscriptionUsage where
  consumed :=
    (L.reservations.total fun attemptId r =>
      if r.countedIn runId scope then
        (L.consumptions.get attemptId).elim 0 fun c => c.charge.charged
      else 0) +
    Pi.single .repairs ((L.repairRows runId scope).length : WithTop ℕ)
  outstanding :=
    (L.reservations.total fun attemptId r =>
      if r.countedIn runId scope then
        (L.consumptions.get attemptId).elim (budgetCeiling r.budget) fun _ => 0
      else 0) +
    Pi.single .providerAttempts
      (((L.repairRows runId scope).filter fun r => r.2.isNone).length : WithTop ℕ)
  uncertainAttempts :=
    L.reservations.total fun attemptId r =>
      if r.countedIn runId scope then
        (L.consumptions.get attemptId).elim 0 fun c => if c.uncertain then 1 else 0
      else 0
  policyViolations :=
    ((L.reservations.select fun _ r => r.countedIn runId scope).flatMap fun r =>
      (L.consumptions.get r.1).elim [] (·.policyViolations)).dedup.insertionSort (· ≤ ·)

/-- Debits of a task whose next attempt is not admitted yet. -/
def Ledger.pendingRepairs (L : Ledger) (runId taskId : UUID) : List (UUID × Option UUID) :=
  L.debits.select fun attemptId next =>
    L.controls.attemptIn runId (some taskId) attemptId && next.isNone

/-- Unresolved rows of the legacy accounting. -/
def Controls.legacyOpen (c : Controls) (runId : UUID) : Bool :=
  c.legacy.any fun _ r => r.runId == runId && r.status != .released

/-- A scope that violated its telemetry policy, or used up its uncertain attempts, admits nothing. -/
def scopeClosed (usage : SubscriptionUsage) (budget : TaskBudget) : Bool :=
  usage.policyViolations != [] ||
    (usage.uncertainAttempts != 0 &&
      usage.uncertainAttempts ≥ budget.unknownTelemetryPolicy.maxUncertainAttempts)

section reserve
variable (L : Ledger) (runId taskId attemptId : UUID) (reservation : TaskBudget)
  (idempotencyKey : String)

/-- The run, the attempt and the task allow an admission (`subscription_budget.py:325-347`). -/
def Ledger.eligible (task : TaskRow) (attempt : Attempt) : Except String Unit := do
  let run ← orRaise (L.controls.runs.get runId) "run is not eligible for attempt admission"
  require (runAllowsSubscriptionAttempt run.state run.pendingGate = true)
    "run is not eligible for attempt admission"
  require (L.controls.latestNumber runId taskId = some attempt.attemptNumber)
    "attempt was superseded"
  require ((task.pauseRequested || task.cancelRequested) = false ∧
      (task.state = .queued ∨ task.state = .running) ∧
      (attempt.status = .queued ∨ attempt.status = .running))
    "attempt is not eligible for admission"

def Ledger.duplicateKey : Bool :=
  L.reservations.any fun _ r => r.runId == runId && r.idempotencyKey == idempotencyKey

/-- The previously reserved repair slot moves into the actual attempt. -/
def Ledger.transferRepair (attempt : Attempt) : Except String Ledger :=
  match L.pendingRepairs runId taskId with
  | [] => .ok L
  | [(parentId, _)] => do
    let parent ← orRaise (L.controls.attempts.get parentId) "repair attempt lineage conflicts"
    require (parent.attemptNumber + 1 = attempt.attemptNumber) "repair attempt lineage conflicts"
    .ok { L with debits := L.debits.put parentId (some attemptId) }
  | _ => .error "ambiguous pending repair slot"

/-- One scope admits the reservation on top of its usage. -/
def Ledger.admits (scope : BudgetScope) : Bool :=
  let current := L.usage runId scope.taskId
  reservation.billingMode == scope.budget.billingMode && !scopeClosed current scope.budget &&
    fitsWithin (current.consumed + current.outstanding + budgetCeiling reservation) scope.budget

/-- `reserve_attempt` (`subscription_budget.py:294-409`). A replay of the same reservation
changes nothing. -/
def Ledger.reserveAttempt : Except String Ledger :=
  if units : oneAttempt reservation = true then do
    require (idempotencyKey ≠ "" ∧ idempotencyKey.length ≤ 255) "invalid reservation key"
    let (contract, primary, task, attempt) ← L.controls.contracts runId taskId attemptId
    match L.reservations.get attemptId with
    | some existing => do
      require (existing.runId = runId ∧ existing.taskId = taskId ∧
          existing.idempotencyKey = idempotencyKey ∧ existing.budget = reservation)
        "attempt reservation replay conflicts"
      .ok L
    | none => do
      L.eligible runId taskId task attempt
      require ((L.duplicateKey runId idempotencyKey || L.controls.legacyOpen runId) = false)
        "reservation key or unresolved legacy accounting conflicts"
      let L' ← L.transferRepair runId taskId attemptId attempt
      let scopes ← L'.controls.budgetScopes runId taskId contract primary
      require (scopes.all (L'.admits runId reservation) = true)
        "aggregate attempt budget exhausted"
      .ok { L' with reservations :=
        L'.reservations.put attemptId ⟨runId, taskId, idempotencyKey, reservation, units⟩ }
  else .error "reserve one attempt; repairs are debited at scheduling"

end reserve

section settle
variable (L : Ledger) (runId taskId attemptId : UUID) (telemetry : Option AttemptTelemetry)

/-- Unknown quantities leave an attempt uncertain. -/
def uncertainTelemetry (telemetry : Option AttemptTelemetry) : Bool :=
  telemetry.all fun t => !(t.isTokenTelemetryKnown && t.isCostKnown && t.isQuotaKnown)

def telemetryViolations (telemetry : Option AttemptTelemetry) (scopes : List BudgetScope) :
    List String :=
  (scopes.filter fun s => !s.budget.unknownTelemetryPolicy.acceptsTelemetry
    (telemetry.getD {}) s.budget.billingMode).map fun s => s.name ++ ":unknown_telemetry"

/-- `settle_attempt` (`subscription_budget.py:411-454`); the receipt is the booked row. -/
def Ledger.settleAttempt : Except String (Ledger × Consumption) := do
  let (contract, primary, _, _) ← L.controls.contracts runId taskId attemptId
  let reservation ← orRaise (L.reservations.get attemptId) "attempt has no matching reservation"
  require (reservation.runId = runId ∧ reservation.taskId = taskId)
    "attempt has no matching reservation"
  match L.consumptions.get attemptId with
  | some existing => do
    require (existing.telemetry = telemetry) "attempt consumption replay conflicts"
    .ok (L, existing)
  | none => do
    let charge ← projectAttemptCharge reservation.budget telemetry false
    let scopes ← L.controls.budgetScopes runId taskId contract primary
    let row := ⟨telemetry, charge, telemetryViolations telemetry scopes,
      uncertainTelemetry telemetry⟩
    .ok ({ L with consumptions := L.consumptions.put attemptId row }, row)

end settle

section repair
variable (L : Ledger) (runId taskId attemptId : UUID)

/-- One more repair and the provider attempt it takes. -/
def repairUnits : UsageAmounts := Pi.single .repairs 1 + Pi.single .providerAttempts 1

def Ledger.admitsRepair (scope : BudgetScope) : Bool :=
  let current := L.usage runId scope.taskId
  !scopeClosed current scope.budget &&
    fitsWithin (current.consumed + current.outstanding + repairUnits) scope.budget

/-- `can_debit_repair` (`subscription_budget.py:488-518`). -/
def Ledger.canDebitRepair : Except String Bool := do
  let (contract, primary, _, _) ← L.controls.contracts runId taskId attemptId
  if (L.debits.get attemptId).isSome then .ok true
  else do
    require ((L.consumptions.get attemptId).isSome = true) "repair requires settled attempt usage"
    let scopes ← L.controls.budgetScopes runId taskId contract primary
    .ok (scopes.all (L.admitsRepair runId))

/-- `try_debit_repair` (`subscription_budget.py:471-486`), without the feedback it closes. -/
def Ledger.tryDebitRepair : Except String (Ledger × Bool) := do
  let allowed ← L.canDebitRepair runId taskId attemptId
  if !allowed then .ok (L, false)
  else if (L.debits.get attemptId).isSome then .ok (L, true)
  else .ok ({ L with debits := L.debits.put attemptId none }, true)

end repair

end ParallelForge.Budget
