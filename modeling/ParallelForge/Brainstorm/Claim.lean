import ParallelForge.Brainstorm.Admission
import Mathlib.Data.List.Sort

/-!
# Claims (`persistence/repositories/epic_brainstorm.py:85-244, 593-604, 1008-1159`)

`claim` takes the waiting jobs in the order they were created, at most fifty of
them, until one is admitted. What it reads of other tables is part of the call.
-/

namespace ParallelForge.Brainstorm
open Base Quota Scheduling Budget

structure QuotaRoutePool where
  provider : String
  client : String
  account : String
  pool : String
  authMode : AuthMode
  billingMode : BillingMode
  model : Option String
  deriving DecidableEq, Repr

def authModeValue : AuthMode → String
  | .subscription => "subscription"
  | .apiKey => "api_key"

def billingModeValue : BillingMode → String
  | .allowanceOnly => "allowance_only"
  | .paidOptIn => "paid_opt_in"

/-- `matches`. -/
def QuotaRoutePool.covers (item : QuotaRoutePool) (route : RouteSpec) : Bool :=
  item.provider == route.provider && item.client == route.client &&
    item.authMode == route.authMode && item.billingMode == route.billingMode &&
    item.model.all (· == route.model)

/-- `key_for`; a key that is not made of labels raises. -/
def keyFor (routePools : List QuotaRoutePool) (route : RouteSpec) : Option QuotaPoolKey :=
  let matching := routePools.filter (·.covers route)
  let key : QuotaPoolKey := match matching.find? (·.model.isSome) <|> matching.head? with
    | some selected => ⟨selected.provider, selected.account, selected.pool⟩
    | none => ⟨route.provider, "local",
        authModeValue route.authMode ++ "-" ++ billingModeValue route.billingMode⟩
  if validKey key then some key else none

/-- A call of `claim`: the id drawn for the attempt, the rows that other transactions have
locked, `active_for_subject`, and whether `frozen_history` agrees. -/
structure ClaimCall where
  now : ℤ
  kinds : List String
  attemptId : UUID
  epicCeiling : Option TaskBudget
  routePools : List QuotaRoutePool
  locked : UUID → Bool
  checkpointed : UUID → Bool
  historyFrozen : UUID → Bool

def JobState.waiting : JobState → Bool
  | .queued | .quotaWait | .capacityWait => true
  | _ => false

def second : ℤ := 1000000

def Job.failed (job : Job) (failure : String) : Job :=
  { job with state := .failed, failure := some failure, version := job.version + 1 }

def Job.reconciling (job : Job) : Job :=
  { job with state := .reconciling, version := job.version + 1 }

/-- The pool is blocked (`epic_brainstorm.py:1092-1111`). -/
def Job.waitQuota (job : Job) (pool : QuotaPool) (now : ℤ) : Job :=
  let eligible := if pool.probeAttemptId.isSome then
      max (pool.nextEligibleAt.getD now) (now + 5 * second)
    else pool.nextEligibleAt.getD (now + 300 * second)
  if job.state ≠ .quotaWait ∨ job.waitPoolRevision ≠ some pool.revision then
    { job with
      state := .quotaWait
      nextEligibleAt := some eligible
      waitPoolRevision := some pool.revision
      version := job.version + 1 }
  else { job with nextEligibleAt := some eligible }

/-- Active attempts hold what the next one needs. -/
def Job.waitCapacity (job : Job) (now : ℤ) : Job :=
  let job := if job.state ≠ .capacityWait then
      { job with state := .capacityWait, failure := none, version := job.version + 1 }
    else job
  { job with nextEligibleAt := some (now + 5 * second) }

/-- An owner retry is spent. -/
def Job.admitted (job : Job) (attemptId : UUID) : Job :=
  { job with
    currentAttemptId := some attemptId
    state := .running
    nextEligibleAt := none
    retryAuthorizedUntil := none
    overrideUnknownUsage := false
    waitPoolRevision := none
    version := job.version + 1 }

def World.putJob (w : World) (jobId : UUID) (job : Job) : World :=
  { w with jobs := w.jobs.put jobId job }

/-- `quota_pool`. -/
def World.quotaPool (w : World) (key : QuotaPoolKey) : World :=
  { w with quota := w.quota.putPool key (w.quota.pool key) }

/-- `_lock_epic_ledger`. -/
def World.lockEpicLedger (w : World) (job : Job) (ceiling : TaskBudget) :
    Except String (World × EpicLedger) := do
  let ledger := (w.ledgers.get job.epicId).getD ⟨job.projectId, some ceiling, []⟩
  require (ledger.projectId = job.projectId) "epic budget ledger conflicts with project"
  .ok ({ w with ledgers := w.ledgers.put job.epicId ledger }, ledger)

/-- The rows of an admitted attempt. -/
def World.grant (w : World) (c : ClaimCall) (jobId : UUID) (job : Job) (key : QuotaPoolKey)
    (number : ℕ) (reservation : EpicDimension → Option ℤ) : World :=
  { w with
    jobs := w.jobs.put jobId (job.admitted c.attemptId)
    attempts := w.attempts.put c.attemptId (freshAttempt jobId number reservation)
    quota := Quota.claim w.quota key c.attemptId true c.now }

/-- What becomes of the loop after one job. -/
inductive Turn
  | stop (w : World)
  | next (w : World) (scope : Option (UUID × QuotaPoolKey))
  | granted (w : World)

section claim
variable (c : ClaimCall)

def eligible (seen : List UUID) (jobId : UUID) (job : Job) : Bool :=
  job.state.waiting && job.nextEligibleAt.all (· ≤ c.now) && !seen.contains jobId &&
    c.kinds.contains job.kind && !c.locked jobId

/-- Older jobs first. -/
def before (r s : UUID × Job) : Prop :=
  r.2.createdAt < s.2.createdAt ∨ (r.2.createdAt = s.2.createdAt ∧ r.1 ≤ s.1)

instance : DecidableRel before := fun r s =>
  inferInstanceAs (Decidable (r.2.createdAt < s.2.createdAt ∨ (r.2.createdAt = s.2.createdAt ∧ r.1 ≤ s.1)))

def nextJob (w : World) (seen : List UUID) : Option (UUID × Job) :=
  ((w.jobs.select (eligible c seen)).insertionSort before).head?

/-- What must still hold of a queued job. -/
def prepare (jobId : UUID) (job : Job) : Option (Snapshot × QuotaPoolKey) :=
  job.snapshot.bind fun snapshot =>
    if validBudget snapshot.budget && c.historyFrozen jobId then
      (keyFor c.routePools snapshot.route).map fun key => (snapshot, key)
    else none

/-- The last part of a turn, with the ledger and the pool locked. -/
def admitTurn (w : World) (jobId : UUID) (job : Job) (snapshot : Snapshot) (key : QuotaPoolKey)
    (ledger : EpicLedger) (number : ℕ) : Turn :=
  let scope := some (job.epicId, key)
  match ledger.ceiling with
  | none => .next (w.putJob jobId (job.failed "input_conflict")) scope
  | some budget =>
    match reservation job snapshot key ledger (w.epicAttempts job.epicId)
        (w.totals (c.epicCeiling.getD snapshot.budget) job.epicId) budget number with
    | .error _ => .next (w.putJob jobId (job.failed "input_conflict")) scope
    | .ok (none, true) => .next (w.putJob jobId (job.waitCapacity c.now)) scope
    | .ok (none, false) => .next (w.putJob jobId (job.failed "budget_exhausted")) scope
    | .ok (some reservation, _) => .granted (w.grant c jobId job key number reservation)

/-- The attempt the job ran last. -/
def World.previous (w : World) (job : Job) : Option Attempt :=
  job.currentAttemptId.bind w.attempts.get

def nextNumber (previous : Option Attempt) : ℕ := previous.elim 1 fun attempt => attempt.number + 1

/-- One turn of the loop. -/
def claimTurn (w : World) (scope : Option (UUID × QuotaPoolKey)) (jobId : UUID) (job : Job) :
    Except String Turn :=
  if c.checkpointed jobId then .ok (.next w scope)
  else if job.currentAttemptId.isSome && (w.previous job).all (!·.processSettled) then
    .ok (.next (w.putJob jobId job.reconciling) scope)
  else match prepare c jobId job with
    | none => .ok (.next (w.putJob jobId (job.failed "input_conflict")) scope)
    | some (snapshot, key) =>
      if scope.any (· != (job.epicId, key)) then .ok (.stop w)
      else do
        let (w, ledger) ← w.lockEpicLedger job (c.epicCeiling.getD snapshot.budget)
        let w := w.quotaPool key
        let pool := w.quota.pool key
        if pool.blocked && !due pool c.now then
          .ok (.next (w.putJob jobId (job.waitQuota pool c.now)) (some (job.epicId, key)))
        else .ok (admitTurn c w jobId job snapshot key ledger (nextNumber (w.previous job)))

def claimLoop : ℕ → World → List UUID → Option (UUID × QuotaPoolKey) →
    Except String (World × Option UUID)
  | 0, w, _, _ => .ok (w, none)
  | fuel + 1, w, seen, scope =>
    match nextJob c w seen with
    | none => .ok (w, none)
    | some (jobId, job) => do
      match ← claimTurn c w scope jobId job with
      | .stop w => .ok (w, none)
      | .next w scope => claimLoop fuel w (seen ++ [jobId]) scope
      | .granted w => .ok (w, some jobId)

/-- `claim`: the job that was admitted, if any. -/
def claim (w : World) : Except String (World × Option UUID) := claimLoop c 50 w [] none

end claim

/-! ### Settlement and recovery -/

/-- What a transition, a settlement or a recovery may write on an attempt. -/
structure AttemptWrite where
  processStarted : Bool
  processSettled : Bool
  usage : Option Base.Dict
  usageKnown : Option Bool
  toolCallsUsed : ℤ

/-- What they may write on its job. -/
structure JobWrite where
  state : JobState
  failure : Option String
  nextEligibleAt : Option ℤ

def Attempt.record (a : Attempt) (write : AttemptWrite) : Attempt :=
  { a with
    processStarted := write.processStarted
    processSettled := write.processSettled
    usage := write.usage
    usageKnown := write.usageKnown
    toolCallsUsed := write.toolCallsUsed }

def Job.record (job : Job) (write : JobWrite) : Job :=
  { job with
    state := write.state
    failure := write.failure
    nextEligibleAt := write.nextEligibleAt
    version := job.version + 1 }

/-- The attempt must be the current one of its job. -/
def World.record (w : World) (jobId attemptId : UUID) (write : AttemptWrite) (outcome : JobWrite) :
    Except String World := do
  let job ← orRaise (w.jobs.get jobId) "job not found"
  let attempt ← orRaise (w.attempts.get attemptId) "attempt not found"
  require (job.currentAttemptId = some attemptId) "attempt authority revoked"
  .ok { w with
    jobs := w.jobs.put jobId (job.record outcome)
    attempts := w.attempts.put attemptId (attempt.record write) }

/-- The jobs of an epic that wait for capacity are queued again. -/
def requeue (epicId : UUID) (locked : UUID → Bool) (jobId : UUID) (job : Job) : Job :=
  if job.epicId = epicId ∧ job.state = .capacityWait ∧ locked jobId = false then
    { job with
      state := .queued
      failure := none
      nextEligibleAt := none
      version := job.version + 1 }
  else job

/-- `quota_settle`. -/
def World.quotaSettle (policy : QuotaPolicy) (w : World) (jobId attemptId : UUID)
    (exhausted succeeded : Bool) (resetAt : Option ℤ) (locked : UUID → Bool) (now : ℤ) :
    Except String World := do
  let job ← orRaise (w.jobs.get jobId) "job not found"
  let attempt ← orRaise (w.attempts.get attemptId) "attempt not found"
  let snapshot ← orRaise job.snapshot "snapshot conflicts"
  let finished := (w.quota.authoring.get attemptId).any (·.finishedAt.isSome)
  let quota ← Quota.quotaSettle policy w.quota attemptId
    ⟨job.currentAttemptId == some attemptId, snapshot.route.provider, attempt.processSettled⟩
    exhausted resetAt succeeded now
  .ok { w with
    quota := quota
    jobs := if !attempt.processSettled || finished then w.jobs
      else w.jobs.mapRows (requeue job.epicId locked) }

end ParallelForge.Brainstorm
