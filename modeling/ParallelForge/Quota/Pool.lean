import ParallelForge.Base.Result
import ParallelForge.Base.Table
import ParallelForge.Base.Text

/-!
# Quota pools (`repositories/subscription_quota.py`, `repositories/epic_brainstorm.py`)

Two subsystems admit provider attempts against the same pool rows: the
subscription scheduler and the authoring jobs. Instants are microseconds. A pool
without a row is the row that `_lock` and `quota_pool` insert. Digests stand for
the payloads they are taken of.
-/

namespace ParallelForge.Quota
open Base

structure QuotaPoolKey where
  provider : String
  account : String
  pool : String
  deriving DecidableEq, Repr

/-- `unknown_reset_cooldown_seconds`, checked on construction. -/
structure QuotaPolicy where
  unknownResetCooldownSeconds : ℕ
  bounded : 60 ≤ unknownResetCooldownSeconds ∧ unknownResetCooldownSeconds ≤ 86400

def QuotaPolicy.cooldown (policy : QuotaPolicy) : ℤ := policy.unknownResetCooldownSeconds * 1000000

inductive RetryBasis
  | knownReset
  | probeCooldown
  deriving DecidableEq, Repr

structure QuotaPool where
  revision : ℕ := 0
  blocked : Bool := false
  observedAt : Option ℤ := none
  reason : Option String := none
  resetAt : Option ℤ := none
  nextEligibleAt : Option ℤ := none
  retryBasis : Option RetryBasis := none
  probeAttemptId : Option UUID := none
  recoveredAt : Option ℤ := none
  deriving DecidableEq, Repr

def classifierChars : List Char := "abcdefghijklmnopqrstuvwxyz0123456789_:-".toList

/-- `QuotaExhaustion` with its checks. -/
structure QuotaExhaustion where
  observedAt : ℤ
  reason : String
  resetAt : Option ℤ
  reason_ok : reason ≠ "" ∧ reason.length ≤ 128 ∧ reason.toList.all (classifierChars.contains ·) = true
  reset_ok : ∀ r, resetAt = some r → observedAt < r

/-- A row of either admission table. -/
structure Admission where
  key : QuotaPoolKey
  revision : ℕ
  probe : Bool
  finishedAt : Option ℤ
  deriving DecidableEq, Repr

/-- What `source_key` digests. -/
inductive SourceKey
  | evidence (key : QuotaPoolKey) (attempt actor : Option UUID) (idempotencyKey : String)
  | authoring (attemptId : UUID) (resetAt : Option ℤ)
  deriving DecidableEq, Repr

/-- What `evidence_digest` digests. -/
inductive Evidence
  | exhaustion (observedAt : ℤ) (reason : String) (resetAt : Option ℤ)
  | authoring (attemptId : UUID) (resetAt : Option ℤ)
  deriving DecidableEq, Repr

structure Observation where
  key : QuotaPoolKey
  sourceAttemptId : Option UUID
  actorId : Option UUID
  observedAt : ℤ
  reason : String
  resetAt : Option ℤ
  nextEligibleAt : ℤ
  retryBasis : RetryBasis
  evidence : Evidence
  deriving DecidableEq, Repr

/-- The quota tables: `admissions` of subscription attempts, `authoring` of brainstorm attempts. -/
structure Store where
  pools : Table QuotaPoolKey QuotaPool
  admissions : Table UUID Admission
  authoring : Table UUID Admission
  observations : Table SourceKey Observation

def Store.empty : Store := ⟨Table.empty, Table.empty, Table.empty, Table.empty⟩

def Store.pool (w : Store) (key : QuotaPoolKey) : QuotaPool := (w.pools.get key).getD {}

def Store.putPool (w : Store) (key : QuotaPoolKey) (row : QuotaPool) : Store :=
  { w with pools := w.pools.put key row }

def Store.putAdmission (w : Store) (attemptId : UUID) (row : Admission) : Store :=
  { w with admissions := w.admissions.put attemptId row }

def Store.putAuthoring (w : Store) (attemptId : UUID) (row : Admission) : Store :=
  { w with authoring := w.authoring.put attemptId row }

def Store.putObservation (w : Store) (sourceKey : SourceKey) (row : Observation) : Store :=
  { w with observations := w.observations.put sourceKey row }

/-- A blocked pool that no probe holds and whose time has come. -/
def due (row : QuotaPool) (now : ℤ) : Bool :=
  row.probeAttemptId.isNone && row.nextEligibleAt.any (· ≤ now)

inductive PoolStatus
  | blocked
  | unknown
  | eligible
  deriving DecidableEq, Repr

/-- `_status`. -/
def statusOf (row : QuotaPool) (now : ℤ) : PoolStatus :=
  if row.blocked then if due row now then .eligible else .blocked else .unknown

/-- `allows_attempt`. -/
def allowsAttempt (row : QuotaPool) (now : ℤ) : Bool := statusOf row now != .blocked

section subscription
variable (policy : QuotaPolicy) (w : Store)

def exhaustionBasis (resetAt : Option ℤ) : RetryBasis :=
  if resetAt.isSome then .knownReset else .probeCooldown

/-- The pool row after new evidence (`subscription_quota.py:198-231`). -/
def exhaustPool (row : QuotaPool) (e : QuotaExhaustion) : QuotaPool :=
  let eligible := e.resetAt.getD (e.observedAt + policy.cooldown)
  let row := if !row.blocked || row.nextEligibleAt.all (· ≤ eligible) then
      { row with
        nextEligibleAt := some eligible
        resetAt := e.resetAt
        retryBasis := some (exhaustionBasis e.resetAt) }
    else row
  let row := if row.observedAt.all (· ≤ e.observedAt) then
      { row with observedAt := some e.observedAt, reason := some e.reason }
    else row
  { row with revision := row.revision + 1, blocked := true, recoveredAt := none }

/-- Evidence of an attempt must be about the account it was admitted to. -/
def checkSource (key : QuotaPoolKey) : Option UUID → Except String Unit
  | some attemptId =>
    require ((w.admissions.get attemptId).any (·.key == key) = true)
      "quota evidence differs from admitted account"
  | none => .ok ()

/-- `report_exhaustion` (`subscription_quota.py:151-233`). -/
def reportExhaustion (key : QuotaPoolKey) (e : QuotaExhaustion) (idempotencyKey : String)
    (sourceAttemptId actorId : Option UUID) : Except String Store := do
  require (sourceAttemptId.isNone ≠ actorId.isNone) "quota evidence requires exactly one source"
  require ((sourceAttemptId <|> actorId) ≠ some 0 ∧ idempotencyKey ≠ "" ∧
    idempotencyKey.length ≤ 255) "quota evidence source is invalid"
  checkSource w key sourceAttemptId
  let sourceKey := .evidence key sourceAttemptId actorId idempotencyKey
  let evidence := .exhaustion e.observedAt e.reason e.resetAt
  match w.observations.get sourceKey with
  | some prior => do
    require (prior.evidence = evidence) "quota evidence replay conflicts"
    .ok w
  | none =>
    let observation : Observation :=
      { key := key
        sourceAttemptId := sourceAttemptId
        actorId := actorId
        observedAt := e.observedAt
        reason := e.reason
        resetAt := e.resetAt
        nextEligibleAt := e.resetAt.getD (e.observedAt + policy.cooldown)
        retryBasis := exhaustionBasis e.resetAt
        evidence := evidence }
    .ok ((w.putObservation sourceKey observation).putPool key (exhaustPool policy (w.pool key) e))

/-- `_cooldown`. -/
def cooldown (row : QuotaPool) (now : ℤ) : QuotaPool :=
  let eligible := now + policy.cooldown
  let row := if row.nextEligibleAt.all (· < eligible) then
      { row with
        nextEligibleAt := some eligible
        resetAt := none
        retryBasis := some .probeCooldown }
    else row
  { row with blocked := true }

structure Lease where
  owner : Option String
  generation : Option ℕ
  expiresAt : Option ℤ
  deriving DecidableEq, Repr

/-- What recovery reads of the probe's attempt: its lease if it is a subscription attempt,
whether the run could be locked, the lease of its scheduled task, and `launches_confirmed`. -/
structure ProbeEvidence where
  attempt : Option Lease
  runLocked : Bool
  scheduled : Option Lease
  launchesConfirmed : Bool
  deriving DecidableEq, Repr

/-- The attempt may still launch: its scheduled task is gone or under the same unexpired lease. -/
def mayLaunch (attempt : Lease) (scheduled : Option Lease) (now : ℤ) : Bool :=
  scheduled.all fun s => s.owner == attempt.owner && s.generation == attempt.generation &&
    s.expiresAt.any (now < ·)

/-- `_recover_probe` (`subscription_quota.py:235-295`). -/
def recoverProbe (key : QuotaPoolKey) (seen : ProbeEvidence) (now : ℤ) : Store :=
  match (w.pool key).probeAttemptId, seen.attempt with
  | some probe, some attempt =>
    match w.admissions.get probe with
    | some admission =>
      if !seen.runLocked || (admission.finishedAt.isNone && mayLaunch attempt seen.scheduled now) ||
          !seen.launchesConfirmed then w
      else
        let row := { w.pool key with probeAttemptId := none }
        let row := if row.revision == admission.revision then cooldown policy row now else row
        (w.putAdmission probe
          { admission with finishedAt := some (admission.finishedAt.getD now) }).putPool key row
    | none => w
  | _, _ => w

/-- `admit` (`subscription_quota.py:356-378`). -/
def admitAttempt (key : QuotaPoolKey) (attemptId : UUID) (seen : ProbeEvidence) (now : ℤ) :
    Except String Store := do
  let w := recoverProbe policy w key seen now
  let row := w.pool key
  require (allowsAttempt row now = true) "provider quota pool is blocked"
  require (w.admissions.get attemptId = none) "quota admission cannot be issued twice"
  let w := w.putAdmission attemptId ⟨key, row.revision, row.blocked, none⟩
  .ok (if row.blocked then w.putPool key { row with probeAttemptId := some attemptId } else w)

/-- The pool after an attempt that stopped: its probe slot is free, and a probe of the current
revision decides (`subscription_quota.py:409-416`). -/
def settlePool (row : QuotaPool) (admission : Admission) (attemptId : UUID)
    (exhausted succeeded : Bool) (now : ℤ) : QuotaPool :=
  if row.probeAttemptId == some attemptId then
    let row := { row with probeAttemptId := none }
    if succeeded && !exhausted && row.revision == admission.revision then
      { row with blocked := false, recoveredAt := some now }
    else if !exhausted && row.revision == admission.revision then cooldown policy row now
    else row
  else row

/-- The evidence a settlement brings, if any. -/
def settleEvidence (key : QuotaPoolKey) (attemptId : UUID) : Option QuotaExhaustion →
    Except String Store
  | some e => reportExhaustion policy w key e "provider-result" (some attemptId) none
  | none => .ok w

/-- `settle` (`subscription_quota.py:380-417`). -/
def settle (attemptId : UUID) (exhaustion : Option QuotaExhaustion) (succeeded stopped : Bool)
    (now : ℤ) : Except String Store :=
  match w.admissions.get attemptId with
  | none => .ok w
  | some admission => do
    let w ← settleEvidence policy w admission.key attemptId exhaustion
    if !stopped then .ok w
    else
      let row := settlePool policy (w.pool admission.key) admission attemptId exhaustion.isSome
        succeeded now
      .ok ((w.putAdmission attemptId { admission with finishedAt := some now }).putPool
        admission.key row)

end subscription

section authoring
variable (policy : QuotaPolicy) (w : Store)

/-- The quota part of `claim` (`epic_brainstorm.py:1091-1141`); `reserved` says that the budget
ledger granted a reservation. -/
def claim (key : QuotaPoolKey) (attemptId : UUID) (reserved : Bool) (now : ℤ) : Store :=
  let row := w.pool key
  if row.blocked && !due row now then w
  else if !reserved then w
  else
    let w := w.putAuthoring attemptId ⟨key, row.revision, row.blocked, none⟩
    if row.blocked then w.putPool key { row with probeAttemptId := some attemptId } else w

/-- The pool after exhaustion reported by an authoring attempt (`epic_brainstorm.py:183-200`). -/
def exhaustAuthoring (row : QuotaPool) (resetAt : Option ℤ) (now : ℤ) : QuotaPool :=
  let eligible := resetAt.getD (now + policy.cooldown)
  if row.observedAt.all (· ≤ now) then
    let row := if !row.blocked || row.nextEligibleAt.all (· < eligible) then
        { row with
          nextEligibleAt := some eligible
          resetAt := resetAt
          retryBasis := some (exhaustionBasis resetAt) }
      else row
    { row with
      blocked := true
      observedAt := some now
      reason := some "usage_exhausted"
      recoveredAt := none
      revision := row.revision + 1 }
  else row

/-- The observation of an authoring attempt, once (`epic_brainstorm.py:146-200`). -/
def observeAuthoring (attemptId : UUID) (admission : Admission) (exhausted : Bool)
    (resetAt : Option ℤ) (now : ℤ) : Store :=
  let existing := w.observations.any fun _ o => o.sourceAttemptId == some attemptId
  if exhausted && !existing && admission.finishedAt.isNone then
    let observation : Observation :=
      { key := admission.key
        sourceAttemptId := some attemptId
        actorId := none
        observedAt := now
        reason := "usage_exhausted"
        resetAt := resetAt
        nextEligibleAt := resetAt.getD (now + policy.cooldown)
        retryBasis := exhaustionBasis resetAt
        evidence := .authoring attemptId resetAt }
    (w.putObservation (.authoring attemptId resetAt) observation).putPool admission.key
      (exhaustAuthoring policy (w.pool admission.key) resetAt now)
  else w

/-- The verdict of a probe of the current revision, then the free slot (`epic_brainstorm.py:203-222`). -/
def finishAuthoring (row : QuotaPool) (admission : Admission) (attemptId : UUID)
    (exhausted succeeded : Bool) (now : ℤ) : QuotaPool :=
  let row := if !exhausted && admission.probe && row.probeAttemptId == some attemptId &&
      row.revision == admission.revision then
      { (if succeeded then
          { row with
            blocked := false
            recoveredAt := some now
            reason := none
            nextEligibleAt := none
            resetAt := none
            retryBasis := none }
        else
          { row with
            blocked := true
            nextEligibleAt := some (now + policy.cooldown)
            resetAt := none
            retryBasis := some .probeCooldown }) with
        revision := row.revision + 1 }
    else row
  if row.probeAttemptId == some attemptId then { row with probeAttemptId := none } else row

/-- What `quota_settle` reads of the job and the attempt: whether the attempt is the job's
current one, the provider of its route, and whether its process is settled. -/
structure JobEvidence where
  current : Bool
  provider : String
  processSettled : Bool
  deriving DecidableEq, Repr

/-- `quota_settle` (`epic_brainstorm.py:103-222`). -/
def quotaSettle (attemptId : UUID) (job : JobEvidence) (exhausted : Bool) (resetAt : Option ℤ)
    (succeeded : Bool) (now : ℤ) : Except String Store := do
  require (job.current = true) "quota result attempt authority revoked"
  let admission ← orRaise (w.authoring.get attemptId) "quota admission identity conflicts"
  require (admission.key.provider = job.provider) "quota admission identity conflicts"
  let w := observeAuthoring policy w attemptId admission exhausted resetAt now
  if !job.processSettled || admission.finishedAt.isSome then .ok w
  else
    let row := finishAuthoring policy (w.pool admission.key) admission attemptId exhausted succeeded
      now
    .ok ((w.putAuthoring attemptId { admission with finishedAt := some now }).putPool admission.key
      row)

end authoring

end ParallelForge.Quota
