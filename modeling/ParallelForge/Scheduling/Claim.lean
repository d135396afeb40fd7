import ParallelForge.Scheduling.Operations
import Mathlib.Data.List.Sort

/-!
# Claiming a task (`_claim_ready`, `scheduling.py:338-597`)

A claim expires leases that have ended, walks the queued tasks of admitted runs
in order of least recent claim, and leases the first that passes every check.
On its way it may block a stale plan contract. `ClaimContext` holds what the
transaction learns from other repositories: rows locked elsewhere, attempts
still to be settled, quota and budget answers.
-/

namespace ParallelForge.Scheduling
open Base Run

structure ClaimContext where
  now : ℤ
  owner : String
  leaseFor : ℤ
  freshAttempt : Bool
  preparedRunIds : Option (List UUID)
  lockedRuns : List UUID
  lockedTasks : List UUID
  unsettledAttempt : UUID → Bool
  available : RouteSpec → Bool
  eligible : RouteSpec → Bool
  budgetAdmits : UUID → Bool
  pausedTaskIsStopped : UUID → Bool

def ClaimContext.prepared (cx : ClaimContext) (runId : UUID) : Bool :=
  cx.preparedRunIds.all (·.contains runId)

/-- The leases a claim expires: ended before `now`, in a run it can lock. -/
def expires (cx : ClaimContext) (r : ScheduledTask) : Bool :=
  r.state == .leased && r.leaseExpiresAt.any (· < cx.now) && cx.prepared r.runId &&
    !cx.lockedRuns.contains r.runId

def expireTask (cx : ClaimContext) (r : ScheduledTask) : ScheduledTask :=
  if expires cx r then { r with state := .reconciling } else r

def expireLeases (cx : ClaimContext) (db : Db) : Db :=
  { db with scheduled := db.scheduled.mapRows fun _ r => expireTask cx r }

def claimable (r : ScheduledTask) : Bool := r.state == .queued && !r.stopped

/-- `last_claimed_at` with nulls first, then `created_at`. -/
def claimedBefore (a b : Option ℤ × ℤ × UUID) : Bool :=
  match a.1, b.1 with
  | none, some _ => true
  | some _, none => false
  | none, none => a.2.1 ≤ b.2.1
  | some s, some t => s < t || (s == t && a.2.1 ≤ b.2.1)

def candidateKey (db : Db) (cx : ClaimContext) (id : UUID) (r : ScheduledTask) :
    Option (Option ℤ × ℤ × UUID) :=
  match db.schedulerRuns.get r.runId with
  | none => none
  | some run =>
    if run.admitted && run.candidateState != .draining && claimable r && cx.prepared r.runId then
      some (run.lastClaimedAt, r.createdAt, id)
    else none

/-- `candidate_query`. -/
def candidates (db : Db) (cx : ClaimContext) : List UUID :=
  ((db.scheduled.rows.filterMap fun p => candidateKey db cx p.1 p.2).insertionSort fun a b =>
    claimedBefore a b = true).map fun k => k.2.2

section claim
variable (pathKey : String → String)

inductive Verdict
  | skip
  | stale
  | invalid
  | take (route : Option RouteBinding)
  deriving DecidableEq, Repr

/-- What a fresh provider attempt needs beyond a lease (`scheduling.py:448-527`). -/
def freshVerdict (db : Db) (cx : ClaimContext) (id : UUID) (row : ScheduledTask) : Verdict :=
  match db.env.runs row.runId with
  | none => .skip
  | some sourceRun =>
    let fence := feedbackPriorityFence db row.runId
    if !runAllowsSubscriptionAttempt sourceRun.state sourceRun.pendingGate ||
        (!fence.isEmpty && !fence.contains id) then .skip
    else match db.logical.get id with
      | none => .skip
      | some logical =>
        if cx.unsettledAttempt id || db.hasUnsettledEffect row.runId id ||
            logical.state != .queued || logical.pauseRequested || logical.cancelRequested then .skip
        else match logical.contract with
          | none => .invalid
          | some contract =>
            if isApprovedPlanPrimaryContract contract && sourceRun.state == .implementing then .stale
            else match routeForTask contract (db.env.envelopes contract.runId) cx.available
                cx.eligible with
              | none => .skip
              | some route => if cx.budgetAdmits id then .take (some route) else .skip

/-- Some dependency of the task is scheduled in its run and not terminal. -/
def hasPendingDependency (db : Db) (row : ScheduledTask) : Bool :=
  db.scheduled.any fun k r =>
    r.runId == row.runId && row.dependencyTaskIds.contains k && r.state != .terminal

/-- Capacity, the exclusive barrier, dependencies and path ownership
(`scheduling.py:528-563`). -/
def admissible (db : Db) (cx : ClaimContext) (id : UUID) (row : ScheduledTask) (run : SchedulerRun)
    (route : Option RouteBinding) : Bool :=
  let policy := currentPolicy db.env
  let provider := (route.map (·.effective.provider)).getD row.provider
  activeCount db cx.pausedTaskIsStopped (fun _ => true) < policy.globalLimit &&
    activeCount db cx.pausedTaskIsStopped (fun r => r.runId == row.runId) < run.effectiveRunLimit &&
    activeCount db cx.pausedTaskIsStopped (fun r => r.provider == provider) < policy.providerLimit &&
    !(!row.readOnly && !isCoordinator pathKey db id row && hasExclusiveEffectBarrier pathKey db row) &&
    !hasPendingDependency db row && !hasWorktreeConflict pathKey db id row

/-- The candidate can be locked, is still queued and unstopped, and the barrier of
its run lets it through (`scheduling.py:418-444`). -/
def offered (db : Db) (cx : ClaimContext) (id : UUID) (row : ScheduledTask) (run : SchedulerRun) :
    Bool :=
  !cx.lockedRuns.contains row.runId && (db.env.runs row.runId).isSome &&
    !db.env.checkpointed row.runId && !cx.lockedTasks.contains id && run.admitted &&
    claimable row && (run.candidateState == .opened ||
      (run.candidateState == .closed && canReadCandidate pathKey db id row))

/-- One turn of the loop over the candidates (`scheduling.py:417-563`). -/
def examine (db : Db) (cx : ClaimContext) (id : UUID) : Verdict :=
  match db.scheduled.get id with
  | none => .skip
  | some row =>
    match db.schedulerRuns.get row.runId with
    | none => .skip
    | some run =>
      if offered pathKey db cx id row run then
        match if cx.freshAttempt then freshVerdict db cx id row else .take none with
        | .take route => if admissible pathKey db cx id row run route then .take route else .skip
        | verdict => verdict
      else .skip

/-- `block_stale_queued_contract`: both rows of the task become blocked. -/
def blockStale (db : Db) (id : UUID) : Db :=
  { db with
    scheduled := db.scheduled.modify id fun r => { r with state := .blocked }
    logical := db.logical.modify id (·.moveTo .blocked) }

/-- The loop, ending with the chosen task and its route. -/
def claimLoop (cx : ClaimContext) :
    List UUID → Db → Except SchedulingError (Db × Option (UUID × Option RouteBinding))
  | [], db => .ok (db, none)
  | id :: ids, db =>
    match examine pathKey db cx id with
    | .skip => claimLoop cx ids db
    | .stale => claimLoop cx ids (blockStale db id)
    | .invalid => .error (.typeError "invalid quota task")
    | .take route => .ok (db, some (id, route))

def leaseRow (cx : ClaimContext) (row : ScheduledTask) : ScheduledTask :=
  { row with
    state := .leased
    leaseOwner := some cx.owner
    leaseGeneration := row.leaseGeneration + 1
    leaseExpiresAt := some (cx.now + cx.leaseFor) }

/-- A substituted route is written to the contract and the row. -/
def substituteRoute (db : Db) (id : UUID) (row : ScheduledTask) (route : Option RouteBinding) :
    Db × ScheduledTask :=
  match route, db.logical.get id with
  | some r, some logical =>
    match logical.contract with
    | some c =>
      if c.route = r then (db, row)
      else (db.putLogical id { logical with
          contract := some { c with route := r }, version := logical.version + 1 },
        { row with provider := r.effective.provider })
    | none => (db, row)
  | _, _ => (db, row)

/-- The writes that grant the lease (`scheduling.py:564-597`). -/
def grant (cx : ClaimContext) (db : Db) (id : UUID) (row : ScheduledTask)
    (route : Option RouteBinding) : Db × TaskLease :=
  let (db, row) := substituteRoute db id row route
  let leased := leaseRow cx row
  let db := db.putTask id leased
  let db := match db.schedulerRuns.get row.runId with
    | some run => db.putRun row.runId { run with lastClaimedAt := some cx.now }
    | none => db
  (db, ⟨row.runId, id, cx.owner, leased.leaseGeneration, cx.now + cx.leaseFor⟩)

/-- `_claim_ready` (`scheduling.py:338-597`). -/
def claimReady (db : Db) (cx : ClaimContext) : Except SchedulingError (Db × Option TaskLease) := do
  require (strip cx.owner ≠ "" ∧ 1000000 ≤ cx.leaseFor) (.valueError "valid owner and lease required")
  if cx.preparedRunIds = some [] then return (db, none)
  else do
    let db := expireLeases cx db
    let (db, chosen) ← claimLoop pathKey cx (candidates db cx) db
    match chosen with
    | none => return (db, none)
    | some (id, route) =>
      match db.scheduled.get id with
      | none => return (db, none)
      | some row =>
        let (db, lease) := grant cx db id row route
        return (db, some lease)

end claim

end ParallelForge.Scheduling
