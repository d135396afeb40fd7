import ParallelForge.Base.Result
import ParallelForge.Scheduling.Tables

/-!
# Scheduler operations (`repositories/scheduling.py`)

Every operation but `claim`. An operation that raises leaves the tables as they
were. `now` is the clock reading of the operation.
-/

namespace ParallelForge.Scheduling
open Base Run

inductive SchedulingError
  | conflict (message : String)
  | leaseLost (message : String)
  | leaseRevoked (message : String)
  | usageCheckpointLeaseRevoked (message : String)
  | valueError (message : String)
  | typeError (message : String)
  | subscriptionConflict (message : String)
  | subscriptionDecision (message : String)
  deriving DecidableEq, Repr

/-- `ScheduleTask`; its paths are already path keys. -/
structure ScheduleTask where
  runId : UUID
  taskId : UUID
  worktreeId : String
  ownedPaths : List String
  parentTaskId : Option UUID
  dependencyTaskIds : List UUID
  readOnly : Bool
  maxRepairs : ℕ
  deriving DecidableEq, Repr

structure TaskLease where
  runId : UUID
  taskId : UUID
  owner : String
  generation : ℕ
  expiresAt : ℤ
  deriving DecidableEq, Repr

structure TaskEffectLease where
  effectId : UUID
  taskLease : TaskLease
  candidateEpoch : ℕ
  deriving DecidableEq, Repr

/-- `_lock_run`. -/
def lockRun (db : Db) (runId : UUID) : Except SchedulingError Unit :=
  require ((db.env.runs runId).isSome = true) (.conflict "scheduled run not found")

section enqueue
variable (pathKey : String → String)

def authorityMatches (task : ScheduleTask) (c : LogicalTaskContract) : Bool :=
  task.parentTaskId == c.parentTaskId && task.dependencyTaskIds == c.dependencyTaskIds &&
    task.ownedPaths == c.ownedPaths.map pathKey && task.maxRepairs == c.maxRepairs &&
    task.readOnly == isReadOnly c.purpose

/-- The candidate barrier of a run admits a task: open, or closed for a reader. -/
def barrierAdmits (run : Option SchedulerRun) (readOnly : Bool) : Bool :=
  run.all fun r => r.candidateState == .opened || (r.candidateState == .closed && readOnly)

/-- `_matches`. -/
def rowMatches (row : ScheduledTask) (task : ScheduleTask) (provider : String) : Bool :=
  row.parentTaskId == task.parentTaskId && row.dependencyTaskIds == task.dependencyTaskIds &&
    row.worktreeId == task.worktreeId && row.ownedPaths == task.ownedPaths &&
    row.readOnly == task.readOnly && row.maxRepairs == task.maxRepairs && row.provider == provider

def enqueuedTask (task : ScheduleTask) (provider : String) (now : ℤ) : ScheduledTask where
  runId := task.runId
  parentTaskId := task.parentTaskId
  worktreeId := task.worktreeId
  provider := provider
  ownedPaths := task.ownedPaths
  dependencyTaskIds := task.dependencyTaskIds
  readOnly := task.readOnly
  maxRepairs := task.maxRepairs
  repairs := 0
  state := .queued
  leaseOwner := none
  leaseGeneration := 0
  leaseExpiresAt := none
  pauseRequested := false
  cancelRequested := false
  createdAt := now

/-- `enqueue` (`scheduling.py:102-147`). -/
def enqueue (db : Db) (task : ScheduleTask) (now : ℤ) : Except SchedulingError Db := do
  lockRun db task.runId
  let logical ← orRaise ((db.logical.get task.taskId).filter fun t => t.runId == task.runId)
    (.conflict "scheduled task requires persisted logical contract")
  let contract ← orRaise (logical.contract.filter (authorityMatches pathKey task))
    (.conflict "scheduled task authority differs from logical contract")
  require (barrierAdmits (db.schedulerRuns.get task.runId) task.readOnly = true)
    (.conflict "candidate barrier denies new task admission")
  match db.scheduled.get task.taskId with
  | some row => do
    require (row.runId = task.runId) (.conflict "task identity belongs to another run")
    require (rowMatches row task contract.route.effective.provider = true)
      (.conflict "scheduled task contract is immutable")
    return db
  | none => return db.putTask task.taskId (enqueuedTask task contract.route.effective.provider now)

end enqueue

/-- `admit_run` (`scheduling.py:149-163`). -/
def admitRun (db : Db) (runId : UUID) : Db :=
  match db.env.envelopes runId with
  | none => db
  | some _ =>
    match db.schedulerRuns.get runId with
    | some run => db.putRun runId { run with admitted := true }
    | none =>
      let policy := currentPolicy db.env
      db.putRun runId
        { admitted := true
          candidateEpoch := 0
          candidateState := .opened
          capacityPolicyVersion := policy.version
          effectiveRunLimit := policy.runLimit
          lastClaimedAt := none }

/-- `_task` (`scheduling.py:884-903`): the row of a current, unexpired lease. -/
def leasedTask (db : Db) (lease : TaskLease) (now : ℤ) : Except SchedulingError ScheduledTask := do
  let row ← orRaise ((db.taskOf lease.runId lease.taskId).filter fun r =>
      r.state == .leased && r.leaseOwner == some lease.owner &&
        r.leaseGeneration == lease.generation && r.leaseExpiresAt.isSome)
    (.leaseLost "stale task lease")
  require (row.leaseExpiresAt.any (now < ·) = true)
    (.leaseLost "task lease expired and requires reconciliation")
  return row

/-- The mark `_task` leaves on an expired lease, when its caller commits in spite
of the exception. -/
def markExpired (db : Db) (lease : TaskLease) (now : ℤ) : Db :=
  match db.taskOf lease.runId lease.taskId with
  | none => db
  | some row =>
    if row.state = .leased ∧ row.leaseOwner = some lease.owner ∧
        row.leaseGeneration = lease.generation ∧ row.leaseExpiresAt.any (· ≤ now) = true then
      db.putTask lease.taskId { row with state := .reconciling }
    else db

/-- `renew` (`scheduling.py:599-633`). -/
def renew (db : Db) (lease : TaskLease) (leaseFor now : ℤ) :
    Except SchedulingError (Db × TaskLease) := do
  require (1000000 ≤ leaseFor) (.valueError "valid renewal duration required")
  let sourceRun ← orRaise (db.env.runs lease.runId) (.leaseLost "scheduled run is absent")
  require (runAllowsSubscriptionAttempt sourceRun.state sourceRun.pendingGate = true)
    (.leaseRevoked "task lease is fenced by run control")
  require (db.env.checkpointed lease.runId = false)
    (.usageCheckpointLeaseRevoked "task lease is fenced by usage checkpoint")
  let row ← leasedTask db lease now
  require (row.stopped = false ∧
      (db.logical.get lease.taskId).all (fun t => !(t.pauseRequested || t.cancelRequested)) = true)
    (.leaseRevoked "task lease is revoked")
  return (db.putTask lease.taskId { row with leaseExpiresAt := some (now + leaseFor) },
    { lease with expiresAt := now + leaseFor })

section wake

/-- What a blocked parent waits for, by its latest result. -/
inductive Parking
  | allChildren
  | anyChild
  | selected (ids : List UUID)
  | unwakeable
  deriving DecidableEq, Repr

/-- The part of `_wake_ready_parents` that reads the parent's latest result
(`scheduling.py:1267-1362`). An unaccepted result, another disposition or a
broken record leaves the parent alone. -/
def parking (db : Db) (parentId : UUID) (parent : ScheduledTask) : Parking :=
  match (db.attempts.get parentId).bind (·.result) with
  | none => .allChildren
  | some result =>
    if result.accepted = false then .unwakeable
    else match result.disposition, result.decision with
      | .delegated, some (.delegate runId parentTaskId) =>
        if parentTaskId = parentId ∧ runId = parent.runId then .anyChild else .unwakeable
      | .waiting, some (.wait runId taskId waitingOn) =>
        if taskId = parentId ∧ runId = parent.runId ∧ waitingOn.length ≤ 64 then .selected waitingOn
        else .unwakeable
      | .reassigned, some (.reassign runId taskId) =>
        if runId = parent.runId then .selected [taskId] else .unwakeable
      | .feedbackForwarded, some (.forwardFeedback runId taskId) =>
        if runId = parent.runId then .selected [taskId] else .unwakeable
      | _, _ => .unwakeable

/-- The scheduled children of a parent that satisfy `p`. -/
def childrenOf (db : Db) (runId parentId : UUID) (p : UUID → Bool) : List (UUID × ScheduledTask) :=
  db.scheduled.select fun k r => r.runId == runId && r.parentTaskId == some parentId && p k

/-- The rest of `_wake_ready_parents` (`scheduling.py:1363-1396`). -/
def wakes (db : Db) (parentId : UUID) (parent : ScheduledTask) (childId : UUID)
    (scopeRequest : Bool) : Bool :=
  match parking db parentId parent with
  | .unwakeable => false
  | .anyChild => true
  | .allChildren => scopeRequest ||
      (childrenOf db parent.runId parentId fun _ => true).all fun c => c.2.state == .terminal
  | .selected ids =>
    let rows := childrenOf db parent.runId parentId ids.contains
    rows.length == ids.length &&
      if scopeRequest then ids.contains childId else rows.all fun c => c.2.state == .terminal

def wakeLogical (t : LogicalTask) : LogicalTask :=
  if t.state = .blocked then t.moveTo .queued else t

def wakeTask (db : Db) (id : UUID) (row : ScheduledTask) : Db :=
  { db with
    scheduled := db.scheduled.put id { row with state := .queued }
    logical := db.logical.modify id wakeLogical }

/-- `_wake_ready_parents` (`scheduling.py:1250-1405`). -/
def wakeReadyParents (db : Db) (childId : UUID) (child : ScheduledTask) (scopeRequest : Bool) : Db :=
  match child.parentTaskId with
  | none => db
  | some parentId =>
    match db.taskOf child.runId parentId with
    | none => db
    | some parent =>
      if parent.state = .blocked ∧ wakes db parentId parent childId scopeRequest = true then
        wakeTask db parentId parent
      else db

end wake

def releasedTask (row : ScheduledTask) (terminal : Bool) : ScheduledTask :=
  { row with
    state := if terminal then .terminal else .queued
    leaseOwner := none
    leaseExpiresAt := none }

/-- `_release_task` (`scheduling.py:876-882`). -/
def releaseTask (db : Db) (id : UUID) (row : ScheduledTask) (terminal : Bool) : Db :=
  let released := releasedTask row terminal
  let db' := db.putTask id released
  if terminal then wakeReadyParents db' id released false else db'

/-- `finish` (`scheduling.py:635-653`). -/
def finish (db : Db) (lease : TaskLease) (successful allowRepair : Bool) (now : ℤ) :
    Except SchedulingError Db := do
  lockRun db lease.runId
  let row ← leasedTask db lease now
  if row.stopped || successful || !allowRepair || decide (row.maxRepairs ≤ row.repairs) then
    return releaseTask db lease.taskId row true
  else return releaseTask db lease.taskId { row with repairs := row.repairs + 1 } false

/-- `defer_quota` (`scheduling.py:655-661`). -/
def deferQuota (db : Db) (lease : TaskLease) (now : ℤ) : Except SchedulingError Db := do
  lockRun db lease.runId
  let row ← leasedTask db lease now
  require (row.stopped = false) (.leaseRevoked "quota deferral lease is revoked")
  return releaseTask db lease.taskId row false

section effects
variable (pathKey : String → String)

structure EffectRequest where
  effectId : UUID
  ownedPaths : List String
  wholeWorktreeExclusive : Bool
  expectedCandidateEpoch : Option ℕ
  deriving DecidableEq, Repr

/-- `rstrip("/")`. -/
def stripSlashes (s : String) : String :=
  String.ofList (s.toList.reverse.dropWhile (· == '/')).reverse

/-- Every requested path is one of the permitted ones or below it. -/
def pathsPermitted (permitted requested : List String) : Bool :=
  requested.all fun p => permitted.any fun q => p == q || isBelow p (stripSlashes q)

def readEffect (db : Db) (lease : TaskLease) (row : ScheduledTask) (effectId : UUID) : Bool :=
  (isCoordinator pathKey db lease.taskId row || row.readOnly) &&
    isBoundRead db effectId lease.taskId row lease.owner lease.generation false

/-- The mode an effect is admitted in: a replayed read keeps the stored
exclusive mode, and a new coordinator mutation is always exclusive. -/
def admittedExclusive (db : Db) (lease : TaskLease) (row : ScheduledTask) (request : EffectRequest) :
    Bool :=
  let existing := db.effects.get request.effectId
  let read := readEffect pathKey db lease row request.effectId
  request.wholeWorktreeExclusive ||
    (read && existing.any (·.wholeWorktreeExclusive)) ||
    (isCoordinator pathKey db lease.taskId row && !read && existing.all (·.wholeWorktreeExclusive))

def newEffect (lease : TaskLease) (epoch : ℕ) (exclusive : Bool) : ScheduledEffect where
  runId := lease.runId
  taskId := lease.taskId
  leaseOwner := lease.owner
  leaseGeneration := lease.generation
  candidateEpoch := epoch
  wholeWorktreeExclusive := exclusive
  state := .admitted

/-- The stored effect is the same request of the same lease. -/
def sameEffect (e : ScheduledEffect) (lease : TaskLease) (exclusive : Bool) : Bool :=
  e.runId == lease.runId && e.taskId == lease.taskId && e.leaseOwner == lease.owner &&
    e.leaseGeneration == lease.generation && e.wholeWorktreeExclusive == exclusive

/-- The checks made only on a new effect (`scheduling.py:716-736`). -/
def requireWorktree (db : Db) (lease : TaskLease) (row : ScheduledTask) (effectId : UUID)
    (read exclusive : Bool) : Except SchedulingError Unit := do
  require ((((!row.readOnly && !read) || exclusive) && hasExclusiveEffectBarrier pathKey db row)
      = false)
    (.conflict "worktree exclusive effect barrier is active")
  let snapshotRead := exclusive &&
    isBoundRead db effectId lease.taskId row lease.owner lease.generation true
  require ((exclusive && hasEffectConflict pathKey db lease.taskId row snapshotRead) = false)
    (.conflict "worktree is not exclusively available")

/-- `admit_effect` (`scheduling.py:663-756`). -/
def admitEffect (db : Db) (lease : TaskLease) (request : EffectRequest) (now : ℤ) :
    Except SchedulingError (Db × TaskEffectLease) := do
  lockRun db lease.runId
  require (db.env.checkpointed lease.runId = false)
    (.conflict "task effect admission is fenced by usage checkpoint")
  let row ← leasedTask db lease now
  let run ← orRaise ((db.schedulerRuns.get lease.runId).filter fun _ => !row.stopped)
    (.conflict "task effect admission is revoked")
  require (request.expectedCandidateEpoch.all (· == run.candidateEpoch) = true)
    (.conflict "candidate epoch differs")
  require (pathsPermitted row.ownedPaths (request.ownedPaths.map pathKey) = true)
    (.conflict "effect paths exceed persisted task ownership")
  let existing := db.effects.get request.effectId
  let read := readEffect pathKey db lease row request.effectId
  let exclusive := admittedExclusive pathKey db lease row request
  require (existing.all (fun e => sameEffect e lease exclusive) = true)
    (.conflict "effect identity conflicts")
  match existing with
  | none => requireWorktree pathKey db lease row request.effectId read exclusive
  | some _ => pure ()
  require (run.candidateState = .opened ∨ (run.candidateState = .closed ∧ read = true))
    (.conflict "candidate barrier denies task effect admission")
  let granted : TaskEffectLease := ⟨request.effectId, lease, run.candidateEpoch⟩
  match existing with
  | none => return (db.putEffect request.effectId (newEffect lease run.candidateEpoch exclusive),
      granted)
  | some _ => return (db, granted)

end effects

/-- `_effect` (`scheduling.py:905-920`). -/
def effectRow (db : Db) (effect : TaskEffectLease) (admittedOnly : Bool) :
    Except SchedulingError ScheduledEffect :=
  orRaise ((db.effects.get effect.effectId).filter fun e =>
      e.runId == effect.taskLease.runId && e.taskId == effect.taskLease.taskId &&
        e.leaseOwner == effect.taskLease.owner &&
        e.leaseGeneration == effect.taskLease.generation &&
        e.candidateEpoch == effect.candidateEpoch && (!admittedOnly || e.state == .admitted))
    (.conflict "stale or settled effect lease")

/-- The lease is the current one of its task and has not ended. -/
def holdsLease (db : Db) (lease : TaskLease) (now : ℤ) : Option ScheduledTask :=
  (db.taskOf lease.runId lease.taskId).filter fun r =>
    r.leaseOwner == some lease.owner && r.leaseGeneration == lease.generation &&
      r.state == .leased && r.leaseExpiresAt.any (now < ·)

/-- `settle_effect` (`scheduling.py:758-779`). -/
def settleEffect (db : Db) (effect : TaskEffectLease) (accepted : Bool) (now : ℤ) :
    Except SchedulingError (Db × Bool) := do
  let row ← effectRow db effect true
  let accepted := accepted && (holdsLease db effect.taskLease now).any (!·.stopped)
  return (db.putEffect effect.effectId
    { row with state := if accepted then .settled else .rejected }, accepted)

/-- `reconcile_effect` (`scheduling.py:781-785`). -/
def reconcileEffect (db : Db) (effect : TaskEffectLease) : Except SchedulingError Db := do
  let row ← effectRow db effect false
  if row.state = .admitted then
    return db.putEffect effect.effectId { row with state := .reconciling }
  else return db

/-- The `for child in children` loop of `yield_to_children`. -/
def enqueueChildren (pathKey : String → String) (lease : TaskLease) (now : ℤ) :
    List ScheduleTask → Db → Except SchedulingError Db
  | [], db => .ok db
  | child :: children, db => do
    require (child.runId = lease.runId ∧ child.parentTaskId = some lease.taskId)
      (.conflict "child lineage differs from yielding parent")
    let db ← enqueue pathKey db child now
    enqueueChildren pathKey lease now children db

/-- `yield_to_children` (`scheduling.py:787-798`). -/
def yieldToChildren (pathKey : String → String) (db : Db) (lease : TaskLease)
    (children : List ScheduleTask) (now : ℤ) : Except SchedulingError Db := do
  let parent ← leasedTask db lease now
  require (children ≠ []) (.conflict "parent yield requires children")
  let db ← enqueueChildren pathKey lease now children db
  return db.putTask lease.taskId
    { parent with state := .blocked, leaseOwner := none, leaseExpiresAt := none }

/-- `reconcile_expired` (`scheduling.py:800-820`). -/
def reconcileExpired (db : Db) (runId taskId : UUID) (retry : Bool) : Except SchedulingError Db := do
  lockRun db runId
  let row ← orRaise (db.taskOf runId taskId) (.conflict "scheduled task not found")
  require (row.state = .reconciling) (.conflict "task is not awaiting reconciliation")
  require ((retry && db.effects.any fun _ e => e.runId == runId && e.taskId == taskId &&
      e.leaseGeneration == row.leaseGeneration && e.unsettled) = false)
    (.conflict "task effect requires reconciliation before retry")
  return releaseTask db taskId row (!retry || row.cancelRequested)

/-- `begin_candidate` (`scheduling.py:822-831`). -/
def beginCandidate (db : Db) (runId : UUID) : Except SchedulingError (Db × ℕ) := do
  lockRun db runId
  let run ← orRaise ((db.schedulerRuns.get runId).filter (·.admitted))
    (.conflict "run is not admitted")
  require (run.candidateState = .opened) (.conflict "candidate barrier already active")
  return (db.putRun runId { run with candidateState := .draining }, run.candidateEpoch)

/-- `close_candidate` (`scheduling.py:833-860`). -/
def closeCandidate (db : Db) (runId : UUID) (epoch : ℕ) : Except SchedulingError Db := do
  lockRun db runId
  let run ← orRaise ((db.schedulerRuns.get runId).filter fun r =>
      r.candidateState == .draining && r.candidateEpoch == epoch)
    (.conflict "candidate epoch differs")
  require ((db.scheduled.any fun _ r => r.runId == runId && r.live) = false)
    (.conflict "candidate barrier still draining effects")
  require ((db.effects.any fun _ e => e.runId == runId && e.unsettled) = false)
    (.conflict "candidate barrier still draining effects")
  return db.putRun runId
    { run with candidateState := .closed, candidateEpoch := run.candidateEpoch + 1 }

/-- `request_stop` (`scheduling.py:862-874`). -/
def requestStop (db : Db) (runId taskId : UUID) (cancel : Bool) : Except SchedulingError Db := do
  lockRun db runId
  let row ← orRaise (db.taskOf runId taskId) (.conflict "scheduled task not found")
  let row := if cancel then { row with cancelRequested := true }
    else { row with pauseRequested := true }
  if row.state = .queued ∨ row.state = .blocked then return releaseTask db taskId row true
  else return db.putTask taskId row

end ParallelForge.Scheduling
