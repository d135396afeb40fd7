import ParallelForge.Base.Table
import ParallelForge.Scheduling.Contract
import Mathlib.Logic.Function.Iterate

/-!
# Scheduler rows and queries (`persistence/models/scheduling.py`, `repositories/scheduling.py`)

The tables a scheduler transaction reads, and the queries it makes on them.
Scheduled and logical tasks share their key, the task id. `pathKey` is
`policy_path_key`: the identity, or case folding on Windows.
-/

namespace ParallelForge.Scheduling
open Base Run

inductive TaskState
  | queued
  | leased
  | blocked
  | reconciling
  | terminal
  deriving DecidableEq, Repr

structure ScheduledTask where
  runId : UUID
  parentTaskId : Option UUID
  worktreeId : String
  provider : String
  ownedPaths : List String
  dependencyTaskIds : List UUID
  readOnly : Bool
  maxRepairs : ℕ
  repairs : ℕ
  state : TaskState
  leaseOwner : Option String
  leaseGeneration : ℕ
  leaseExpiresAt : Option ℤ
  pauseRequested : Bool
  cancelRequested : Bool
  createdAt : ℤ
  deriving DecidableEq, Repr

/-- `state.in_(("leased", "reconciling"))`. -/
def ScheduledTask.live (r : ScheduledTask) : Bool := r.state == .leased || r.state == .reconciling

/-- A pause or a cancel is recorded on the row. -/
def ScheduledTask.stopped (r : ScheduledTask) : Bool := r.pauseRequested || r.cancelRequested

inductive LogicalState
  | queued
  | running
  | blocked
  | reconciling
  | terminal
  deriving DecidableEq, Repr

/-- A row of `subscription_tasks`; `contract` is its decoded payload, absent
when the payload does not decode to a task contract. -/
structure LogicalTask where
  runId : UUID
  parentTaskId : Option UUID
  state : LogicalState
  pauseRequested : Bool
  cancelRequested : Bool
  version : ℕ
  contract : Option LogicalTaskContract
  deriving DecidableEq, Repr

/-- A new state at the next version. -/
def LogicalTask.moveTo (t : LogicalTask) (state : LogicalState) : LogicalTask :=
  { t with state := state, version := t.version + 1 }

inductive CandidateState
  | opened
  | draining
  | closed
  deriving DecidableEq, Repr

structure SchedulerRun where
  admitted : Bool
  candidateEpoch : ℕ
  candidateState : CandidateState
  capacityPolicyVersion : ℕ
  effectiveRunLimit : ℕ
  lastClaimedAt : Option ℤ
  deriving DecidableEq, Repr

inductive EffectState
  | admitted
  | reconciling
  | settled
  | rejected
  deriving DecidableEq, Repr

structure ScheduledEffect where
  runId : UUID
  taskId : UUID
  leaseOwner : String
  leaseGeneration : ℕ
  candidateEpoch : ℕ
  wholeWorktreeExclusive : Bool
  state : EffectState
  deriving DecidableEq, Repr

/-- `state.in_(("admitted", "reconciling"))`. -/
def ScheduledEffect.unsettled (e : ScheduledEffect) : Bool :=
  e.state == .admitted || e.state == .reconciling

/-- A row of `subscription_operation_bindings` joined with its attempt. The
table is keyed by the durable operation id, which is derived from the attempt
and the call key and so has one row. -/
structure OperationBinding where
  runId : UUID
  taskRowId : UUID
  leaseOwner : String
  leaseGeneration : ℕ
  toolName : ToolName
  argumentsDigest : String
  deriving DecidableEq, Repr

structure CapacityPolicy where
  version : ℕ
  globalLimit : ℕ
  runLimit : ℕ
  providerLimit : ℕ
  deriving DecidableEq, Repr

inductive FeedbackState
  | pendingPrimary
  | forwarded
  | delivered
  | closed
  deriving DecidableEq, Repr

structure TaskFeedback where
  id : UUID
  runId : UUID
  primaryTaskId : UUID
  taskId : UUID
  state : FeedbackState
  deriving DecidableEq, Repr

/-- What an applied decision leaves for later wake-ups. `wait` and `delegate`
name the task that decided, the others the task decided about. -/
inductive Decision
  | delegate (runId parentTaskId : UUID)
  | wait (runId taskId : UUID) (waitingOn : List UUID)
  | scopeRequest (runId taskId : UUID) (requestedPaths : List String)
  | scopeResponse (runId taskId : UUID)
  | reassign (runId taskId : UUID)
  | forwardFeedback (runId taskId : UUID)
  deriving DecidableEq, Repr

inductive Disposition
  | delegated
  | waiting
  | scopeRequested
  | scopeResponded
  | reassigned
  | feedbackForwarded
  | decisionPending
  | handoff
  | failed
  | quotaDeferred
  | other
  deriving DecidableEq, Repr

/-- A row of `subscription_attempt_results`. `decision` is the recorded decision,
absent when the record is missing or its digests differ. -/
structure AttemptResult where
  accepted : Bool
  disposition : Disposition
  decision : Option Decision
  deriving DecidableEq, Repr

/-- The attempt of a task with the highest number, with its result if it has one. -/
structure LatestAttempt where
  terminal : Bool
  leaseOwner : String
  leaseGeneration : ℕ
  candidateEpoch : ℕ
  result : Option AttemptResult
  deriving DecidableEq, Repr

structure RunRow where
  state : RunState
  pendingGate : Option ApprovalGate
  deriving DecidableEq, Repr

/-- Rows that other services write: runs, frozen envelopes, active usage
checkpoints, worktrees under an unexpired handoff fence, capacity policies,
operator feedback. -/
structure Surroundings where
  runs : UUID → Option RunRow
  envelopes : UUID → Option ExecutionEnvelope
  checkpointed : UUID → Bool
  fenced : String → Bool
  policies : List CapacityPolicy
  feedback : List TaskFeedback

structure Db where
  env : Surroundings
  schedulerRuns : Table UUID SchedulerRun
  logical : Table UUID LogicalTask
  scheduled : Table UUID ScheduledTask
  effects : Table UUID ScheduledEffect
  bindings : Table UUID OperationBinding
  attempts : Table UUID LatestAttempt

def Db.init (env : Surroundings) : Db :=
  ⟨env, .empty, .empty, .empty, .empty, .empty, .empty⟩

namespace Db

def putTask (db : Db) (id : UUID) (r : ScheduledTask) : Db :=
  { db with scheduled := db.scheduled.put id r }

def putLogical (db : Db) (id : UUID) (t : LogicalTask) : Db :=
  { db with logical := db.logical.put id t }

def putEffect (db : Db) (id : UUID) (e : ScheduledEffect) : Db :=
  { db with effects := db.effects.put id e }

def putRun (db : Db) (id : UUID) (r : SchedulerRun) : Db :=
  { db with schedulerRuns := db.schedulerRuns.put id r }

def putAttempt (db : Db) (taskId : UUID) (a : LatestAttempt) : Db :=
  { db with attempts := db.attempts.put taskId a }

/-- The scheduled task of a run, as `run_id == ... and task_id == ...` selects it. -/
def taskOf (db : Db) (runId taskId : UUID) : Option ScheduledTask :=
  (db.scheduled.get taskId).filter fun r => r.runId == runId

/-- An unsettled effect of a task. -/
def hasUnsettledEffect (db : Db) (runId taskId : UUID) : Bool :=
  db.effects.any fun _ e => e.runId == runId && e.taskId == taskId && e.unsettled

end Db

section queries
variable (pathKey : String → String)

/-- `_is_coordinator` (`scheduling.py:942-960`). -/
def isCoordinator (db : Db) (id : UUID) (row : ScheduledTask) : Bool :=
  match db.logical.get id with
  | none => false
  | some logical =>
    logical.parentTaskId.isNone && row.parentTaskId.isNone && !row.readOnly &&
      logical.contract.any fun c =>
        c.purpose == .primary && c.parentTaskId.isNone && c.route.isPrimary &&
          c.runId == logical.runId && logical.runId == row.runId && c.taskId == id &&
          c.ownedPaths.map pathKey == row.ownedPaths

/-- `_can_read_candidate` (`scheduling.py:922-940`). -/
def canReadCandidate (db : Db) (id : UUID) (row : ScheduledTask) : Bool :=
  isCoordinator pathKey db id row ||
    match db.logical.get id with
    | none => false
    | some logical =>
      row.readOnly && logical.contract.any fun c =>
        isReadOnly c.purpose && c.runId == logical.runId && logical.runId == row.runId &&
          c.taskId == id && c.parentTaskId == logical.parentTaskId &&
          logical.parentTaskId == row.parentTaskId && c.ownedPaths.map pathKey == row.ownedPaths

/-- `canonical_digest(\x7b"scope": "snapshot"\x7d)`. -/
def snapshotDigest : String := "55152333ecc074b6b8fa2b832aa4099083ad33a8b3364dab50c8aa820ecccb6b"

/-- `_is_bound_read` (`scheduling.py:962-1003`). -/
def isBoundRead (db : Db) (effectId taskId : UUID) (row : ScheduledTask) (leaseOwner : String)
    (generation : ℕ) (snapshotOnly : Bool) : Bool :=
  (db.bindings.get effectId).any fun b =>
    b.runId == row.runId && b.taskRowId == taskId && b.leaseOwner == leaseOwner &&
      b.leaseGeneration == generation && candidateReadTools.contains b.toolName &&
      (!snapshotOnly || (b.toolName == .gitDiff && b.argumentsDigest == snapshotDigest))

/-- Some path of one list overlaps some path of the other. -/
def anyOverlap (left right : List String) : Bool := left.any fun p => right.any fun q => pathsOverlap p q

/-- `_has_worktree_conflict` (`scheduling.py:1005-1030`). -/
def hasWorktreeConflict (db : Db) (id : UUID) (candidate : ScheduledTask) : Bool :=
  if candidate.readOnly || candidate.ownedPaths.isEmpty || isCoordinator pathKey db id candidate then
    false
  else db.scheduled.any fun k existing =>
    existing.worktreeId == candidate.worktreeId && existing.live && !existing.readOnly &&
      !isCoordinator pathKey db k existing && anyOverlap candidate.ownedPaths existing.ownedPaths

/-- `_has_effect_conflict` (`scheduling.py:1032-1078`). A snapshot read looks at
every unsettled effect of the worktree, other exclusive effects only at those of
their own task. -/
def hasEffectConflict (db : Db) (id : UUID) (candidate : ScheduledTask) (snapshotRead : Bool) :
    Bool :=
  (db.scheduled.any fun k existing =>
    existing.worktreeId == candidate.worktreeId && k != id && existing.live &&
      !existing.readOnly && !isCoordinator pathKey db k existing &&
      (!snapshotRead || existing.state == .reconciling)) ||
  if snapshotRead then
    db.effects.any fun _ e => e.unsettled &&
      match db.taskOf e.runId e.taskId with
      | some owner => owner.worktreeId == candidate.worktreeId
      | none => e.runId == candidate.runId
  else db.hasUnsettledEffect candidate.runId id

/-- `_has_exclusive_effect_barrier` (`scheduling.py:1080-1113`). -/
def hasExclusiveEffectBarrier (db : Db) (candidate : ScheduledTask) : Bool :=
  db.env.fenced candidate.worktreeId ||
    db.effects.any fun k e => e.unsettled &&
      match db.taskOf e.runId e.taskId with
      | none => false
      | some owner => owner.worktreeId == candidate.worktreeId &&
          (e.wholeWorktreeExclusive || (isCoordinator pathKey db e.taskId owner &&
            !isBoundRead db k e.taskId owner e.leaseOwner e.leaseGeneration false))

end queries

/-- The built-in ceilings of a deployment with no policy row. -/
def defaultPolicy : CapacityPolicy := ⟨1, 3, 3, 3⟩

/-- `_current_policy`: the row of the highest version. -/
def currentPolicy (env : Surroundings) : CapacityPolicy :=
  env.policies.foldl (fun best p => if best.version ≤ p.version then p else best)
    (env.policies.headD defaultPolicy)

/-- `_active_count`: live rows, less the proved stopped pauses. -/
def activeCount (db : Db) (pausedTaskIsStopped : UUID → Bool) (p : ScheduledTask → Bool) : ℕ :=
  (db.scheduled.select fun k r => r.live && p r && !pausedTaskIsStopped k).length

/-- One round of the closure in `_feedback_priority_fence`. -/
def protectDependencies (db : Db) (runId : UUID) (protectedTasks : List UUID) : List UUID :=
  protectedTasks ++ (protectedTasks.flatMap fun k =>
    match db.taskOf runId k with
    | none => []
    | some r => r.dependencyTaskIds.filter fun d =>
        !protectedTasks.contains d && (db.taskOf runId d).any fun s => s.state != .terminal).dedup

/-- `_feedback_priority_fence` (`scheduling.py:293-336`). Each round but the last
protects a new row of the run, so as many rounds as there are rows reach the
closure. -/
def feedbackPriorityFence (db : Db) (runId : UUID) : List UUID :=
  let ofRun := db.env.feedback.filter fun f => f.runId == runId
  let pendingPrimary := (ofRun.filter fun f => f.state == .pendingPrimary).map (·.primaryTaskId)
  let protectedTasks := if pendingPrimary.isEmpty
    then (ofRun.filter fun f => f.state == .forwarded).map (·.taskId) else pendingPrimary
  (protectDependencies db runId)^[db.scheduled.rows.length] protectedTasks

end ParallelForge.Scheduling
