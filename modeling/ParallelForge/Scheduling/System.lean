import ParallelForge.Base.Run
import ParallelForge.Scheduling.Claim
import ParallelForge.Scheduling.Decisions

/-!
# The scheduler as a system

One action is one committed transaction, or a change that another service
makes to the rows the scheduler reads. An action that raises changes nothing.
-/

namespace ParallelForge.Scheduling
open Base Run

inductive Action
  | environment (env : Surroundings)
  | attempt (id : UUID) (a : LatestAttempt)
  | logicalState (id : UUID) (state : LogicalState)
  | taskControl (id : UUID) (cancel : Bool)
  | bindOperation (effectId : UUID) (b : OperationBinding)
  | createTask (c : LogicalTaskContract)
  | enqueue (task : ScheduleTask) (now : ℤ)
  | admitRun (runId : UUID)
  | claim (cx : ClaimContext)
  | admitAttempt (lease : TaskLease) (current : Bool) (now : ℤ)
  | retireAttempt (lease : TaskLease) (disposition : Disposition)
  | markExpired (lease : TaskLease) (now : ℤ)
  | renew (lease : TaskLease) (leaseFor now : ℤ)
  | finish (lease : TaskLease) (successful allowRepair : Bool) (now : ℤ)
  | deferQuota (lease : TaskLease) (now : ℤ)
  | admitEffect (lease : TaskLease) (request : EffectRequest) (now : ℤ)
  | settleEffect (effect : TaskEffectLease) (accepted : Bool) (now : ℤ)
  | reconcileEffect (effect : TaskEffectLease)
  | yieldToChildren (lease : TaskLease) (children : List ScheduleTask) (now : ℤ)
  | reconcileExpired (runId taskId : UUID) (retry : Bool)
  | beginCandidate (runId : UUID)
  | closeCandidate (runId : UUID) (epoch : ℕ)
  | requestStop (runId taskId : UUID) (cancel : Bool)
  | resumeTask (id : UUID) (restored : TaskState)
  | delegate (cx : DecisionContext) (runId id : UUID) (children : List LogicalTaskContract)
      (reopening : Bool)
  | wait (cx : DecisionContext) (runId id : UUID) (ids : List UUID)
  | scopeRequest (cx : DecisionContext) (runId id : UUID) (paths : List String)
  | scopeResponse (cx : DecisionContext) (runId id childId : UUID) (granted denied : List String)
  | reassign (cx : DecisionContext) (runId id childId : UUID) (route : RouteSpec)
  | forwardFeedback (cx : DecisionContext) (fx : ForwardContext) (runId id targetId receiptId : UUID)
  | requeueUndelivered (runId taskId : UUID) (delivering remaining capacityPending : Bool)
  | reopenForRepair (runId id : UUID) (affordable : Bool)
  | rejectCandidateMismatch (runId id : UUID) (affordable : Bool)

/-- The binding table is append-only. -/
def bindOperation (db : Db) (effectId : UUID) (b : OperationBinding) : Db :=
  match db.bindings.get effectId with
  | none => { db with bindings := db.bindings.put effectId b }
  | some _ => db

/-- A stop recorded for the whole run. -/
def runStopped (env : Surroundings) (runId : UUID) : Bool :=
  (env.runs runId).any fun r => r.state == .paused || r.state == .cancelled

/-- Other services rewrite their rows. A paused run is resumed only when none of
its tasks is leased: every resume handler proves quiescence first (`runs.py:210-320`). -/
def changeSurroundings (db : Db) (env : Surroundings) : Except SchedulingError Db := do
  require ((db.scheduled.any fun _ r =>
      r.state == .leased && runStopped db.env r.runId && !runStopped env r.runId) = false)
    (.conflict "paused run has unsettled durable work")
  return { db with env := env }

/-- Both flags of the row as a control of a running task leaves them. -/
def stopRow (row : ScheduledTask) (cancel : Bool) : ScheduledTask :=
  { row with pauseRequested := !cancel, cancelRequested := cancel }

def stopLogical (task : LogicalTask) (cancel : Bool) : LogicalTask :=
  { task with pauseRequested := !cancel, cancelRequested := cancel, version := task.version + 1 }

/-- An operator's pause or cancel of a task (`subscription_task_controls.py:176-190,
251-263, 280-377`). An idle task is blocked or ended at once; one whose attempt runs
keeps its lease, with the stop recorded on both rows. -/
def taskControl (db : Db) (id : UUID) (cancel : Bool) : Db :=
  match db.scheduled.get id, db.logical.get id with
  | some row, some task =>
    let paused := row.pauseRequested || task.pauseRequested
    if row.state = .queued ∨ row.state = .blocked then
      if cancel then
        releaseTask (db.putLogical id
            { task.moveTo .terminal with cancelRequested := true }) id
          { row with cancelRequested := true } true
      else if paused then db
      else (db.putTask id { row with state := .blocked, pauseRequested := true }).putLogical id
        { task.moveTo .blocked with pauseRequested := true }
    else if row.live && !row.cancelRequested && !task.cancelRequested && (cancel || !paused) then
      (db.putTask id (stopRow row cancel)).putLogical id (stopLogical task cancel)
    else db
  | _, _ => db

def resumedRow (row : ScheduledTask) (restored : TaskState) : ScheduledTask :=
  { row with
    state := restored
    pauseRequested := false
    leaseOwner := if restored = .queued then none else row.leaseOwner
    leaseExpiresAt := if restored = .queued then none else row.leaseExpiresAt }

/-- An operator's resume of a paused task (`subscription_task_controls.py:153-175,
231-250, 866-881`): a stopped attempt returns to the queue, an idle task to the
state it was paused in, and a retained decision stays in reconciliation. -/
def resumeTask (db : Db) (id : UUID) (restored : TaskState) : Db :=
  match db.scheduled.get id, db.logical.get id with
  | some row, some task =>
    if row.pauseRequested = true ∧ (row.state = .blocked ∨ row.state = .reconciling) ∧
        (restored = .queued ∨ restored = row.state) then
      (db.putTask id (resumedRow row restored)).putLogical id { task with
          state := if restored = .queued then .queued else task.state
          pauseRequested := false
          version := task.version + 1 }
    else db
  | _, _ => db

section step
variable (pathKey : String → String)

def Action.transaction (db : Db) : Action → Except SchedulingError Db
  | .environment env => changeSurroundings db env
  | .attempt id a => .ok (db.putAttempt id a)
  | .logicalState id state => .ok { db with logical := db.logical.modify id (·.moveTo state) }
  | .taskControl id cancel => .ok (Scheduling.taskControl db id cancel)
  | .bindOperation effectId b => .ok (Scheduling.bindOperation db effectId b)
  | .createTask c => Scheduling.createTask pathKey db c
  | .enqueue task now => Scheduling.enqueue pathKey db task now
  | .admitRun runId => .ok (Scheduling.admitRun db runId)
  | .claim cx => (claimReady pathKey db cx).map Prod.fst
  | .admitAttempt lease current now => Scheduling.admitAttempt pathKey db lease current now
  | .retireAttempt lease disposition => .ok (Scheduling.retireAttempt db lease disposition)
  | .markExpired lease now => .ok (Scheduling.markExpired db lease now)
  | .renew lease leaseFor now => (Scheduling.renew db lease leaseFor now).map Prod.fst
  | .finish lease successful allowRepair now =>
    Scheduling.finish db lease successful allowRepair now
  | .deferQuota lease now => Scheduling.deferQuota db lease now
  | .admitEffect lease request now =>
    (Scheduling.admitEffect pathKey db lease request now).map Prod.fst
  | .settleEffect effect accepted now =>
    (Scheduling.settleEffect db effect accepted now).map Prod.fst
  | .reconcileEffect effect => Scheduling.reconcileEffect db effect
  | .yieldToChildren lease children now => Scheduling.yieldToChildren pathKey db lease children now
  | .reconcileExpired runId taskId retry => Scheduling.reconcileExpired db runId taskId retry
  | .beginCandidate runId => (Scheduling.beginCandidate db runId).map Prod.fst
  | .closeCandidate runId epoch => Scheduling.closeCandidate db runId epoch
  | .requestStop runId taskId cancel => Scheduling.requestStop db runId taskId cancel
  | .resumeTask id restored => .ok (Scheduling.resumeTask db id restored)
  | .delegate cx runId id children reopening =>
    applyDelegate pathKey db cx runId id children reopening
  | .wait cx runId id ids => applyWait pathKey db cx runId id ids
  | .scopeRequest cx runId id paths => applyScopeRequest pathKey db cx runId id paths
  | .scopeResponse cx runId id childId granted denied =>
    applyScopeResponse pathKey db cx runId id childId granted denied
  | .reassign cx runId id childId route => applyReassign pathKey db cx runId id childId route
  | .forwardFeedback cx fx runId id targetId receiptId =>
    applyForwardFeedback pathKey db cx fx runId id targetId receiptId
  | .requeueUndelivered runId taskId delivering remaining capacityPending =>
    .ok (Scheduling.requeueUndelivered db runId taskId delivering remaining capacityPending)
  | .reopenForRepair runId id affordable => Scheduling.reopenForRepair db runId id affordable
  | .rejectCandidateMismatch runId id affordable =>
    Scheduling.rejectCandidateMismatch db runId id affordable

def step (db : Db) (a : Action) : Db :=
  match a.transaction pathKey db with
  | .ok db' => db'
  | .error _ => db

/-- The tables after a run of actions from an empty scheduler. -/
def reach (env : Surroundings) (actions : List Action) : Db :=
  run (step pathKey) (Db.init env) actions

end step

/-! A run of one primary and its workers, for the concrete cases in later modules. -/

def sampleRoute (primary : Bool) : RouteBinding :=
  let spec : RouteSpec := ⟨"provider", "client", "model", .medium, .subscription, .allowanceOnly⟩
  ⟨spec, spec, none, primary⟩

def sampleContract (id : UUID) (parent : Option UUID) (dependencies : List UUID)
    (paths : List String) : LogicalTaskContract where
  runId := 9
  taskId := id
  purpose := if parent.isNone then .primary else .routineImplementation
  route := sampleRoute parent.isNone
  parentTaskId := parent
  dependencyTaskIds := dependencies
  ownedPaths := paths
  acceptanceIds := []
  maxRepairs := 1

def sampleEnvelope : ExecutionEnvelope where
  runId := 9
  profileLabel := "profile"
  profileVersion := 1
  routes := []
  allowedFallbacks := []

/-- Run 9 in progress. -/
def sampleEnv : Surroundings where
  runs := fun k => if k = 9 then some ⟨.implementing, none⟩ else none
  envelopes := fun k => if k = 9 then some sampleEnvelope else none
  checkpointed := fun _ => false
  fenced := fun _ => false
  policies := []
  feedback := []

def sampleClaim (owner : String) (now : ℤ) : ClaimContext where
  now := now
  owner := owner
  leaseFor := 60000000
  freshAttempt := false
  preparedRunIds := none
  lockedRuns := []
  lockedTasks := []
  unsettledAttempt := fun _ => false
  available := fun _ => true
  eligible := fun _ => true
  budgetAdmits := fun _ => true
  pausedTaskIsStopped := fun _ => false

/-- Create a task and enqueue it in the worktree of the run. -/
def sampleTask (c : LogicalTaskContract) (now : ℤ) : List Action :=
  [.createTask c, .enqueue (scheduleOf id c "worktree") now]

end ParallelForge.Scheduling
