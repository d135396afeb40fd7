import ParallelForge.Scheduling.Operations

/-!
# Applied decisions (`repositories/subscription_decisions.py`, `_apply`)

How an applied decision moves the rows of the deciding task and of the task it
is about. `DecisionContext` holds the answers of other repositories: whether
the source is current (digests, versions, policy, pending controls), whether
the frozen envelope and the budgets authorize the decision, whether a repair
could be debited, and whether feedback for the deciding task is pending.
-/

namespace ParallelForge.Scheduling
open Base Run

structure DecisionContext where
  now : ℤ
  current : Bool
  authorized : Bool
  repairDebited : Bool
  pendingFeedback : Bool

structure DecisionSource where
  task : LogicalTask
  contract : LogicalTaskContract
  scheduled : ScheduledTask
  scheduler : SchedulerRun
  attempt : LatestAttempt

section apply
variable (pathKey : String → String)

/-- `SUBSCRIPTION_WORK_STATES` without a pending gate. -/
def isWorking (run : RunRow) : Bool :=
  (run.state == .implementing || run.state == .remediating) && run.pendingGate.isNone

/-- The candidate state a decision may be applied in: open, or, for a delegation
that reopens it, closed under a coordinator. -/
def decisionBarrier (db : Db) (id : UUID) (row : ScheduledTask) (scheduler : SchedulerRun)
    (reopening : Bool) : Bool :=
  (scheduler.candidateState == .opened && !reopening) ||
    (scheduler.candidateState == .closed && reopening && isCoordinator pathKey db id row)

/-- A worker's decision comes from a child, every other one from the primary
(`subscription_decisions.py:1271-1280`). -/
def decidesAs (worker : Bool) (c : LogicalTaskContract) : Bool :=
  if worker then c.purpose != .primary && c.parentTaskId.isSome
  else c.purpose == .primary && c.parentTaskId.isNone

/-- The task whose stopped attempt decided is still where the attempt left it
(`subscription_decisions.py:1771-1878`). -/
def decisionSource (db : Db) (cx : DecisionContext) (runId id : UUID) (worker reopening : Bool) :
    Except SchedulingError DecisionSource := do
  require (db.env.checkpointed runId = false)
    (.subscriptionDecision "decision application is fenced by usage checkpoint")
  let stale := SchedulingError.subscriptionDecision "delegation source is no longer current"
  let _ ← orRaise ((db.env.runs runId).filter isWorking) stale
  let task ← orRaise ((db.logical.get id).filter fun t =>
    t.runId == runId && t.state == .reconciling && !t.pauseRequested && !t.cancelRequested) stale
  let contract ← orRaise (task.contract.filter fun c => decidesAs worker c && c.runId == runId &&
    c.taskId == id && c.parentTaskId == task.parentTaskId) stale
  let scheduled ← orRaise ((db.taskOf runId id).filter fun r =>
    r.state == .reconciling && !r.stopped) stale
  let scheduler ← orRaise ((db.schedulerRuns.get runId).filter fun s =>
    s.admitted && decisionBarrier pathKey db id scheduled s reopening) stale
  let attempt ← orRaise ((db.attempts.get id).filter fun a =>
    !a.terminal && scheduler.candidateEpoch == a.candidateEpoch &&
      scheduled.leaseOwner == some a.leaseOwner &&
      scheduled.leaseGeneration == a.leaseGeneration &&
      a.result.any fun r => !r.accepted && r.disposition == .decisionPending) stale
  require (cx.current = true ∧ db.hasUnsettledEffect runId id = false) stale
  return ⟨task, contract, scheduled, scheduler, attempt⟩

/-- `admit` of a provider attempt under a lease (`subscription_execution.py:240-352`). -/
def admitAttempt (db : Db) (lease : TaskLease) (current : Bool) (now : ℤ) :
    Except SchedulingError Db := do
  let row ← leasedTask db lease now
  let run ← orRaise ((db.schedulerRuns.get lease.runId).filter fun r => r.admitted &&
      (r.candidateState == .opened ||
        (r.candidateState == .closed && canReadCandidate pathKey db lease.taskId row)))
    (.subscriptionConflict "candidate barrier denies invocation")
  let task ← orRaise ((db.logical.get lease.taskId).filter fun t => t.runId == lease.runId &&
      !t.pauseRequested && !t.cancelRequested && !row.stopped)
    (.subscriptionConflict "execution admission lease is revoked")
  require (db.hasUnsettledEffect lease.runId lease.taskId = false)
    (.subscriptionConflict "execution admission has unresolved effects")
  require ((db.attempts.get lease.taskId).all (·.terminal) = true)
    (.subscriptionConflict "previous attempt requires reconciliation")
  require (task.state = .queued ∧ current = true)
    (.subscriptionConflict "execution task is not queued")
  let db := db.putLogical lease.taskId (task.moveTo .running)
  return db.putAttempt lease.taskId
    ⟨false, lease.owner, lease.generation, run.candidateEpoch, none⟩

/-- A settled attempt leaves its task to be reconciled: with a pending decision
(`subscription_execution.py:711-725`), or fenced or stale (`636-645`). -/
def retireAttempt (db : Db) (lease : TaskLease) (disposition : Disposition) : Db :=
  match db.taskOf lease.runId lease.taskId, db.logical.get lease.taskId,
    db.attempts.get lease.taskId with
  | some row, some task, some attempt =>
    if row.live = true ∧ row.leaseOwner = some lease.owner ∧
        row.leaseGeneration = lease.generation then
      ((db.putTask lease.taskId { row with state := .reconciling }).putLogical lease.taskId
        (task.moveTo .reconciling)).putAttempt lease.taskId
        { attempt with result := some ⟨false, disposition, none⟩ }
    else db
  | _, _, _ => db

def settleAttempt (db : Db) (id : UUID) (a : LatestAttempt) (r : AttemptResult) : Db :=
  db.putAttempt id { a with terminal := true, result := some r }

/-- The rows of a task that leaves its lease, queued or blocked. -/
def parkedTask (row : ScheduledTask) (queued : Bool) : ScheduledTask :=
  { row with
    state := if queued then .queued else .blocked
    leaseOwner := none
    leaseExpiresAt := none }

def parkedLogical (t : LogicalTask) (queued : Bool) : LogicalTask :=
  t.moveTo (if queued then .queued else .blocked)

/-- `_finish` (`subscription_decisions.py:2561-2640`): the deciding task leaves its
lease with the decision as its accepted result. -/
def finishDecision (db : Db) (cx : DecisionContext) (id : UUID) (src : DecisionSource)
    (queued : Bool) (disposition : Disposition) (decision : Decision) : Db :=
  let parked := (db.putTask id (parkedTask src.scheduled (queued || cx.pendingFeedback))).putLogical id
    (parkedLogical src.task (queued || cx.pendingFeedback))
  settleAttempt parked id src.attempt ⟨true, disposition, some decision⟩

/-- The rows of a task whose decision was refused. -/
def refusedTask (row : ScheduledTask) (repair : Bool) : ScheduledTask :=
  { row with repairs := row.repairs + if repair then 1 else 0 }

def refusedLogical (t : LogicalTask) (repair : Bool) : LogicalTask :=
  t.moveTo (if repair then .queued else .terminal)

/-- `_reject` (`subscription_decisions.py:2495-2559`): a repair if the budget allows
one, else the task is over. -/
def rejectDecision (db : Db) (cx : DecisionContext) (runId id : UUID) (src : DecisionSource) :
    Except SchedulingError Db :=
  let repair := decide (src.scheduled.repairs < src.scheduled.maxRepairs) && cx.repairDebited
  let refused := (db.putTask id (refusedTask src.scheduled repair)).putLogical id
    (refusedLogical src.task repair)
  reconcileExpired (settleAttempt refused id src.attempt ⟨false, .other, none⟩) runId id repair

/-- `_scope_request_pending` (`scheduling.py:1196-1241`). -/
def scopeRequestPending (db : Db) (id : UUID) (child : ScheduledTask) : Option (List String) :=
  if child.state ≠ .blocked then none
  else (db.attempts.get id).bind fun a =>
    if !a.terminal then none
    else a.result.bind fun r =>
      match r.accepted, r.disposition, r.decision with
      | true, .scopeRequested, some (.scopeRequest runId taskId paths) =>
        if runId = child.runId ∧ taskId = id then some paths else none
      | _, _, _ => none

/-- `has_scope_request` (`scheduling.py:1174-1186`). -/
def hasScopeRequest (db : Db) (runId : UUID) (p : UUID → Bool) : Bool :=
  db.scheduled.any fun k r => r.runId == runId && p k && (scopeRequestPending db k r).isSome

/-- `wake_parent_for_scope_request` (`scheduling.py:1243-1248`). -/
def wakeParentForScopeRequest (db : Db) (runId id : UUID) : Except SchedulingError Db := do
  lockRun db runId
  let child ← orRaise ((db.taskOf runId id).filter fun r => (scopeRequestPending db id r).isSome)
    (.conflict "scope request wake source differs")
  return wakeReadyParents db id child true

/-- The scheduled rows a wait names, with their logical rows under the same parent. -/
def waitingChildren (db : Db) (runId id : UUID) (worktreeId : String) (ids : List UUID) :
    List (UUID × ScheduledTask) :=
  (childrenOf db runId id ids.contains).filter fun c =>
    c.2.worktreeId == worktreeId &&
      (db.logical.get c.1).any fun t => t.runId == runId && t.parentTaskId == some id

/-- A `WaitDecision` (`subscription_decisions.py:2264-2296`). -/
def applyWait (db : Db) (cx : DecisionContext) (runId id : UUID) (ids : List UUID) :
    Except SchedulingError Db := do
  require (ids ≠ []) (.valueError "waiting_on_task_ids must not be empty")
  require ids.Nodup (.valueError "waiting_on_task_ids must not contain duplicates")
  let src ← decisionSource pathKey db cx runId id false false
  let rows := waitingChildren db runId id src.scheduled.worktreeId ids
  if 64 < ids.length ∨ rows.length ≠ ids.length then rejectDecision db cx runId id src
  else
    let ready := (rows.all fun c => c.2.state == .terminal) || hasScopeRequest db runId ids.contains
    return finishDecision db cx id src ready .waiting (.wait runId id ids)

/-- A `ScopeRequestDecision` (`subscription_decisions.py:2135-2144`). -/
def applyScopeRequest (db : Db) (cx : DecisionContext) (runId id : UUID) (paths : List String) :
    Except SchedulingError Db := do
  let src ← decisionSource pathKey db cx runId id true false
  require (src.scheduled.parentTaskId = src.contract.parentTaskId ∧
      src.scheduled.ownedPaths = src.contract.ownedPaths.map pathKey ∧
      src.scheduled.readOnly = isReadOnly src.contract.purpose)
    (.subscriptionDecision "delegation source is no longer current")
  if isReadOnly src.contract.purpose = true ∨ 64 < paths.length then
    rejectDecision db cx runId id src
  else
    wakeParentForScopeRequest
      (finishDecision db cx id src false .scopeRequested (.scopeRequest runId id paths)) runId id

/-- A Python dict, as the list of its items in insertion order. -/
def dictSet (items : List (String × String)) (key value : String) : List (String × String) :=
  if items.any fun i => i.1 == key then
    items.map fun i => if i.1 == key then (key, value) else i
  else items ++ [(key, value)]

def dictSetDefault (items : List (String × String)) (key value : String) :
    List (String × String) :=
  if items.any fun i => i.1 == key then items else items ++ [(key, value)]

/-- The widened paths of `_scope_response_proof` (`subscription_decisions.py:2433-2435`). -/
def grantPaths (owned granted : List String) : List String :=
  let base := owned.foldl (fun items p => dictSet items (pathKey p) p) []
  (granted.foldl (fun items p => dictSetDefault items (pathKey p) p) base).map Prod.snd

/-- Each path is one of the allowed ones or below it, by path key. -/
def within (allowed paths : List String) : Bool :=
  paths.all fun p => allowed.any fun q =>
    pathKey p == pathKey q || isBelow (pathKey p) (pathKey q)

/-- The response answers exactly the requested paths, and what it grants the
parent may give. -/
def scopeResponseProof (parent child : LogicalTaskContract)
    (requested granted denied : List String) : Bool :=
  let keys := fun l : List String => l.map pathKey
  child.parentTaskId == some parent.taskId && !isReadOnly child.purpose &&
    (keys granted).all (fun k => !(keys denied).contains k) &&
    (keys requested).all (fun k => (keys granted ++ keys denied).contains k) &&
    (keys granted ++ keys denied).all (fun k => (keys requested).contains k) &&
    within pathKey parent.ownedPaths (grantPaths pathKey child.ownedPaths granted)

/-- The writes of a granted scope response on the child. -/
def widenChild (db : Db) (childId : UUID) (child : LogicalTask) (row : ScheduledTask)
    (updated : LogicalTaskContract) : Db :=
  (db.putLogical childId { child.moveTo .queued with contract := some updated }).putTask childId { row with
      state := .queued
      ownedPaths := updated.ownedPaths.map pathKey }

/-- The child a scope response or a reassignment is about: its rows and contract. -/
structure DecidedChild where
  task : LogicalTask
  contract : LogicalTaskContract
  row : ScheduledTask
  attempt : LatestAttempt

def decidedChild (db : Db) (runId childId : UUID) : Option DecidedChild := do
  let task ← db.logical.get childId
  let contract ← task.contract
  let row ← db.taskOf runId childId
  let attempt ← db.attempts.get childId
  return ⟨task, contract, row, attempt⟩

/-- The child is stopped, unleased, in the parent's worktree and of the current
candidate, and its row still carries its contract's authority. -/
def childCurrent (runId id : UUID) (src : DecisionSource) (c : DecidedChild) : Bool :=
  c.task.runId == runId && c.task.parentTaskId == some id && c.row.parentTaskId == some id &&
    !c.task.pauseRequested && !c.task.cancelRequested && !c.row.stopped &&
    c.row.leaseOwner.isNone && c.row.leaseExpiresAt.isNone &&
    c.row.worktreeId == src.scheduled.worktreeId &&
    c.row.leaseGeneration == c.attempt.leaseGeneration &&
    c.attempt.candidateEpoch == src.scheduler.candidateEpoch &&
    c.row.ownedPaths == c.contract.ownedPaths.map pathKey

/-- A `BoundScopeResponseDecision` (`subscription_decisions.py:2060-2134`). A response
to anything but the child's pending request is refused. -/
def applyScopeResponse (db : Db) (cx : DecisionContext) (runId id childId : UUID)
    (granted denied : List String) : Except SchedulingError Db := do
  let src ← decisionSource pathKey db cx runId id false false
  if cx.authorized = false then rejectDecision db cx runId id src
  else do
    let stale := SchedulingError.subscriptionDecision "scope request is no longer current"
    let child ← orRaise (decidedChild db runId childId) stale
    let requested ← orRaise (scopeRequestPending db childId child.row) stale
    if scopeResponseProof pathKey src.contract child.contract requested granted denied = false then
      rejectDecision db cx runId id src
    else do
      require (childCurrent pathKey runId id src child = true ∧ child.task.state = .blocked ∧
        child.row.readOnly = false ∧ db.hasUnsettledEffect runId childId = false) stale
      let updated := { child.contract with
        ownedPaths := grantPaths pathKey child.contract.ownedPaths granted }
      return finishDecision (widenChild pathKey db childId child.task child.row updated) cx id src
        true .scopeResponded (.scopeResponse runId childId)

/-- The new binding of `reassignment_proof` (`subscription_reassignment.py:80-103`). -/
def reassignedRoute (c : LogicalTaskContract) (e : ExecutionEnvelope) (route : RouteSpec) :
    Option RouteBinding :=
  (e.routeFor c.purpose).bind fun preferred =>
    if route = c.route.effective ∨ ¬ (preferred.effective :: e.fallbacksFor c.purpose).contains route ∨
        route.authMode ≠ preferred.effective.authMode ∨
        route.billingMode ≠ preferred.effective.billingMode then none
    else if route = preferred.effective then some preferred
    else some { preferred with
      effective := route
      mappingApplied := some
        { requested := preferred.requested
          effective := route
          approvedBy := "profile:" ++ e.profileLabel
          approvalId := "profile:" ++ e.profileLabel ++ ":version:" ++ toString e.profileVersion
          reason := "Primary reassignment through frozen specialist fallback" } }

/-- The state both rows of a reassigned child must be in, by its last result. -/
def reassignableState : Disposition → Option (TaskState × LogicalState)
  | .failed => some (.terminal, .terminal)
  | .handoff => some (.terminal, .terminal)
  | .scopeRequested => some (.blocked, .blocked)
  | .quotaDeferred => some (.queued, .queued)
  | _ => none

def requeueChild (db : Db) (childId : UUID) (child : LogicalTask) (row : ScheduledTask)
    (updated : LogicalTaskContract) : Db :=
  (db.putLogical childId { child.moveTo .queued with contract := some updated }).putTask childId { row with
      state := .queued
      provider := updated.route.effective.provider }

/-- The child has an accepted stopped result it may be reassigned from. -/
def reassignable (child : DecidedChild) : Option (TaskState × LogicalState) :=
  (child.attempt.result.filter (·.accepted)).bind fun r => reassignableState r.disposition

/-- A `BoundReassignDecision` (`subscription_decisions.py:2014-2033`,
`subscription_reassignment.py:33-201`). -/
def applyReassign (db : Db) (cx : DecisionContext) (runId id childId : UUID) (route : RouteSpec) :
    Except SchedulingError Db := do
  let src ← decisionSource pathKey db cx runId id false false
  if cx.authorized = false then rejectDecision db cx runId id src
  else do
    let stale := SchedulingError.subscriptionDecision
      "reassignment target is no longer current or stopped"
    let child ← orRaise (decidedChild db runId childId) stale
    match reassignable child, (db.env.envelopes runId).bind fun e =>
        reassignedRoute child.contract e route with
    | some expected, some binding => do
      require (childCurrent pathKey runId id src child = true ∧
        child.contract.parentTaskId = some id ∧ child.contract.purpose ≠ .primary ∧
        child.row.state = expected.1 ∧ child.task.state = expected.2 ∧
        child.attempt.terminal = true ∧
        child.row.dependencyTaskIds = child.contract.dependencyTaskIds ∧
        child.row.readOnly = isReadOnly child.contract.purpose ∧
        child.row.maxRepairs = child.contract.maxRepairs ∧
        (db.effects.any fun _ e => e.taskId == childId && e.unsettled) = false) stale
      let updated := { child.contract with route := binding }
      return finishDecision (requeueChild db childId child.task child.row updated) cx id src false
        .reassigned (.reassign runId childId)
    | _, _ => rejectDecision db cx runId id src

/-- What the other repositories answer about a forwarding: the target was
accepted, its budget has room, the run has a reservation to settle, the
primary's budget has room. -/
structure ForwardContext where
  accepted : Bool
  remainingBudget : Bool
  unsettledReservation : Bool
  primaryBudget : Bool

/-- `closed_reason` is set (`subscription_feedback.py:751-762`). -/
def forwardCloses (fx : ForwardContext) (target : LogicalTask) (row : ScheduledTask) : Bool :=
  let cancelled := target.cancelRequested || row.cancelRequested
  let active := target.state == .running || row.live
  fx.accepted || cancelled || (!active && !fx.remainingBudget && !fx.unsettledReservation)

/-- Both rows of the target are terminal and not paused. -/
def forwardSettled (target : LogicalTask) (row : ScheduledTask) : Bool :=
  target.state == .terminal && row.state == .terminal && !target.pauseRequested &&
    !row.pauseRequested

def requeueTarget (db : Db) (targetId : UUID) (target : LogicalTask) (row : ScheduledTask) : Db :=
  (db.putLogical targetId (target.moveTo .queued)).putTask
    targetId { row with state := .queued }

def setFeedback (env : Surroundings) (receiptId : UUID) (state : FeedbackState) : Surroundings :=
  { env with feedback := env.feedback.map fun f => if f.id = receiptId then { f with state } else f }

/-- A `ForwardFeedbackDecision` (`subscription_decisions.py:2034-2059`,
`subscription_feedback.py:663-816`). -/
def applyForwardFeedback (db : Db) (cx : DecisionContext) (fx : ForwardContext)
    (runId id targetId receiptId : UUID) : Except SchedulingError Db := do
  let src ← decisionSource pathKey db cx runId id false false
  let differs := SchedulingError.subscriptionDecision "feedback forwarding source differs"
  let _ ← orRaise (db.env.feedback.find? fun f => f.id == receiptId && f.state == .pendingPrimary &&
    f.runId == runId && f.primaryTaskId == id && f.taskId == targetId) differs
  let target ← orRaise ((db.logical.get targetId).filter fun t =>
    t.runId == runId && t.parentTaskId == some id) differs
  let row ← orRaise ((db.taskOf runId targetId).filter fun r => r.parentTaskId == some id) differs
  let closes := forwardCloses fx target row
  let db := { db with env := setFeedback db.env receiptId (if closes then .closed else .forwarded) }
  let db := if !closes && forwardSettled target row then requeueTarget db targetId target row else db
  let scopePending := hasScopeRequest db runId fun k =>
    (db.logical.get k).any fun t => t.runId == runId && t.parentTaskId == some id
  return finishDecision db cx id src ((closes && fx.primaryBudget) || scopePending)
    .feedbackForwarded (.forwardFeedback runId targetId)

/-- Undelivered feedback of a task that has nothing left to spend. -/
def closeFeedback (env : Surroundings) (runId taskId : UUID) : Surroundings :=
  { env with feedback := env.feedback.map fun f =>
      if f.runId = runId ∧ f.taskId = taskId ∧ f.state = .forwarded then { f with state := .closed }
      else f }

/-- `requeue_undelivered` (`subscription_feedback.py:1346-1418`): feedback forwarded to
a child that ended without receiving it. `delivering` says that an attempt which
carries it has not ended, the other two answer the budgets. -/
def requeueUndelivered (db : Db) (runId taskId : UUID) (delivering remaining capacityPending : Bool) :
    Db :=
  match db.logical.get taskId, db.taskOf runId taskId with
  | some task, some row =>
    let forwarded := db.env.feedback.any fun f =>
      f.runId == runId && f.taskId == taskId && f.state == .forwarded
    let child := task.contract.any fun c => c.parentTaskId.isSome && c.purpose != .primary
    if forwarded && !delivering && child && task.runId == runId && forwardSettled task row then
      if task.cancelRequested || row.cancelRequested || (!remaining && !capacityPending) then
        { db with env := closeFeedback db.env runId taskId }
      else requeueTarget db taskId task row
    else db
  | _, _ => db

/-- Every task of the run other than `id` is over, with no unsettled effect. -/
def quiescent (db : Db) (runId id : UUID) (row : ScheduledTask) : Bool :=
  !(db.logical.any fun k t => t.runId == runId && k != id && t.state != .terminal) &&
    !(db.effects.any fun _ e => e.runId == runId && e.unsettled) &&
    !(db.scheduled.any fun k r => r.runId == runId && k != id && r.state != .terminal) &&
    !hasExclusiveEffectBarrier pathKey db row

end apply

section create
variable (pathKey : String → String)

/-- The tasks of a run, with their contracts. -/
def contractOf (db : Db) (runId id : UUID) : Option LogicalTaskContract :=
  ((db.logical.get id).filter fun t => t.runId == runId).bind (·.contract)

/-- What `validate_task_dag` asks of one new task (`domain/subscription.py:922-1002`):
a new identity; the only root is a primary; a parent is a primary of the run and
contains the child's paths; dependencies are tasks of the run. A task that
depends only on earlier ones closes no cycle. -/
def validateNewTask (db : Db) (c : LogicalTaskContract) : Bool :=
  (db.logical.get c.taskId).isNone &&
    (match c.parentTaskId with
      | none => c.purpose == .primary && !(db.logical.any fun _ t => t.runId == c.runId)
      | some parentId => (contractOf db c.runId parentId).any fun parent =>
          parent.purpose == .primary && within pathKey parent.ownedPaths c.ownedPaths) &&
    c.dependencyTaskIds.all fun d => (contractOf db c.runId d).isSome

def newLogicalTask (c : LogicalTaskContract) : LogicalTask where
  runId := c.runId
  parentTaskId := c.parentTaskId
  state := .queued
  pauseRequested := false
  cancelRequested := false
  version := 0
  contract := some c

/-- `create_task` (`repositories/subscription.py:815-883`). -/
def createTask (db : Db) (c : LogicalTaskContract) : Except SchedulingError Db := do
  require ((db.env.runs c.runId).isSome = true) (.subscriptionConflict "run not found")
  require (db.env.checkpointed c.runId = false)
    (.subscriptionConflict "run usage checkpoint fences new tasks")
  require (validateNewTask pathKey db c = true) (.subscriptionConflict "foreign task lineage")
  return db.putLogical c.taskId (newLogicalTask c)

def scheduleOf (c : LogicalTaskContract) (worktreeId : String) : ScheduleTask where
  runId := c.runId
  taskId := c.taskId
  worktreeId := worktreeId
  ownedPaths := c.ownedPaths.map pathKey
  parentTaskId := c.parentTaskId
  dependencyTaskIds := c.dependencyTaskIds
  readOnly := isReadOnly c.purpose
  maxRepairs := c.maxRepairs

/-- Create and enqueue one batch of children. -/
def delegateBatch (worktreeId : String) (now : ℤ) :
    List LogicalTaskContract → Db → Except SchedulingError Db
  | [], db => .ok db
  | child :: rest, db => do
    let db ← createTask pathKey db child
    let db ← enqueue pathKey db (scheduleOf pathKey child worktreeId) now
    delegateBatch worktreeId now rest db

/-- The `while pending` loop (`subscription_decisions.py:2357-2376`). A round takes
every child whose dependencies exist, so there are no more rounds than children. -/
def delegateRounds (worktreeId : String) (now : ℤ) :
    ℕ → List UUID → List LogicalTaskContract → Db → Except SchedulingError Db
  | 0, _, pending, db => if pending = [] then .ok db
      else .error (.subscriptionDecision "delegation dependency order is invalid")
  | n + 1, created, pending, db =>
    if pending = [] then .ok db
    else do
      let isReady := fun c : LogicalTaskContract => c.dependencyTaskIds.all created.contains
      let ready := pending.filter isReady
      require (ready ≠ []) (.subscriptionDecision "delegation dependency order is invalid")
      let db ← delegateBatch pathKey worktreeId now ready db
      delegateRounds worktreeId now n (created ++ ready.map (·.taskId))
        (pending.filter fun c => !isReady c) db

/-- `validate_child_authority`, for the fields the scheduler reads. -/
def childAuthority (parent child : LogicalTaskContract) : Bool :=
  parent.purpose == .primary && child.purpose != .primary && child.runId == parent.runId &&
    child.parentTaskId == some parent.taskId && !child.dependencyTaskIds.contains parent.taskId &&
    child.maxRepairs ≤ parent.maxRepairs

def reopenCandidate (run : SchedulerRun) : SchedulerRun :=
  { run with candidateState := .opened, candidateEpoch := run.candidateEpoch + 1 }

/-- A `DelegateDecision` (`subscription_decisions.py:2297-2385`). A delegation that
repairs a closed candidate reopens it first. -/
def applyDelegate (db : Db) (cx : DecisionContext) (runId id : UUID)
    (children : List LogicalTaskContract) (reopening : Bool) : Except SchedulingError Db := do
  require (children ≠ []) (.valueError "child_tasks must not be empty")
  let src ← decisionSource pathKey db cx runId id false reopening
  if cx.authorized = false ∨ 64 < children.length ∨
      children.all (childAuthority src.contract) = false then rejectDecision db cx runId id src
  else do
    require (!reopening || quiescent pathKey db runId id src.scheduled)
      (.subscriptionDecision "candidate must be quiescent before repair delegation")
    let db := if reopening then db.putRun runId (reopenCandidate src.scheduler) else db
    let created := (db.logical.rows.filter fun t => t.2.runId == runId).map Prod.fst
    let db ← delegateRounds pathKey src.scheduled.worktreeId cx.now children.length created children db
    return finishDecision db cx id src false .delegated (.delegate runId id)

end create

/-- The primary of a closed candidate, blocked on its final acceptance. -/
def closedCandidate (db : Db) (runId id : UUID) :
    Except SchedulingError (LogicalTask × ScheduledTask × SchedulerRun) := do
  let differs := SchedulingError.subscriptionDecision "candidate authority differs"
  let task ← orRaise ((db.logical.get id).filter fun t => t.runId == runId && t.state == .blocked)
    differs
  let row ← orRaise ((db.taskOf runId id).filter fun r => r.state == .blocked) differs
  let run ← orRaise ((db.schedulerRuns.get runId).filter fun r => r.candidateState == .closed) differs
  return (task, row, run)

/-- Both rows of the primary move on, and the candidate opens at a new epoch. -/
def reopenWith (db : Db) (runId id : UUID) (task : LogicalTask) (row : ScheduledTask)
    (run : SchedulerRun) (repair : Bool) : Db :=
  ((db.putTask id
    { row with
      repairs := row.repairs + if repair then 1 else 0
      state := if repair then .queued else .terminal }).putLogical id
    (refusedLogical task repair)).putRun runId (reopenCandidate run)

/-- `_reopen_candidate` (`subscription_validation_repair.py:87-125`): a closed candidate
failed its validation. `affordable` answers the repair budgets. -/
def reopenForRepair (db : Db) (runId id : UUID) (affordable : Bool) : Except SchedulingError Db := do
  let (task, row, run) ← closedCandidate db runId id
  if decide (row.repairs < row.maxRepairs) && affordable then
    return reopenWith db runId id task row run true
  else return db

/-- `reject_candidate_mismatch` (`subscription_decisions.py:835-884`): the closed tree is
not the one selected. The candidate reopens whether or not a repair is left. -/
def rejectCandidateMismatch (db : Db) (runId id : UUID) (affordable : Bool) :
    Except SchedulingError Db := do
  let (task, row, run) ← closedCandidate db runId id
  return reopenWith db runId id task row run (decide (row.repairs < row.maxRepairs) && affordable)

end ParallelForge.Scheduling
