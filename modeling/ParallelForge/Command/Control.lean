import ParallelForge.Command.Store
import ParallelForge.Run.Gates

/-!
# Operator commands (`application/services/runs.py`, `application/handlers/run_controls.py`)

An operator command is admitted by `RunCommandService.enqueue` and settled by
its handler. Cancellation is refused at both ends while merge settlement is in
progress, by one look at the run: its state, or the one state it has suspended.
A pause taken inside an intervention shows that look the intervention, and
hides the merge behind it.
-/

namespace ParallelForge.Command
open Base Run RunState

inductive RunCommandType
  | pause
  | resume
  | cancel
  | requestPlanRevision
  | requestCandidateChanges
  | rejectMerge
  | teardownRunResources
  deriving DecidableEq, Repr

def RunCommandType.value : RunCommandType → String
  | pause => "pause"
  | resume => "resume"
  | cancel => "cancel"
  | requestPlanRevision => "request_plan_revision"
  | requestCandidateChanges => "request_candidate_changes"
  | rejectMerge => "reject_merge"
  | teardownRunResources => "teardown_run_resources"

structure RunCommandRequest where
  commandType : RunCommandType
  expectedRunVersion : ℤ
  feedback : Option String
  confirmResourceIdentity : Option String
  deleteBranch : Bool
  confirmBranchName : Option String
  deriving DecidableEq, Repr

/-- The payload objects of `_command_payload` and `_request_payload`. -/
inductive RequestPayload
  | empty
  | feedback (text : Option String)
  | teardown (confirmResourceIdentity : Option String) (deleteBranch : Bool)
      (confirmBranchName : Option String)
  deriving DecidableEq, Repr

/-- `_event_payload` of a control command. -/
structure EventPayload where
  commandId : UUID
  commandType : String
  commandPayload : Payload
  expectedRunVersion : ℤ
  deriving DecidableEq, Repr

structure RunEvent where
  runId : UUID
  runVersion : ℤ
  eventType : String
  payloadDigest : String
  actorClass : String
  actorId : Option UUID
  payloadSchemaVersion : ℤ
  deriving DecidableEq, Repr

/-- Canonical JSON and SHA-256, as the services use them. -/
structure Encoding where
  sha256Hex : String → String
  uuidText : UUID → String
  canonicalPayload : RequestPayload → Payload
  eventDigest : EventPayload → String
  teardownDigest : RunSnapshot → String

def mergeSettlementRefusal : String :=
  "cancellation is unavailable while merge settlement is in progress"

def stalePolicyPreparationResumeRefusal : String :=
  "cannot resume preparation after project policy changed"

/-- `cancellation_rejection_reason` (`runs.py:776-784`). -/
def cancellationRejectionReason (run : RunSnapshot) : Option String :=
  if run.state = merging ∨ ((run.state = paused ∨ run.state = awaitingHumanIntervention) ∧
      run.suspendedState = some merging) then some mergeSettlementRefusal
  else none

/-- `preparation_resume_policy_conflict_reason` (`runs.py:787-802`);
`currentPolicyVersion` is the project's. -/
def preparationResumePolicyConflictReason (currentPolicyVersion : Option ℤ) (run : RunSnapshot) :
    Option String :=
  if run.state = paused ∧ run.suspendedState = some preparingWorktree ∧
      run.policyVersion.isSome = true ∧ currentPolicyVersion ≠ run.policyVersion then
    some stalePolicyPreparationResumeRefusal
  else none

/-- `_validate_state` (`runs.py:762-773`). -/
def stateAllows (state : RunState) : RunCommandType → Bool
  | .pause => !isTerminalState state && state != paused
  | .resume => state == paused
  | .cancel => !isTerminalState state
  | .requestPlanRevision => state == awaitingPlanApproval
  | .requestCandidateChanges => state == awaitingPrApproval
  | .rejectMerge => state == awaitingMergeApproval
  | .teardownRunResources => isTerminalState state || state == awaitingHumanIntervention

inductive ServiceError
  | valueError (message : String)
  | validation (message : String)
  | stalePolicy (message : String)
  | idempotencyConflict (message : String)
  | runNotFound (id : UUID)
  | concurrencyConflict (id : UUID) (expected actual : ℤ)
  | command (error : CommandError)
  deriving DecidableEq, Repr

variable (enc : Encoding) (red : Durability)

/-- `hash_run_command_idempotency_key` (`runs.py:749-759`). -/
def hashRunCommandIdempotencyKey (rawKey : String) (actorId runId : UUID) :
    Except ServiceError String := do
  require (rawKey ≠ "" ∧ rawKey.utf8ByteSize ≤ 255) (.valueError "idempotency key is invalid")
  return "run-command:commands:" ++ enc.uuidText actorId ++ ":" ++ enc.uuidText runId ++ ":" ++
    enc.sha256Hex rawKey

/-- `_request_payload` (`runs.py:847-869`). -/
def requestPayload (request : RunCommandRequest) : RequestPayload :=
  match request.commandType with
  | .requestPlanRevision | .requestCandidateChanges | .rejectMerge => .feedback request.feedback
  | .teardownRunResources => .teardown request.confirmResourceIdentity request.deleteBranch
      (if request.deleteBranch then request.confirmBranchName else none)
  | _ => .empty

def teardownConfirmation (run : RunSnapshot) : String :=
  "teardown:" ++ enc.uuidText run.id ++ ":" ++ enc.teardownDigest run

/-- A recorded worktree, or the identity of a retained database and role. -/
def hasRemovableResources (run : RunSnapshot) : Bool :=
  run.worktreePath.isSome || (run.databaseState != .disabled && run.databaseState != .removed &&
    run.databaseName.isSome && run.databaseRole.isSome)

/-- `_command_payload` (`runs.py:805-824`). -/
def commandPayload (request : RunCommandRequest) (run : RunSnapshot) :
    Except ServiceError RequestPayload :=
  match request.commandType with
  | .requestPlanRevision | .requestCandidateChanges | .rejectMerge =>
    match request.feedback with
    | none => .error (.validation "feedback is required for this command")
    | some text => .ok (.feedback (some text))
  | .teardownRunResources => do
    require (¬ (request.deleteBranch = true ∧
        (run.branchName.isNone = true ∨ request.confirmBranchName ≠ run.branchName)))
      (.validation "branch confirmation does not match the run")
    require (request.confirmResourceIdentity = some (teardownConfirmation enc run))
      (.validation "resource confirmation does not match the run")
    require (request.deleteBranch = true ∨ hasRemovableResources run = true)
      (.validation "run has no recorded resources to remove")
    return requestPayload request
  | _ => .ok .empty

/-- `get_by_idempotency_key`. -/
def getByIdempotencyKey (db : Db) (key : String) : Except ServiceError (Option CommandRow) :=
  match db.commands.rows.find? fun r => r.2.idempotencyKey == key with
  | none => .ok none
  | some r => ((commandFromRecord red r.2).mapError .command).map some

/-- `_validate_command_replay` (`runs.py:827-844`). -/
def validateCommandReplay (existing : CommandRow) (runId actorId : UUID)
    (request : RunCommandRequest) : Except ServiceError Unit :=
  require (existing.runId = runId ∧ existing.actorId = some actorId ∧
      existing.commandType = request.commandType.value ∧
      existing.expectedRunVersion = request.expectedRunVersion ∧
      existing.payload = enc.canonicalPayload (requestPayload request))
    (.idempotencyConflict "command idempotency key was reused for a different request")

/-- What one admission reads: the command table before and after the run lock was
taken, the run, its project's policy version, and the facts a teardown asks for. -/
structure CommandWork where
  dbBeforeLock : Db
  db : Db
  runs : UUID → Option RunSnapshot
  currentPolicyVersion : UUID → Option ℤ
  branchRemoved : UUID → Bool
  quiescent : UUID → Bool
  freshId : UUID
  now : ℤ

/-- The checks on a teardown (`runs.py:707-715`). -/
def admitTeardown (work : CommandWork) (runId : UUID) (request : RunCommandRequest) :
    Except ServiceError Unit :=
  match request.commandType with
  | .teardownRunResources => do
    require (¬ (request.deleteBranch = true ∧ work.branchRemoved runId = true))
      (.validation "branch removal is already recorded")
    require (work.quiescent runId = true)
      (.validation "resource teardown is blocked by unsettled work")
  | _ => .ok ()

/-- A refusal with its reason, if there is one. -/
def refuse {ε : Type} (reason : Option String) (error : String → ε) : Except ε Unit :=
  match reason with
  | some text => .error (error text)
  | none => .ok ()

/-- The refusals that depend on the run, in the order of the source. -/
def admitAgainstRun (work : CommandWork) (request : RunCommandRequest) (run : RunSnapshot) :
    Except ServiceError Unit := do
  require (request.expectedRunVersion = run.version)
    (.concurrencyConflict run.id request.expectedRunVersion run.version)
  refuse (if request.commandType = .cancel then cancellationRejectionReason run else none)
    .validation
  refuse (if request.commandType = .resume then
      preparationResumePolicyConflictReason (work.currentPolicyVersion run.projectId) run
    else none) .stalePolicy
  require (stateAllows run.state request.commandType = true)
    (.validation "command is not valid for the current run state")

/-- `enqueue_in_work` (`runs.py:664-723`). -/
def enqueueInWork (work : CommandWork) (actorId runId : UUID) (idempotencyKey : String)
    (request : RunCommandRequest) : Except ServiceError (Db × CommandRow) := do
  let queueKey ← hashRunCommandIdempotencyKey enc idempotencyKey actorId runId
  match ← getByIdempotencyKey red work.dbBeforeLock queueKey with
  | some existing => do
    validateCommandReplay enc existing runId actorId request
    return (work.db, existing)
  | none => do
    let run ← orRaise (work.runs runId) (.runNotFound runId)
    match ← getByIdempotencyKey red work.db queueKey with
    | some existing => do
      validateCommandReplay enc existing runId actorId request
      return (work.db, existing)
    | none => do
      admitAgainstRun work request run
      let payload ← commandPayload enc request run
      admitTeardown work runId request
      (enqueue red work.db
        { id := work.freshId
          runId := runId
          commandType := request.commandType.value
          idempotencyKey := queueKey
          payload := enc.canonicalPayload payload
          expectedRunVersion := request.expectedRunVersion
          actorId := some actorId
          payloadSchemaVersion := 1
          availableAt := none
          createdAt := work.now } work.now).mapError .command

inductive ControlError
  | recoveryRequired (message : String)
  | rejected (reason : String)
  | runNotFound (id : UUID)
  | command (error : CommandError)
  | engine (error : EngineError)
  deriving DecidableEq, Repr

structure ControlWork where
  db : Db
  runs : Table UUID RunSnapshot
  events : List RunEvent
  now : ℤ

/-- `_validate_command` (`run_controls.py:392-402`). -/
def validateCommand (command : CommandRow) (target : RunState) : Except ControlError Unit :=
  require (command.commandType = (if target = paused then "pause" else "cancel") ∧
      command.status = .leased ∧ command.payloadSchemaVersion = 1 ∧
      command.payload = enc.canonicalPayload .empty ∧ command.actorId.isSome = true)
    (.recoveryRequired "control command authority is invalid")

/-- `assert_current_lease` (`commands.py:348-378`); the handler turns a lost lease
and a missing command into a recovery. -/
def assertCurrentLease (work : ControlWork) (command : CommandRow) :
    Except ControlError CommandRow := do
  require (command.status = .leased ∧ command.leaseOwner.isSome = true)
    (.recoveryRequired "control command lease is no longer current")
  let record ← orRaise (work.db.commands.get command.id)
    (.recoveryRequired "control command lease is no longer current")
  require (ownsLease record (command.leaseOwner.getD "") work.now = true ∧
      record.attempt = command.attempt)
    (.recoveryRequired "control command lease is no longer current")
  (commandFromRecord red record).mapError .command

/-- `_same_delivery` (`run_controls.py:417-432`). -/
def sameDelivery (command fenced : CommandRow) : Bool :=
  fenced.id == command.id && fenced.runId == command.runId &&
    fenced.commandType == command.commandType &&
    fenced.idempotencyKey == command.idempotencyKey && fenced.payload == command.payload &&
    fenced.status == .leased && fenced.expectedRunVersion == command.expectedRunVersion &&
    fenced.actorId == command.actorId &&
    fenced.payloadSchemaVersion == command.payloadSchemaVersion &&
    fenced.attempt == command.attempt && fenced.leaseOwner == command.leaseOwner

def eventPayload (command : CommandRow) : EventPayload where
  commandId := command.id
  commandType := command.commandType
  commandPayload := command.payload
  expectedRunVersion := command.expectedRunVersion

/-- `_replayed` (`run_controls.py:635-653`). -/
def replayed (work : ControlWork) (command : CommandRow) (version : ℤ) (eventType : String) : Bool :=
  match work.events.filter fun e =>
      e.runId == command.runId && e.runVersion == version && e.eventType == eventType with
  | [event] => event.payloadDigest == enc.eventDigest (eventPayload command) &&
      event.actorClass == "operator" && event.actorId == command.actorId &&
      event.payloadSchemaVersion == 1
  | _ => false

/-- `_execute` (`run_controls.py:342-389`), with the `_change_state` it ends in. The
closing of the run's feedback rows after a cancellation is left out. -/
def execute (work : ControlWork) (command : CommandRow) (target : RunState) :
    Except ControlError ControlWork := do
  validateCommand enc command target
  let fenced ← assertCurrentLease red work command
  require (sameDelivery command fenced = true)
    (.recoveryRequired "control command delivery differs from its lease")
  let run ← orRaise (work.runs.get command.runId) (.runNotFound command.runId)
  refuse (if target = cancelled then cancellationRejectionReason run else none) .rejected
  let eventType := if target = paused then "run.paused" else "run.cancelled"
  if run.state = target then do
    require (run.version = command.expectedRunVersion + 1 ∧
        replayed enc work command run.version eventType = true)
      (.recoveryRequired "control command replay requires recovery")
    return work
  else do
    require (run.version = command.expectedRunVersion) (.rejected "control command version is stale")
    let changed ← (if target = paused then Run.pause run
      else Run.transition run cancelled).mapError .engine
    return { work with
      runs := work.runs.put command.runId changed
      events := work.events ++ [{
        runId := command.runId
        runVersion := changed.version
        eventType := eventType
        payloadDigest := enc.eventDigest (eventPayload command)
        actorClass := "operator"
        actorId := command.actorId
        payloadSchemaVersion := 1 }] }

/-- The run is merging, or a merge is what it has suspended, directly or behind
the pause that was taken inside the intervention. -/
def SettlesMerge (r : RunSnapshot) : Prop :=
  r.state = merging ∨ r.suspendedState = some merging ∨
    ∃ c, r.suspensionContext = some c ∧ c.suspendedState = some merging

/-- Cancellation cannot preempt the merge: it is refused, no cancel command is
added to the queue, and the handler of one that is there raises. -/
structure CancelRefused (r : RunSnapshot) : Prop where
  reason : cancellationRejectionReason r = some mergeSettlementRefusal
  admission : ∀ enc red work actorId runId key request db row,
    work.runs runId = some r → request.commandType = .cancel →
      enqueueInWork enc red work actorId runId key request = .ok (db, row) → db = work.db
  handler : ∀ enc red work command work',
    work.runs.get command.runId = some r → execute enc red work command cancelled ≠ .ok work'

theorem admitAgainstRun_refuses_cancel (work : CommandWork) (request : RunCommandRequest) (r : RunSnapshot)
    (reason : String) (hreq : request.commandType = .cancel)
    (h : cancellationRejectionReason r = some reason) : admitAgainstRun work request r ≠ .ok () := by
  intro ha
  simp only [admitAgainstRun, bind_unit_eq_ok] at ha
  obtain ⟨-, hrefuse, -⟩ := ha
  rw [if_pos hreq, h] at hrefuse
  cases hrefuse

theorem enqueueInWork_refuses_cancel (work : CommandWork) (actorId runId : UUID) (key : String)
    (request : RunCommandRequest) (r : RunSnapshot) (reason : String) (db : Db) (row : CommandRow)
    (hrun : work.runs runId = some r) (hreq : request.commandType = .cancel)
    (hreason : cancellationRejectionReason r = some reason)
    (h : enqueueInWork enc red work actorId runId key request = .ok (db, row)) : db = work.db := by
  simp only [enqueueInWork, bind_eq_ok] at h
  obtain ⟨queueKey, -, before, -, h⟩ := h
  cases before with
  | some existing =>
    simp only [bind_unit_eq_ok] at h
    cases h.2
    rfl
  | none =>
    simp only [bind_eq_ok, orRaise_eq_ok] at h
    obtain ⟨run, hget, after, -, h⟩ := h
    rw [hrun] at hget
    cases hget
    cases after with
    | some existing =>
      simp only [bind_unit_eq_ok] at h
      cases h.2
      rfl
    | none =>
      rw [bind_unit_eq_ok] at h
      exact absurd h.1 (admitAgainstRun_refuses_cancel work request r reason hreq hreason)

theorem execute_refuses_cancel (work work' : ControlWork) (command : CommandRow) (r : RunSnapshot)
    (reason : String) (hrun : work.runs.get command.runId = some r)
    (hreason : cancellationRejectionReason r = some reason) :
    execute enc red work command cancelled ≠ .ok work' := by
  intro h
  simp only [execute, bind_eq_ok, orRaise_eq_ok] at h
  obtain ⟨_, -, fenced, -, _, -, run, hget, _, hguard, -⟩ := h
  rw [hrun] at hget
  cases hget
  rw [if_pos trivial, hreason] at hguard
  cases hguard

theorem cancelRefused_of_reason (r : RunSnapshot)
    (h : cancellationRejectionReason r = some mergeSettlementRefusal) : CancelRefused r where
  reason := h
  admission := fun enc red work actorId runId key request db row hrun hreq =>
    enqueueInWork_refuses_cancel enc red work actorId runId key request r _ db row hrun hreq h
  handler := fun enc red work command work' hrun =>
    execute_refuses_cancel enc red work work' command r _ hrun h

theorem cancellationRejectionReason_eq_some (r : RunSnapshot) :
    cancellationRejectionReason r = some mergeSettlementRefusal ↔
      r.state = merging ∨ ((r.state = paused ∨ r.state = awaitingHumanIntervention) ∧
        r.suspendedState = some merging) := by
  unfold cancellationRejectionReason
  split
  · next h => exact iff_of_true rfl h
  · next h => exact iff_of_false (by simp) h

/-- A run with a merge to settle refuses cancellation exactly when it is not
paused inside an intervention. -/
theorem cancelRefused_iff (run r : RunSnapshot) (ops : List EngineOp)
    (hv : validateNewSnapshot run = .ok ()) (hr : runOps run ops = .ok r) (hm : SettlesMerge r) :
    CancelRefused r ↔
      ¬ (r.state = paused ∧ r.suspendedState = some awaitingHumanIntervention) := by
  have hl : Layered r := layered_run run r ops hr (layered_new run hv)
  constructor
  · rintro ⟨hreason, -, -⟩ ⟨hp, hs⟩
    rw [cancellationRejectionReason_eq_some, hp, hs] at hreason
    exact absurd hreason (by decide)
  · intro hcond
    apply cancelRefused_of_reason
    rw [cancellationRejectionReason_eq_some]
    by_cases hp : r.state = paused
    · unfold Layered at hl
      rw [hp] at hl
      obtain ⟨c, hc, hs, -, hinner⟩ := hl
      -- the merge is the state the pause left, since the intervention is excluded
      have hnot : c.state ≠ awaitingHumanIntervention := fun hi => hcond ⟨hp, hi ▸ hs⟩
      rcases hm with hm | hm | ⟨c', hc', hm⟩
      · rw [hp] at hm
        cases hm
      · exact .inr ⟨.inl hp, hm⟩
      · rw [hc] at hc'
        cases hc'
        rw [hinner hnot] at hm
        cases hm
    · have hc : r.suspensionContext = none := hl.context r hp
      by_cases hi : r.state = awaitingHumanIntervention
      · rcases hm with hm | hm | ⟨c, hc', -⟩
        · rw [hi] at hm
          cases hm
        · exact .inr ⟨.inr hi, hm⟩
        · rw [hc] at hc'
          cases hc'
      · rcases hm with hm | hm | ⟨c, hc', -⟩
        · exact .inl hm
        · rw [hl.suspendedState r hp hi] at hm
          cases hm
        · rw [hc] at hc'
          cases hc'

def mergingOps : List EngineOp := sampleOps ++ [.transition merging]

theorem cancelRefused_intervention : ∃ r, runOps sampleRun (mergingOps ++ [.intervene]) = .ok r ∧
    SettlesMerge r ∧ CancelRefused r :=
  ⟨_, rfl, .inr (.inl rfl), (cancelRefused_iff sampleRun _ (mergingOps ++ [.intervene])
    (by decide +kernel) rfl (.inr (.inl rfl))).mpr (by decide)⟩

/-- The merge is suspended by an intervention and a pause is taken inside it: an
operator's cancel command, leased by a worker, then cancels the run. -/
def plainEncoding : Encoding where
  sha256Hex := id
  uuidText := fun _ => ""
  canonicalPayload := fun _ => "\x7b\x7d"
  eventDigest := fun _ => ""
  teardownDigest := fun _ => ""

def plainDurability : Durability := ⟨fun _ => false, id, some⟩

def cancelCommand : CommandRow where
  id := 9
  runId := 3
  commandType := "cancel"
  idempotencyKey := "run-command"
  payload := "\x7b\x7d"
  expectedRunVersion := 11
  actorId := some 5
  payloadSchemaVersion := 1
  status := .leased
  attempt := 1
  availableAt := 0
  leaseOwner := some "worker"
  leaseExpiresAt := some 100
  createdAt := 0
  completedAt := none
  errorSummary := none

def cancelWork (r : RunSnapshot) : ControlWork where
  db :=
    { commands := Table.empty.put 9 cancelCommand
      runState := fun _ => some paused
      checkpointed := fun _ => false
      startupInterventionHold := fun _ => false
      barrierRequired := some false }
  runs := Table.empty.put 3 r
  events := []
  now := 10

theorem cancel_preempts_merge : validateNewSnapshot sampleRun = .ok () ∧ ∃ r work r',
    runOps sampleRun (mergingOps ++ [.intervene, .pause]) = .ok r ∧ SettlesMerge r ∧
      cancellationRejectionReason r = none ∧
      execute plainEncoding plainDurability (cancelWork r) cancelCommand cancelled = .ok work ∧
      work.runs.get cancelCommand.runId = some r' ∧ r'.state = cancelled :=
  ⟨by decide +kernel, _, _, _, rfl, .inr (.inr ⟨_, rfl, rfl⟩), rfl, rfl, rfl, rfl⟩

end ParallelForge.Command
