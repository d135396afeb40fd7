import ParallelForge.Base.Result
import ParallelForge.Base.Run
import ParallelForge.Base.Table
import ParallelForge.Usage.Observation
import Mathlib.Data.List.Sort
import Mathlib.Data.Rat.Defs

/-!
# Usage checkpoints (`persistence/repositories/task_usage_checkpoints.py`)

Monitor, worker and owner act on the checkpoints of a subject. `request` holds
the subject's lock, the other operations the checkpoint's row lock, and each is
one transaction: an operation that raises changes nothing. A row stands with
the bindings of its work units, which are immutable; `createdAt` is the instant
the database stamps on it. What the JSONB column of the owner commands gives back for
a payload is kept abstract.
-/

namespace ParallelForge.Usage
open Base

inductive CheckpointState
  | requested
  | pausing
  | paused
  | resumed
  | resolved
  deriving DecidableEq, Repr

/-- `_ACTIVE`. -/
def CheckpointState.active : CheckpointState → Bool
  | .requested | .pausing | .paused => true
  | .resumed | .resolved => false

/-- `_EDGES`. -/
def edges : CheckpointState → List CheckpointState
  | .requested => [.pausing, .resolved]
  | .pausing => [.paused, .resolved]
  | .paused => [.resumed, .resolved]
  | .resumed => [.resolved]
  | .resolved => []

/-- The states that need the process to have settled. -/
def CheckpointState.settled : CheckpointState → Bool
  | .paused | .resumed => true
  | .requested | .pausing | .resolved => false

/-- A row of `task_usage_checkpoints`, keyed by the checkpoint id. -/
structure Checkpoint where
  binding : WorkUnitBinding
  baselineBinding : WorkUnitBinding
  state : CheckpointState
  policyRevision : ℕ
  referenceDigest : String
  triggerEventId : String
  version : ℕ
  generation : ℕ
  processSettled : Bool
  nextCheckpointThresholdTokens : Option ℕ
  usagePausesDisabled : Bool
  monitoringPolicyRevision : Option ℕ
  createdAt : ℤ
  deriving DecidableEq

structure CheckpointRecord where
  checkpointId : UUID
  binding : WorkUnitBinding
  baselineBinding : WorkUnitBinding
  state : CheckpointState
  policyRevision : ℕ
  referenceDigest : String
  triggerEventId : String
  version : ℕ := 0
  generation : ℕ := 1
  processSettled : Bool := false
  nextCheckpointThresholdTokens : Option ℕ := none
  usagePausesDisabled : Bool := false
  monitoringPolicyRevision : Option ℕ := none
  deriving DecidableEq

/-- `_positive`. -/
def positive (value : ℕ) (name : String) (allowZero : Bool) : Except String Unit :=
  require ((if allowZero then 0 else 1) ≤ value ∧ value ≤ maxSignedBigint)
    (name ++ " must be a " ++ (if allowZero then "nonnegative" else "positive") ++
      " signed-64-bit integer")

/-- `_digest`. -/
def digest (value name : String) : Except String Unit :=
  require (isHexOfLength 64 value = true) (name ++ " must be a lowercase SHA-256 digest")

theorem positive_eq_ok (value : ℕ) (name : String) (allowZero : Bool) (u : Unit) :
    positive value name allowZero = .ok u ↔
      (if allowZero then 0 else 1) ≤ value ∧ value ≤ maxSignedBigint := by
  rw [positive, require_eq_ok]

theorem digest_eq_ok (value name : String) (u : Unit) :
    digest value name = .ok u ↔ isHexOfLength 64 value = true := by
  rw [digest, require_eq_ok]

def positiveIfSome (value : Option ℕ) (name : String) : Except String Unit :=
  match value with
  | none => .ok ()
  | some v => positive v name false

theorem positiveIfSome_eq_ok (value : Option ℕ) (name : String) (u : Unit) :
    positiveIfSome value name = .ok u ↔ ∀ v, value = some v → 1 ≤ v ∧ v ≤ maxSignedBigint := by
  cases value with
  | none => simp [positiveIfSome]
  | some v => simp [positiveIfSome, positive_eq_ok]

/-- `CheckpointRecord.__post_init__` (`task_usage_contract.py:498-528`). -/
def CheckpointRecord.validate (r : CheckpointRecord) : Except String Unit := do
  require (r.baselineBinding.subject = r.binding.subject)
    "checkpoint trigger and baseline must share a subject"
  positive r.policyRevision "policy revision" false
  positive r.version "checkpoint version" true
  positive r.generation "checkpoint generation" false
  digest r.referenceDigest "reference digest"
  require (r.triggerEventId ≠ "") "checkpoint requires trigger event"
  positiveIfSome r.nextCheckpointThresholdTokens "next checkpoint threshold"
  positiveIfSome r.monitoringPolicyRevision "monitoring policy revision"
  require (¬ (r.usagePausesDisabled = true ∧ r.nextCheckpointThresholdTokens ≠ none))
    "bypassed usage pauses cannot have a next threshold"
  require (r.state.settled = true → r.processSettled = true)
    "paused or resumed checkpoint requires process settlement"

/-- `_record`. -/
def record (id : UUID) (row : Checkpoint) : Except String CheckpointRecord := do
  let r : CheckpointRecord :=
    { checkpointId := id
      binding := row.binding
      baselineBinding := row.baselineBinding
      state := row.state
      policyRevision := row.policyRevision
      referenceDigest := row.referenceDigest
      triggerEventId := row.triggerEventId
      version := row.version
      generation := row.generation
      processSettled := row.processSettled
      nextCheckpointThresholdTokens := row.nextCheckpointThresholdTokens
      usagePausesDisabled := row.usagePausesDisabled
      monitoringPolicyRevision := row.monitoringPolicyRevision }
  r.validate
  return r

inductive MonitoringMode
  | reportOnly
  | warn
  | checkpoint
  deriving DecidableEq, Repr

structure MonitoringPolicy where
  projectId : UUID
  revision : ℕ
  mode : MonitoringMode
  warningMultiplier : ℚ
  checkpointMultiplier : ℚ
  historyLimit : ℕ
  minimumComparables : ℕ
  windowDays : Option ℕ
  hardTokenCap : Option ℕ
  hardContextCap : Option ℕ
  manualEstimateTokens : Option ℕ
  allowCrossProjectFallback : Bool
  deriving DecidableEq

inductive OwnerAction
  | continue
  | resume
  | resolve
  | setPolicy
  | overrideCheckpoint
  | stop
  deriving DecidableEq, Repr

inductive ContinueMode
  | nextCheckpoint
  | withoutUsagePauses
  deriving DecidableEq, Repr

structure OwnerCommand where
  commandId : UUID
  checkpointId : UUID
  expectedVersion : ℕ
  idempotencyKey : String
  action : OwnerAction
  actorId : UUID
  overrideNote : Option String
  continueMode : Option ContinueMode
  requestedPolicy : Option MonitoringPolicy
  deriving DecidableEq

/-- `_payload`. -/
structure CommandPayload where
  continueMode : Option ContinueMode
  overrideNote : Option String
  requestedPolicy : Option MonitoringPolicy
  deriving DecidableEq

/-- What the JSONB column gives back for a payload, with its numbers as Python compares
them. It need not be what was written: the float `1e23` comes back as the integer
`10 ^ 23`, which is another number. A payload that the column refuses has none. -/
abbrev CommandColumn := CommandPayload → Option CommandPayload

def OwnerCommand.payload (c : OwnerCommand) : CommandPayload :=
  ⟨c.continueMode, c.overrideNote, c.requestedPolicy⟩

/-- A row of `task_usage_owner_commands`, keyed by the command id. -/
structure OwnerCommandRow where
  checkpointId : UUID
  idempotencyKey : String
  action : OwnerAction
  expectedVersion : ℕ
  resultVersion : ℕ
  actorId : UUID
  state : CheckpointState
  commandPayload : CommandPayload
  warnings : List String
  affectedSnapshotDigest : String
  deriving DecidableEq

structure OwnerCommandReceipt where
  commandId : UUID
  checkpointId : UUID
  resultVersion : ℕ
  state : CheckpointState
  actorId : UUID
  action : OwnerAction
  affectedSnapshot : String
  warnings : List String
  replayed : Bool
  deriving DecidableEq

structure CheckpointStore where
  checkpoints : Table UUID Checkpoint
  commands : Table UUID OwnerCommandRow

def CheckpointStore.init : CheckpointStore := ⟨Table.empty, Table.empty⟩

/-- `scalar_one_or_none`. -/
def oneOrNone {α : Type} (rows : List α) : Except String (Option α) :=
  match rows with
  | [] => .ok none
  | [a] => .ok (some a)
  | _ => .error "Multiple rows were found when one or none was required"

def Checkpoint.subject (row : Checkpoint) : SubjectKey := row.binding.subject

/-- `active_for_subject` (`task_usage_checkpoints.py:141-152`). -/
def activeForSubject (s : CheckpointStore) (subject : SubjectKey) :
    Except String (Option CheckpointRecord) := do
  let row ← oneOrNone (s.checkpoints.select fun _ row =>
    decide (row.subject = subject) && row.state.active)
  match row with
  | none => return none
  | some (id, row) => some <$> record id row

/-- `ORDER BY generation DESC, created_at DESC, id DESC`. -/
def latestFirst (a b : UUID × Checkpoint) : Prop :=
  b.2.generation < a.2.generation ∨ (a.2.generation = b.2.generation ∧
    (b.2.createdAt < a.2.createdAt ∨ (a.2.createdAt = b.2.createdAt ∧ b.1 ≤ a.1)))

instance (a b : UUID × Checkpoint) : Decidable (latestFirst a b) :=
  inferInstanceAs (Decidable (_ ∨ _))

/-- `latest_for_subject` (`task_usage_checkpoints.py:154-167`). -/
def latestForSubject (s : CheckpointStore) (subject : SubjectKey) :
    Except String (Option CheckpointRecord) :=
  match ((s.checkpoints.select fun _ row => decide (row.subject = subject)).insertionSort
      latestFirst).head? with
  | none => .ok none
  | some (id, row) => some <$> record id row

/-- The surroundings of a request: whether the subject's row exists, and whether the
foreign keys of the new row do. -/
structure RequestContext where
  subjectExists : Bool
  referencesExist : Bool
  createdAt : ℤ

def nextGeneration (latest : Option CheckpointRecord) : ℕ :=
  match latest with
  | none => 1
  | some latest => latest.generation + 1

/-- The new checkpoint, with what it takes over from the latest one. -/
def createdFrom (checkpoint : CheckpointRecord) (latest : Option CheckpointRecord)
    (generation : ℕ) : CheckpointRecord :=
  { checkpoint with
    generation := generation
    monitoringPolicyRevision := checkpoint.monitoringPolicyRevision.or
      (latest.bind (·.monitoringPolicyRevision))
    nextCheckpointThresholdTokens := checkpoint.nextCheckpointThresholdTokens.or
      (latest.bind (·.nextCheckpointThresholdTokens))
    usagePausesDisabled := checkpoint.usagePausesDisabled ||
      latest.any (·.usagePausesDisabled) }

def createdRow (created : CheckpointRecord) (createdAt : ℤ) : Checkpoint where
  binding := created.binding
  baselineBinding := created.baselineBinding
  state := created.state
  policyRevision := created.policyRevision
  referenceDigest := created.referenceDigest
  triggerEventId := created.triggerEventId
  version := created.version
  generation := created.generation
  processSettled := false
  nextCheckpointThresholdTokens := created.nextCheckpointThresholdTokens
  usagePausesDisabled := created.usagePausesDisabled
  monitoringPolicyRevision := created.monitoringPolicyRevision
  createdAt := createdAt

/-- `request` (`task_usage_checkpoints.py:181-251`). -/
def request (s : CheckpointStore) (context : RequestContext) (checkpoint : CheckpointRecord) :
    Except String (CheckpointStore × CheckpointRecord) := do
  require (checkpoint.state = .requested ∧ checkpoint.version = 0)
    "new checkpoint must be requested at version zero"
  require (context.subjectExists = true) "checkpoint subject does not exist"
  let sameTrigger ← oneOrNone (s.checkpoints.select fun _ row =>
    row.binding.workUnitId == checkpoint.binding.workUnitId &&
      row.triggerEventId == checkpoint.triggerEventId)
  match sameTrigger with
  | some (id, row) => do
    let stored ← record id row
    require (stored.checkpointId = checkpoint.checkpointId ∧ stored.binding = checkpoint.binding ∧
      stored.baselineBinding = checkpoint.baselineBinding ∧
      stored.policyRevision = checkpoint.policyRevision ∧
      stored.referenceDigest = checkpoint.referenceDigest)
      "checkpoint trigger identity differs from durable record"
    return (s, stored)
  | none => do
    match ← activeForSubject s checkpoint.binding.subject with
    | some prior => do
      require (prior = checkpoint) "another checkpoint is active for the subject"
      return (s, prior)
    | none => do
      let latest ← latestForSubject s checkpoint.binding.subject
      let generation := nextGeneration latest
      positive generation "checkpoint generation" false
      let created := createdFrom checkpoint latest generation
      created.validate
      -- the flush refuses a known id and dangling references
      require (s.checkpoints.get checkpoint.checkpointId = none ∧ context.referencesExist = true)
        "checkpoint violates a database constraint"
      let row := createdRow created context.createdAt
      return ({ s with checkpoints := s.checkpoints.put checkpoint.checkpointId row }, created)

/-- `transition` (`task_usage_checkpoints.py:253-284`). -/
def transition (s : CheckpointStore) (checkpointId : UUID) (expectedVersion : ℕ)
    (state : CheckpointState) (processSettled : Bool) :
    Except String (CheckpointStore × CheckpointRecord) := do
  positive expectedVersion "expected version" true
  let row ← orRaise (s.checkpoints.get checkpointId) "checkpoint version is stale"
  require (row.version = expectedVersion) "checkpoint version is stale"
  require (state ∈ edges row.state) "checkpoint transition is invalid"
  require (row.processSettled = true → processSettled = true)
    "process settlement cannot be revoked"
  require (state.settled = true → processSettled = true) "process/effect settlement is required"
  let row' := { row with
    state := state
    processSettled := processSettled
    version := row.version + 1 }
  let result ← record checkpointId row'
  return ({ s with checkpoints := s.checkpoints.put checkpointId row' }, result)

/-- `receipt_for_command` (`task_usage_checkpoints.py:97-126`): the payload is compared
with the one the column gives back. -/
def receiptForCommand (s : CheckpointStore) (command : OwnerCommand) :
    Except String (Option OwnerCommandReceipt) := do
  let prior ← oneOrNone (s.commands.select fun _ row =>
    row.checkpointId == command.checkpointId && row.idempotencyKey == command.idempotencyKey)
  match prior with
  | none => return none
  | some (id, prior) => do
    require (prior.actorId = command.actorId ∧ prior.action = command.action ∧
      prior.expectedVersion = command.expectedVersion ∧ prior.commandPayload = command.payload)
      "idempotency key conflicts with prior command"
    return some
      { commandId := id
        checkpointId := prior.checkpointId
        resultVersion := prior.resultVersion
        state := prior.state
        actorId := prior.actorId
        action := prior.action
        affectedSnapshot := prior.affectedSnapshotDigest
        warnings := prior.warnings
        replayed := true }

/-- The result the caller asks the command to have. -/
structure CommandResult where
  state : CheckpointState
  affectedSnapshot : String
  warnings : List String := []
  nextCheckpointThresholdTokens : Option ℕ := none
  usagePausesDisabled : Option Bool := none
  monitoringPolicyRevision : Option ℕ := none

/-- The guards of a first application (`task_usage_checkpoints.py:313-336`). -/
def commandGuards (row : Checkpoint) (command : OwnerCommand) (result : CommandResult) :
    Except String Unit := do
  require (row.version = command.expectedVersion) "checkpoint version is stale"
  require (result.state = row.state ∨ result.state ∈ edges row.state)
    "owner command transition is invalid"
  require (command.action = .continue ∨ command.action = .resume →
    row.state = .paused ∧ result.state = .resumed ∧ row.processSettled = true)
    "checkpoint is not safely paused"
  require (command.action = .stop ∨ command.action = .resolve → result.state = .resolved)
    "stop/resolve must resolve the checkpoint"
  require (command.action = .setPolicy ∨ command.action = .overrideCheckpoint →
    result.state = row.state) "policy command cannot settle the checkpoint"
  positiveIfSome result.nextCheckpointThresholdTokens "next checkpoint threshold"
  positiveIfSome result.monitoringPolicyRevision "monitoring policy revision"
  require (command.action = .continue → result.usagePausesDisabled ≠ none ∧
    ¬ (result.usagePausesDisabled = some false ∧ result.nextCheckpointThresholdTokens = none))
    "continuation requires a durable threshold or bypass"

/-- What the command writes over the row. -/
def commandedRow (row : Checkpoint) (result : CommandResult) : Checkpoint :=
  let disabled := result.usagePausesDisabled.getD row.usagePausesDisabled
  { row with
    usagePausesDisabled := disabled
    nextCheckpointThresholdTokens :=
      if result.nextCheckpointThresholdTokens ≠ none ∨ disabled = true then
        result.nextCheckpointThresholdTokens
      else row.nextCheckpointThresholdTokens
    monitoringPolicyRevision := result.monitoringPolicyRevision.or row.monitoringPolicyRevision
    state := result.state
    version := row.version + 1 }

def commandRow (command : OwnerCommand) (result : CommandResult) (stored : CommandPayload)
    (version : ℕ) : OwnerCommandRow where
  checkpointId := command.checkpointId
  idempotencyKey := command.idempotencyKey
  action := command.action
  expectedVersion := command.expectedVersion
  resultVersion := version
  actorId := command.actorId
  state := result.state
  commandPayload := stored
  warnings := result.warnings
  affectedSnapshotDigest := result.affectedSnapshot

def commandReceipt (command : OwnerCommand) (result : CommandResult) (version : ℕ) :
    OwnerCommandReceipt where
  commandId := command.commandId
  checkpointId := command.checkpointId
  resultVersion := version
  state := result.state
  actorId := command.actorId
  action := command.action
  affectedSnapshot := result.affectedSnapshot
  warnings := result.warnings
  replayed := false

/-- `apply_owner_command` (`task_usage_checkpoints.py:286-373`). -/
def applyOwnerCommand (column : CommandColumn) (s : CheckpointStore) (command : OwnerCommand) (result : CommandResult) :
    Except String (CheckpointStore × OwnerCommandReceipt) := do
  digest result.affectedSnapshot "affected snapshot"
  let row ← orRaise (s.checkpoints.get command.checkpointId) "checkpoint does not exist"
  match ← receiptForCommand s command with
  | some replay => return (s, replay)
  | none => do
    commandGuards row command result
    let row' := commandedRow row result
    require (¬ (row'.usagePausesDisabled = true ∧ row'.nextCheckpointThresholdTokens ≠ none))
      "bypassed usage pauses cannot retain a threshold"
    -- the flush refuses a known command id, and the columns what they cannot hold
    require (s.commands.get command.commandId = none) "owner command violates a database constraint"
    let stored ← orRaise (column command.payload) "the column refuses the payload"
    positive row'.version "result version" true
    return (⟨s.checkpoints.put command.checkpointId row',
      s.commands.put command.commandId (commandRow command result stored row'.version)⟩,
      commandReceipt command result row'.version)

/-! ### Runs -/

inductive CheckpointOp
  | request (context : RequestContext) (checkpoint : CheckpointRecord)
  | transition (checkpointId : UUID) (expectedVersion : ℕ) (state : CheckpointState)
      (processSettled : Bool)
  | applyOwnerCommand (command : OwnerCommand) (result : CommandResult)

/-- A transaction that raises is rolled back. -/
def stepped {α : Type} (s : CheckpointStore) (x : Except String (CheckpointStore × α)) :
    CheckpointStore :=
  match x with
  | .ok (s', _) => s'
  | .error _ => s

def checkpointStep (column : CommandColumn) (s : CheckpointStore) : CheckpointOp → CheckpointStore
  | .request context checkpoint => stepped s (request s context checkpoint)
  | .transition id expectedVersion state processSettled =>
    stepped s (transition s id expectedVersion state processSettled)
  | .applyOwnerCommand command result => stepped s (applyOwnerCommand column s command result)

end ParallelForge.Usage
