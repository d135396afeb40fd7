import ParallelForge.Run.Engine

/-!
# The persisted run row (`persistence/repositories/runs.py`)

`RunRecord` holds the columns `_apply_snapshot` writes and
`_snapshot_from_record` reads. Enumerations are stored by value, the hidden
suspension context and the workflow preferences as JSON objects.
-/

namespace ParallelForge.Run
open Base RunState

/-- A JSON value inside a stored object; no reader looks inside a float, a list
or a nested object. -/
inductive JsonValue
  | null
  | bool (b : Bool)
  | int (n : ℤ)
  | float
  | str (s : String)
  | list
  | dict
  deriving DecidableEq, Repr

/-- A JSONB column that is not SQL NULL. -/
inductive JsonColumn
  | object (fields : List (String × JsonValue))
  | value (v : JsonValue)
  deriving DecidableEq, Repr

structure RunRecord where
  id : UUID
  projectId : UUID
  taskId : UUID
  policyVersion : ℤ
  state : String
  version : ℤ
  suspendedState : Option String
  suspensionKind : Option String
  suspensionContextSchemaVersion : Option ℤ
  suspensionContext : Option JsonColumn
  localRemediationCount : ℤ
  remoteRemediationCount : ℤ
  pendingGate : Option String
  pendingEvidenceDigest : Option String
  baseRef : Option String
  baseSha : Option String
  branchName : Option String
  worktreePath : Option String
  databaseState : String
  databaseName : Option String
  databaseRole : Option String
  secretId : Option String
  workflow : Option JsonColumn
  deriving DecidableEq, Repr

/-- `PersistenceDataError`; the two constructors with a value stand for the
messages that quote it with `repr`. -/
inductive DataError
  | message (text : String)
  | unknownState (fieldName value : String)
  | unknownSuspensionKind (value : String)
  deriving DecidableEq, Repr

namespace Delegation

def value : Delegation → String
  | auto => "auto"
  | disabled => "disabled"
  | requested => "requested"

def ofValue (v : String) : Option Delegation :=
  [auto, disabled, requested].find? fun d => d.value == v

end Delegation

namespace OptionalReview

def value : OptionalReview → String
  | auto => "auto"
  | skip => "skip"
  | required => "required"

def ofValue (v : String) : Option OptionalReview :=
  [auto, skip, required].find? fun d => d.value == v

end OptionalReview

/-- `WorkflowPreferences.to_dict`. -/
def WorkflowPreferences.toDict (w : WorkflowPreferences) : List (String × JsonValue) :=
  [("review_plan_first", .bool w.reviewPlanFirst), ("delegation", .str w.delegation.value),
    ("optional_review", .str w.optionalReview.value)]

/-- Membership of a JSON value in a frozenset of strings: an unhashable value is
a `TypeError`, any other stranger is refused by name. -/
def preference {α : Type} (fieldName : String) (ofValue : String → Option α) :
    JsonValue → Except String α
  | .str s => match ofValue s with
    | some a => .ok a
    | none => .error (fieldName ++ " preference is invalid")
  | .list => .error "unhashable type: 'list'"
  | .dict => .error "unhashable type: 'dict'"
  | _ => .error (fieldName ++ " preference is invalid")

/-- `WorkflowPreferences.from_mapping` (`domain/workflow.py:47-58`). -/
def workflowFromMapping : Option JsonColumn → Except String (Option WorkflowPreferences)
  | none => .ok none
  | some (.value _) => .error "workflow preferences must be a mapping"
  | some (.object fields) => do
    require (∀ f ∈ fields, f.1 ∈ ["review_plan_first", "delegation", "optional_review"])
      "workflow preferences contain unknown fields"
    let first ← match (fields.lookup "review_plan_first").getD (.bool false) with
      | .bool b => Except.ok b
      | _ => Except.error "review_plan_first must be a bool"
    let delegation ← preference "delegation" Delegation.ofValue
      ((fields.lookup "delegation").getD (.str "auto"))
    let review ← preference "optional_review" OptionalReview.ofValue
      ((fields.lookup "optional_review").getD (.str "auto"))
    return some ⟨first, delegation, review⟩

def workflowFromRecord (value : Option JsonColumn) : Except DataError (Option WorkflowPreferences) :=
  (workflowFromMapping value).mapError fun e => .message ("run workflow is malformed: " ++ e)

/-- `_run_state`. -/
def runState (value : JsonValue) (fieldName : String) : Except DataError RunState :=
  match value with
  | .str v => match RunState.ofValue v with
    | some s => .ok s
    | none => .error (.unknownState fieldName v)
  | _ => .error (.message (fieldName ++ " is not a run-state string"))

/-- `_suspension_kind`. -/
def suspensionKind (value : JsonValue) : Except DataError SuspensionKind :=
  match value with
  | .str v => match SuspensionKind.ofValue v with
    | some k => .ok k
    | none => .error (.unknownSuspensionKind v)
  | _ => .error (.message "suspension kind is not a string")

/-- `_pending_gate`. -/
def pendingGate (value : JsonValue) : Except DataError (Option ApprovalGate) :=
  match value with
  | .null => .ok none
  | .str v => match ApprovalGate.ofValue v with
    | some g => .ok (some g)
    | none => .error (.message "pending gate is unknown")
  | _ => .error (.message "pending gate is not a string")

/-- `_pending_evidence_digest`. -/
def pendingEvidenceDigest (value : JsonValue) : Except DataError (Option String) :=
  match value with
  | .null => .ok none
  | .str v =>
    if isDigest v then .ok (some v)
    else .error (.message "pending evidence digest is not a lowercase SHA-256")
  | _ => .error (.message "pending evidence digest is not a lowercase SHA-256")

/-- `_validate_pending_shape`. -/
def validatePendingShape (state : RunState) (gate : Option ApprovalGate)
    (digest : Option String) : Except DataError Unit :=
  match approvalGateByState state with
  | none => require (gate = none ∧ digest = none)
      (.message "non-approval run has pending approval metadata")
  | some expected => require (gate = some expected ∧ digest ≠ none)
      (.message "approval run has mismatched pending approval metadata")

def resourceState (value : String) : Except DataError ResourceState :=
  match ResourceState.ofValue value with
  | some s => .ok s
  | none => .error (.unknownState "database_state" value)

def nonnegativeInt (value : ℤ) (fieldName : String) : Except DataError ℤ :=
  if value < 0 then .error (.message (fieldName ++ " must be a nonnegative integer")) else .ok value

def jsonOfColumn : Option String → JsonValue
  | none => .null
  | some v => .str v

/-- `None if raw is None else decode(raw)`. -/
def decodeNullable {α : Type} (decode : JsonValue → Except DataError α) :
    JsonValue → Except DataError (Option α)
  | .null => .ok none
  | v => (decode v).map some

def contextKeys (schemaVersion : ℤ) : List String :=
  if schemaVersion = 1 then ["state", "suspended_state", "suspension_kind"]
  else ["state", "suspended_state", "suspension_kind", "pending_gate", "pending_evidence_digest"]

def field (fields : List (String × JsonValue)) (key : String) : JsonValue :=
  (fields.lookup key).getD .null

/-- `_context_from_json` (`runs.py:1083-1123`). -/
def contextFromJson (fields : List (String × JsonValue)) (schemaVersion : ℤ) :
    Except DataError SuspensionContext := do
  require ((∀ f ∈ fields, f.1 ∈ contextKeys schemaVersion) ∧
      ∀ k ∈ contextKeys schemaVersion, k ∈ fields.map Prod.fst)
    (.message ("suspension context keys do not match schema version " ++ toString schemaVersion))
  let state ← runState (field fields "state") "suspension_context.state"
  let suspended ← decodeNullable (runState · "suspension_context.suspended_state")
    (field fields "suspended_state")
  let kind ← decodeNullable suspensionKind (field fields "suspension_kind")
  let gate ← if schemaVersion = 1 then Except.ok none
    else pendingGate (field fields "pending_gate")
  let digest ← if schemaVersion = 1 then Except.ok none
    else pendingEvidenceDigest (field fields "pending_evidence_digest")
  if h : pendingShape state gate digest = true then .ok ⟨state, suspended, kind, gate, digest, h⟩
  else .error (.message "suspension context approval metadata is malformed")

def hasPending (c : SuspensionContext) : Bool :=
  c.pendingGate.isSome || c.pendingEvidenceDigest.isSome

/-- The consistency checks on a decoded context of a paused run, in the order
and with the messages of `runs.py:1028-1062`. -/
def checkContext (suspended : RunState) (schemaVersion : ℤ) (c : SuspensionContext) :
    Except DataError Unit := do
  require (c.state = suspended)
    (.message "paused run context state does not match suspended state")
  require (¬ (schemaVersion = 1 ∧ hasPending c = true))
    (.message "version-1 suspension context cannot contain approval metadata")
  require (¬ (schemaVersion = 2 ∧ hasPending c = false))
    (.message "version-2 suspension context requires approval metadata")
  require (c.suspendedState = none ↔ c.suspensionKind = none)
    (.message "nested suspension context has inconsistent shape")
  require (c.suspendedState ≠ some paused) (.message "suspension context cannot retain PAUSED")
  require (c.suspensionKind ≠ some .pause)
    (.message "nested pause context is not a supported state shape")
  require (¬ (isApprovalState c.state = true ∧
      (c.suspendedState ≠ none ∨ c.suspensionKind ≠ none)))
    (.message "approval suspension context has nested suspension metadata")
  require (¬ (isApprovalState c.state = false ∧ hasPending c = true))
    (.message "non-approval suspension context has approval metadata")
  require (¬ (c.suspensionKind = some .intervention ∧
      (c.state ≠ awaitingHumanIntervention ∨ c.suspendedState.all (!canIntervene ·) = true)))
    (.message "nested intervention context is malformed")
  require (¬ (c.suspensionKind = none ∧
      (c.state = awaitingHumanIntervention ∨ isTerminalState c.state = true)))
    (.message "nested active context has an unsupported state")

/-- `_decode_suspension_context` (`runs.py:1006-1080`). -/
def decodeSuspensionContext (record : RunRecord) (state : RunState)
    (suspendedState : Option RunState) (kind : Option SuspensionKind) :
    Except DataError (Option SuspensionContext) :=
  let schema := record.suspensionContextSchemaVersion
  let raw := record.suspensionContext
  match state with
  | paused => do
    require (record.pendingGate = none ∧ record.pendingEvidenceDigest = none)
      (.message "paused run cannot have top-level approval metadata")
    match suspendedState, kind, schema, raw with
    | some suspended, some .pause, some version, some (.object fields) => do
      require (version = 1 ∨ version = 2)
        (.message "paused run has malformed suspension metadata")
      require (isTerminalState suspended = false ∧ suspended ≠ paused)
        (.message "paused run has an unsupported suspended state")
      let context ← contextFromJson fields version
      checkContext suspended version context
      return some context
    | _, _, _, _ => .error (.message "paused run has malformed suspension metadata")
  | awaitingHumanIntervention => do
    require (suspendedState.any canIntervene = true ∧ kind = some .intervention ∧ schema = none
        ∧ raw = none)
      (.message "intervention run has malformed suspension metadata")
    return none
  | _ => do
    require (suspendedState = none ∧ kind = none)
      (.message "non-suspended run has suspension metadata")
    require (schema = none ∧ raw = none) (.message "non-suspended run has suspension context")
    return none

/-- `RunSnapshot(...)` over the decoded columns; its own checks run again. -/
def buildSnapshot (record : RunRecord) (state : RunState) (version localCount remoteCount : ℤ)
    (suspended : Option RunState) (kind : Option SuspensionKind)
    (context : Option SuspensionContext) (gate : Option ApprovalGate) (digest : Option String)
    (database : ResourceState) (workflow : Option WorkflowPreferences) :
    Except DataError RunSnapshot :=
  match hr : validateResourceShape database record.databaseName record.databaseRole
      record.secretId with
  | .error e => .error (.message ("run fields are malformed: " ++ e))
  | .ok () =>
    match hp : validatePendingMetadata "run" state gate digest with
    | .error e => .error (.message ("run fields are malformed: " ++ e))
    | .ok () => .ok {
        id := record.id
        projectId := record.projectId
        taskId := record.taskId
        state := state
        version := version
        suspendedState := suspended
        localRemediationCount := localCount
        remoteRemediationCount := remoteCount
        suspensionKind := kind
        suspensionContext := context
        policyVersion := some record.policyVersion
        baseRef := record.baseRef
        baseSha := record.baseSha
        branchName := record.branchName
        worktreePath := record.worktreePath
        databaseState := database
        databaseName := record.databaseName
        databaseRole := record.databaseRole
        secretId := record.secretId
        pendingGate := gate
        pendingEvidenceDigest := digest
        workflow := workflow
        resource_ok := (validateResourceShape_ok_iff _ _ _ _).mp hr
        pending_ok := pendingShape_of_validated hp }

/-- `_snapshot_from_record` (`runs.py:952-1003`). -/
def snapshotFromRecord (record : RunRecord) : Except DataError RunSnapshot := do
  let state ← runState (.str record.state) "state"
  let version ← nonnegativeInt record.version "version"
  let localCount ← nonnegativeInt record.localRemediationCount "local_remediation_count"
  let remoteCount ← nonnegativeInt record.remoteRemediationCount "remote_remediation_count"
  let suspended ← decodeNullable (runState · "suspended_state") (jsonOfColumn record.suspendedState)
  let kind ← decodeNullable suspensionKind (jsonOfColumn record.suspensionKind)
  let gate ← pendingGate (jsonOfColumn record.pendingGate)
  let digest ← pendingEvidenceDigest (jsonOfColumn record.pendingEvidenceDigest)
  validatePendingShape state gate digest
  let context ← decodeSuspensionContext record state suspended kind
  let database ← resourceState record.databaseState
  let workflow ← workflowFromRecord record.workflow
  buildSnapshot record state version localCount remoteCount suspended kind context gate digest
    database workflow

def contextSchemaVersion (c : SuspensionContext) : ℤ := if hasPending c then 2 else 1

/-- The stored object; the two approval keys appear with schema version 2 only. -/
def contextToJson (c : SuspensionContext) : List (String × JsonValue) :=
  [("state", .str c.state.value),
    ("suspended_state", jsonOfColumn (c.suspendedState.map RunState.value)),
    ("suspension_kind", jsonOfColumn (c.suspensionKind.map SuspensionKind.value))] ++
  if hasPending c then
    [("pending_gate", jsonOfColumn (c.pendingGate.map ApprovalGate.value)),
      ("pending_evidence_digest", jsonOfColumn c.pendingEvidenceDigest)]
  else []

/-- `_apply_snapshot` (`runs.py:1126-1168`): identity, policy and base columns
are never written again. -/
def applySnapshot (record : RunRecord) (snapshot : RunSnapshot) : RunRecord :=
  { record with
    state := snapshot.state.value
    version := snapshot.version
    suspendedState := snapshot.suspendedState.map RunState.value
    suspensionKind := snapshot.suspensionKind.map SuspensionKind.value
    pendingGate := snapshot.pendingGate.map ApprovalGate.value
    pendingEvidenceDigest := snapshot.pendingEvidenceDigest
    localRemediationCount := snapshot.localRemediationCount
    remoteRemediationCount := snapshot.remoteRemediationCount
    worktreePath := snapshot.worktreePath
    workflow := snapshot.workflow.map fun w => .object w.toDict
    branchName := snapshot.branchName
    databaseState := snapshot.databaseState.value
    databaseName := snapshot.databaseName
    databaseRole := snapshot.databaseRole
    secretId := snapshot.secretId
    suspensionContextSchemaVersion := snapshot.suspensionContext.map contextSchemaVersion
    suspensionContext := snapshot.suspensionContext.map fun c => .object (contextToJson c) }

inductive CreationError
  | message (text : String)
  | projectNotFound (project : UUID)
  | noCurrentPolicy (project : UUID)
  | policyNotFound (project : UUID) (version : ℤ)
  | taskNotFound (task : UUID)
  | taskOfAnotherProject (task project : UUID)
  | alreadyExists (run : UUID)
  deriving DecidableEq, Repr

/-- `_validate_new_snapshot` (`runs.py:921-949`). -/
def validateNewSnapshot (run : RunSnapshot) : Except CreationError Unit := do
  require (run.state = created) (.message "new runs must start in CREATED")
  require (run.version = 0) (.message "new runs must start at version 0")
  require (run.suspendedState = none ∧ run.suspensionKind = none)
    (.message "new runs cannot carry suspension metadata")
  require (run.suspensionContext = none) (.message "new runs cannot carry a suspension context")
  require (run.worktreePath = none) (.message "new runs cannot carry a worktree path")
  require (run.databaseState = .disabled ∧ run.databaseName = none ∧ run.databaseRole = none
      ∧ run.secretId = none)
    (.message "new runs must have a disabled database resource")
  require (run.localRemediationCount = 0 ∧ run.remoteRemediationCount = 0)
    (.message "new runs must have zero remediation counts")
  require (∀ v ∈ run.policyVersion, 1 ≤ v) (.message "new run policy version must be positive")
  require (run.baseRef.isNone = run.baseSha.isNone)
    (.message "new run base reference and SHA must be provided together")
  require (∀ b ∈ run.baseRef, strip b ≠ "") (.message "new run base reference must not be blank")
  require (∀ b ∈ run.baseSha, isHexOfLength 40 b = true)
    (.message "new run base SHA must be a lowercase commit")
  require (∀ b ∈ run.branchName, strip b ≠ "" ∧ b.length ≤ 512)
    (.message "new run branch name is invalid")

/-- The rows `create` reads: the project's current policy version when the
project exists, the stored policies, the task's project, the existing runs. -/
structure CreateContext where
  currentPolicyVersion : UUID → Option (Option ℤ)
  policyExists : UUID → ℤ → Bool
  taskProject : UUID → Option UUID
  runExists : UUID → Bool

/-- `PostgresRunRepository.create` (`runs.py:333-401`); the result is the row
it adds. -/
def create (db : CreateContext) (run : RunSnapshot) : Except CreationError RunRecord := do
  validateNewSnapshot run
  match db.currentPolicyVersion run.projectId with
  | none => .error (.projectNotFound run.projectId)
  | some none => .error (.noCurrentPolicy run.projectId)
  | some (some current) => do
    require (1 ≤ current) (.noCurrentPolicy run.projectId)
    let policyVersion := run.policyVersion.getD current
    require (policyVersion = current)
      (.message "new run policy version is not the current project version")
    require (db.policyExists run.projectId policyVersion = true)
      (.policyNotFound run.projectId policyVersion)
    match db.taskProject run.taskId with
    | none => .error (.taskNotFound run.taskId)
    | some project => do
      require (project = run.projectId) (.taskOfAnotherProject run.taskId run.projectId)
      require (db.runExists run.id = false) (.alreadyExists run.id)
      return {
        id := run.id
        projectId := run.projectId
        taskId := run.taskId
        policyVersion := policyVersion
        state := created.value
        version := 0
        suspendedState := none
        suspensionKind := none
        suspensionContextSchemaVersion := none
        suspensionContext := none
        localRemediationCount := 0
        remoteRemediationCount := 0
        pendingGate := none
        pendingEvidenceDigest := none
        baseRef := run.baseRef
        baseSha := run.baseSha
        branchName := run.branchName
        worktreePath := none
        databaseState := "DISABLED"
        databaseName := none
        databaseRole := none
        secretId := none
        workflow := run.workflow.map fun w => .object w.toDict }

end ParallelForge.Run
