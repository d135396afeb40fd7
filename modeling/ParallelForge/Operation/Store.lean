import ParallelForge.Base.Run
import ParallelForge.Base.Table
import ParallelForge.Operation.Intent

/-!
# The operation-intent store (`persistence/repositories/operations.py`)

Each method is one transaction: it returns the new table and its result, or an
error, and then the table is as it was. Clock readings are inputs, in
microseconds; nothing assumes that they are ordered.
-/

namespace ParallelForge.Operation
open Base

/-- The exceptions; a state conflict carries the end of its message. -/
inductive StoreError
  | valueError (message : String)
  | runUnavailable
  | notFound (id : UUID)
  | idempotencyConflict (key : String)
  | duplicateIdentity (id : UUID)
  | disappeared
  | stateConflict (id : UUID) (reason : String)
  | leaseError (id : UUID)
  | malformed
  | columnRefused
  deriving DecidableEq, Repr

abbrev Store := Table UUID OperationRow

variable (red : Durability)

/-- What a JSONB column holds once a payload is written to it. -/
def column (payload : Payload) : Except StoreError Payload :=
  orRaise (red.jsonb payload) .columnRefused

/-- `_intent_from_record`. -/
def intentFromRecord (r : OperationRow) (isNew : Bool) : Except StoreError (OperationIntent red) :=
  if h : wellFormed red r = true then .ok ⟨r, isNew, h⟩ else .error .malformed

def findByKey (store : Store) (key : String) : Option OperationRow :=
  (store.rows.find? fun r => r.2.idempotencyKey == key).map Prod.snd

/-- `_validate_execution_request`. -/
def validateExecutionRequest (owner : Option String) (lease : Option ℤ) :
    Except StoreError Unit :=
  match owner, lease with
  | none, none => .ok ()
  | none, some _ => .error (.valueError "an execution lease duration requires an owner")
  | some o, lease => do
    require (o ≠ "" ∧ o.length ≤ 255)
      (.valueError "operation execution owner must contain 1-255 characters")
    match lease with
    | none => .error (.valueError "an execution owner requires a lease duration")
    | some l =>
      require (validLease l = true)
        (.valueError "lease duration must be at least 1 second and at most 86400 seconds")

/-- `OperationRequest.__post_init__` with its messages. -/
def validateRequest (kind idempotencyKey requestDigest : String) (requestSchemaVersion : ℤ) :
    Except StoreError Unit := do
  require (kind ≠ "" ∧ kind.length ≤ 96)
    (.valueError "operation kind must contain 1-96 characters")
  require (idempotencyKey ≠ "" ∧ idempotencyKey.length ≤ 255)
    (.valueError "idempotency key must contain 1-255 characters")
  require (isHexOfLength 64 requestDigest = true)
    (.valueError "request digest must be lowercase hexadecimal SHA-256")
  require (requestSchemaVersion = 1)
    (.valueError ("unsupported operation request schema: " ++ toString requestSchemaVersion))

/-- `_require_execution_owner`: the named owner, with an expiry after `now`. -/
def ownsExecution (r : OperationRow) (owner : Option String) (now : ℤ) : Bool :=
  owner.isSome && r.executionOwner == owner && r.executionLeaseExpiresAt.any (now < ·)

structure BeginArgs where
  runId : UUID
  operationType : Option String
  idempotencyKey : String
  requestDigest : String
  requestPayload : Payload
  requestSchemaVersion : ℤ
  kind : Option String
  operationKind : Option String
  executionOwner : Option String
  executionLease : Option ℤ
  operationId : Option UUID
  deriving DecidableEq, Repr

/-- `operation_type or kind or operation_kind`: an empty text counts as absent
until the last. -/
def resolvedKind (args : BeginArgs) : Option String :=
  match args.operationType.filter (· != "") with
  | some k => some k
  | none => match args.kind.filter (· != "") with
    | some k => some k
    | none => args.operationKind

def candidateRow (args : BeginArgs) (kind : String) (id : UUID) (now : ℤ) : OperationRow where
  id := id
  runId := args.runId
  kind := kind
  idempotencyKey := args.idempotencyKey
  requestDigest := args.requestDigest
  requestPayload := args.requestPayload
  requestSchemaVersion := args.requestSchemaVersion
  status := .pending
  remoteResourceId := none
  attempt := if args.executionOwner.isSome then 1 else 0
  startedAt := none
  completedAt := none
  outcome := none
  outcomeSchemaVersion := none
  error := none
  executionOwner := args.executionOwner
  executionLeaseExpiresAt :=
    if args.executionOwner.isSome then args.executionLease.map (now + ·) else none

/-- `_check_begin_match`: the idempotency key itself is not compared, and the payload
is the one that was read back from the row. -/
def beginMatches (expected actual : OperationRow) : Bool :=
  expected.runId == actual.runId && expected.kind == actual.kind &&
    expected.requestDigest == actual.requestDigest &&
    expected.requestSchemaVersion == actual.requestSchemaVersion &&
    expected.requestPayload == actual.requestPayload

/-- `_begin_core` (`operations.py:129-188`): `INSERT ... ON CONFLICT
(idempotency_key) DO NOTHING`, then the row by identity, else by key. -/
def beginCore (store : Store) (candidate : OperationRow) :
    Except StoreError (Store × OperationIntent red) := do
  -- the values of the statement are read before the conflict is looked for
  let stored ← column red candidate.requestPayload
  match findByKey store candidate.idempotencyKey with
  | none =>
    match store.get candidate.id with
    | some _ => .error (.duplicateIdentity candidate.id)
    | none => do
      let record := { candidate with requestPayload := stored }
      let intent ← intentFromRecord red record true
      return (store.put candidate.id record, intent)
  | some byKey => do
    let intent ← intentFromRecord red ((store.get candidate.id).getD byKey) false
    require (beginMatches candidate intent.row = true)
      (.idempotencyConflict candidate.idempotencyKey)
    return (store, intent)

/-- `begin` (`operations.py:65-127`). `freshId` is the `uuid4()` taken when the
caller names no identity, `runLoads` whether the locked run row loads. -/
def beginIntent (store : Store) (args : BeginArgs) (freshId : UUID) (runLoads : Bool)
    (now : ℤ) : Except StoreError (Store × OperationIntent red) := do
  require (args.operationId ≠ some 0) (.valueError "operation identity must be a non-nil UUID")
  match resolvedKind args with
  | none => .error (.valueError "operation type is required")
  | some kind => do
    validateRequest kind args.idempotencyKey args.requestDigest args.requestSchemaVersion
    validateExecutionRequest args.executionOwner args.executionLease
    require (runLoads = true) .runUnavailable
    let result ← beginCore red store (candidateRow args kind (args.operationId.getD freshId) now)
    require (∀ id ∈ args.operationId, result.2.row.id = id)
      (.valueError "operation replay identity conflicts")
    return result

/-- `_locked`. -/
def locked (store : Store) (id : UUID) : Except StoreError OperationRow :=
  match store.get id with
  | some r => .ok r
  | none => .error (.notFound id)

structure OperationExecutionClaim where
  intent : OperationIntent red
  acquired : Bool

/-- A live owner at the claimant's clock. -/
def liveOwner (r : OperationRow) (now : ℤ) : Bool :=
  r.executionOwner.isSome && r.executionLeaseExpiresAt.any (now < ·)

def claimedRow (r : OperationRow) (owner : String) (expiry now : ℤ) : OperationRow :=
  { r with
    executionOwner := some owner
    executionLeaseExpiresAt := some expiry
    attempt := r.attempt + 1
    startedAt := some (r.startedAt.getD now) }

/-- `claim_for_recovery` (`operations.py:190-229`). -/
def claimForRecovery (store : Store) (id : UUID) (owner : String) (lease now : ℤ) :
    Except StoreError (Store × OperationExecutionClaim red) := do
  validateExecutionRequest (some owner) (some lease)
  let r ← locked store id
  let current ← intentFromRecord red r false
  if r.status.terminal || liveOwner r now then return (store, ⟨current, false⟩)
  else do
    let claimed := claimedRow r owner (now + lease) now
    let intent ← intentFromRecord red claimed false
    return (store.put id claimed, ⟨intent, true⟩)

/-- `renew_execution` (`operations.py:231-254`). -/
def renewExecution (store : Store) (id : UUID) (owner : String) (lease now : ℤ) :
    Except StoreError (Store × OperationIntent red) := do
  validateExecutionRequest (some owner) (some lease)
  let r ← locked store id
  require (ownsExecution r (some owner) now = true) (.leaseError id)
  let renewed := { r with executionLeaseExpiresAt := some (now + lease) }
  let intent ← intentFromRecord red renewed false
  return (store.put id renewed, intent)

/-- `get` (`operations.py:256-261`). -/
def getIntent (store : Store) (id : UUID) : Except StoreError (OperationIntent red) := do
  let r ← locked store id
  intentFromRecord red r false

/-- The row after `complete`, with the outcome payload as the column holds it. -/
def completedRow (r : OperationRow) (outcome : OperationOutcome red) (stored : Payload) (now : ℤ) :
    OperationRow :=
  { r with
    status := .succeeded
    remoteResourceId := outcome.remoteResourceId
    outcomeSchemaVersion := some outcome.outcomeSchemaVersion
    outcome := some stored
    completedAt := some now
    error := none
    executionOwner := none
    executionLeaseExpiresAt := none
    startedAt := some (r.startedAt.getD now) }

/-- `complete` (`operations.py:278-322`); the lease check and the completion time read
the clock separately. A settled row is compared with the outcome as it is given, the
row that is written is refreshed from the table. -/
def complete (store : Store) (id : UUID) (outcome : OperationOutcome red) (owner : Option String)
    (checkedAt now : ℤ) : Except StoreError (Store × OperationIntent red) := do
  require (outcome.status = .succeeded)
    (.valueError "complete requires a succeeded operation outcome")
  let r ← locked store id
  match r.status with
  | .succeeded => do
    let existing ← intentFromRecord red r false
    require (r.remoteResourceId = outcome.remoteResourceId ∧ r.outcome = some outcome.payload)
      (.stateConflict id "already has a different outcome")
    return (store, existing)
  | .failed => .error (.stateConflict id "is already terminal: FAILED")
  | .pending | .needsReconciliation => do
    require (ownsExecution r owner checkedAt = true) (.leaseError id)
    let stored ← column red outcome.payload
    let completed := completedRow red r outcome stored now
    let intent ← intentFromRecord red completed false
    return (store.put id completed, intent)

def failedRow (r : OperationRow) (error : String) (needsReconciliation : Bool) (now : ℤ) :
    OperationRow :=
  { r with
    status := if needsReconciliation then .needsReconciliation else .failed
    error := some error
    completedAt := if needsReconciliation then none else some now
    outcome := none
    outcomeSchemaVersion := none
    remoteResourceId := none
    executionOwner := none
    executionLeaseExpiresAt := none
    startedAt := some (r.startedAt.getD now) }

/-- `fail` (`operations.py:324-375`): a settlement, or with
`needs_reconciliation` the mark that the outcome is unknown. -/
def fail (store : Store) (id : UUID) (error : String) (needsReconciliation : Bool)
    (owner : Option String) (checkedAt now : ℤ) :
    Except StoreError (Store × OperationIntent red) := do
  let bounded := boundedError red error
  let r ← locked store id
  if r.status = .failed ∧ needsReconciliation = false then do
    let existing ← intentFromRecord red r false
    require (r.error = some bounded) (.stateConflict id "already has a different failure")
    return (store, existing)
  else if r.status = .succeeded then .error (.stateConflict id "already succeeded")
  else do
    require (ownsExecution r owner checkedAt = true) (.leaseError id)
    let failed := failedRow r bounded needsReconciliation now
    let intent ← intentFromRecord red failed false
    return (store.put id failed, intent)

/-- One store call, with the clock readings it makes. -/
inductive StoreOp
  | begin (args : BeginArgs) (freshId : UUID) (runLoads : Bool) (now : ℤ)
  | claim (id : UUID) (owner : String) (lease now : ℤ)
  | renew (id : UUID) (owner : String) (lease now : ℤ)
  | complete (id : UUID) (outcome : OperationOutcome red) (owner : Option String)
      (checkedAt now : ℤ)
  | fail (id : UUID) (error : String) (needsReconciliation : Bool) (owner : Option String)
      (checkedAt now : ℤ)

/-- The table after a call and the intent it returned. -/
def StoreOp.call (store : Store) : StoreOp red → Except StoreError (Store × OperationIntent red)
  | .begin args freshId runLoads now => beginIntent red store args freshId runLoads now
  | .claim id owner lease now =>
    (claimForRecovery red store id owner lease now).map fun p => (p.1, p.2.intent)
  | .renew id owner lease now => renewExecution red store id owner lease now
  | .complete id outcome owner checkedAt now =>
    Operation.complete red store id outcome owner checkedAt now
  | .fail id error needs owner checkedAt now =>
    Operation.fail red store id error needs owner checkedAt now

/-- A call that raises is rolled back. -/
def storeStep (store : Store) (op : StoreOp red) : Store :=
  match op.call red store with
  | .ok p => p.1
  | .error _ => store

end ParallelForge.Operation
