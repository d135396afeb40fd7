import ParallelForge.Base.Run
import ParallelForge.Base.Table
import ParallelForge.Durable
import ParallelForge.Run.Snapshot
import Mathlib.Algebra.Group.Int.Defs
import Mathlib.Data.List.Sort

/-!
# Durable commands (`persistence/repositories/commands.py`)

Every method takes the clock reading it made before its transaction began.
A method that raises leaves the tables as they were.
-/

namespace ParallelForge.Command
open Base Run

inductive CommandStatus
  | pending
  | leased
  | completed
  | failed
  | cancelled
  deriving DecidableEq, Repr

structure CommandRow where
  id : UUID
  runId : UUID
  commandType : String
  idempotencyKey : String
  payload : Payload
  expectedRunVersion : ℤ
  actorId : Option UUID
  payloadSchemaVersion : ℤ
  status : CommandStatus
  attempt : ℕ
  availableAt : ℤ
  leaseOwner : Option String
  leaseExpiresAt : Option ℤ
  createdAt : ℤ
  completedAt : Option ℤ
  errorSummary : Option String
  deriving DecidableEq, Repr

/-- `_CONTROL_COMMAND_TYPES`. -/
def isControl (commandType : String) : Bool := commandType == "pause" || commandType == "cancel"

/-- `CommandEnvelope.__post_init__` (`domain/command.py:85-127`). -/
def wellFormed (red : Durability) (r : CommandRow) : Bool :=
  r.commandType != "" && r.commandType.length ≤ 96 &&
    r.idempotencyKey != "" && r.idempotencyKey.length ≤ 255 &&
    0 ≤ r.expectedRunVersion && r.payloadSchemaVersion == 1 &&
    (match r.status with
      | .leased => r.leaseOwner.any (· != "") && r.leaseExpiresAt.isSome
      | _ => r.leaseOwner.isNone && r.leaseExpiresAt.isNone) &&
    (match r.status with
      | .completed | .failed | .cancelled => r.completedAt.isSome
      | .pending | .leased => r.completedAt.isNone) &&
    validDurableError red r.errorSummary

inductive CommandError
  | valueError (message : String)
  | notFound (id : UUID)
  | duplicateIdentity (id : UUID)
  | idempotencyConflict (key : String)
  | leaseError (worker : String) (id : UUID)
  | failedDifferently (id : UUID)
  | dataError (message : String)
  | columnRefused
  deriving DecidableEq, Repr

/-- The command table and what `claim_next` reads of the other tables: the run
rows, the runs with an active usage checkpoint, the runs held after a startup
intervention, and the recovery barrier row. -/
structure Db where
  commands : Table UUID CommandRow
  runState : UUID → Option RunState
  checkpointed : UUID → Bool
  startupInterventionHold : UUID → Bool
  barrierRequired : Option Bool

variable (red : Durability)

/-- What the JSONB column holds once a payload is written to it. -/
def column (payload : Payload) : Except CommandError Payload :=
  orRaise (red.jsonb payload) .columnRefused

/-- `_command_from_record`. -/
def commandFromRecord (r : CommandRow) : Except CommandError CommandRow :=
  if wellFormed red r then .ok r else .error (.dataError "stored command is malformed")

def Db.put (db : Db) (r : CommandRow) : Db := { db with commands := db.commands.put r.id r }

/-- Write a row, then load it as the result. -/
def store (db : Db) (r : CommandRow) : Except CommandError (Db × CommandRow) := do
  let envelope ← commandFromRecord red r
  return (db.put r, envelope)

/-- `_validate_worker_and_lease`. -/
def validateWorkerAndLease (worker : String) (lease : ℤ) : Except CommandError Unit := do
  require (worker ≠ "" ∧ worker.length ≤ 255)
    (.valueError "worker id must contain 1-255 characters")
  require (validLease lease = true)
    (.valueError "lease duration must be at least 1 second and at most 86400 seconds")

def locked (db : Db) (id : UUID) : Except CommandError CommandRow :=
  match db.commands.get id with
  | some r => .ok r
  | none => .error (.notFound id)

/-- `_require_owned_lease` (`commands.py:647-654`). -/
def ownsLease (r : CommandRow) (worker : String) (now : ℤ) : Bool :=
  r.status == .leased && r.leaseOwner == some worker && r.leaseExpiresAt.any (now < ·)

/-- A lease that has not ended at `now`. -/
def liveAt (r : CommandRow) (now : ℤ) : Bool :=
  r.status == .leased && r.leaseExpiresAt.any (now < ·)

structure EnqueueArgs where
  id : UUID
  runId : UUID
  commandType : String
  idempotencyKey : String
  payload : Payload
  expectedRunVersion : ℤ
  actorId : Option UUID
  payloadSchemaVersion : ℤ
  availableAt : Option ℤ
  createdAt : ℤ
  deriving DecidableEq, Repr

def enqueuedRow (args : EnqueueArgs) (now : ℤ) : CommandRow where
  id := args.id
  runId := args.runId
  commandType := args.commandType
  idempotencyKey := args.idempotencyKey
  payload := args.payload
  expectedRunVersion := args.expectedRunVersion
  actorId := args.actorId
  payloadSchemaVersion := args.payloadSchemaVersion
  status := .pending
  attempt := 0
  availableAt := args.availableAt.getD now
  leaseOwner := none
  leaseExpiresAt := none
  createdAt := args.createdAt
  completedAt := none
  errorSummary := none

/-- The checks of `CommandEnvelope` a new command can fail. -/
def validateEnqueue (args : EnqueueArgs) : Except CommandError Unit := do
  require (args.commandType ≠ "" ∧ args.commandType.length ≤ 96)
    (.valueError "command type must contain 1-96 characters")
  require (args.idempotencyKey ≠ "" ∧ args.idempotencyKey.length ≤ 255)
    (.valueError "idempotency key must contain 1-255 characters")
  require (0 ≤ args.expectedRunVersion)
    (.valueError "command versions and attempts must be nonnegative")
  require (args.payloadSchemaVersion = 1)
    (.valueError ("unsupported command payload schema: " ++ toString args.payloadSchemaVersion))

/-- `_check_enqueue_match`. -/
def enqueueMatches (expected actual : CommandRow) (compareAvailability : Bool) : Bool :=
  expected.runId == actual.runId && expected.commandType == actual.commandType &&
    expected.expectedRunVersion == actual.expectedRunVersion &&
    expected.actorId == actual.actorId &&
    expected.payloadSchemaVersion == actual.payloadSchemaVersion &&
    expected.payload == actual.payload &&
    (!compareAvailability || expected.availableAt == actual.availableAt)

/-- `enqueue` (`commands.py:62-150`); `args.id` is the fresh `uuid4()`. The row holds
what the JSONB column gives back of the payload, and a later request is compared with that. -/
def enqueue (db : Db) (args : EnqueueArgs) (now : ℤ) : Except CommandError (Db × CommandRow) := do
  validateEnqueue args
  let candidate := enqueuedRow args now
  let stored ← column red candidate.payload
  match db.commands.rows.find? fun r => r.2.idempotencyKey == args.idempotencyKey with
  | none =>
    match db.commands.get candidate.id with
    | some _ => .error (.duplicateIdentity candidate.id)
    | none => store red db { candidate with payload := stored }
  | some byKey => do
    let actual ← commandFromRecord red ((db.commands.get candidate.id).getD byKey.2)
    require (enqueueMatches candidate actual args.availableAt.isSome = true)
      (.idempotencyConflict args.idempotencyKey)
    return (db, actual)

inductive CommandLane
  | normal
  | control
  deriving DecidableEq, Repr

/-- The order of delivery: availability, creation, identity. -/
def deliveredBefore (a b : CommandRow) : Prop :=
  a.availableAt < b.availableAt ∨ (a.availableAt = b.availableAt ∧
    (a.createdAt < b.createdAt ∨ (a.createdAt = b.createdAt ∧ a.id ≤ b.id)))

instance (a b : CommandRow) : Decidable (deliveredBefore a b) :=
  inferInstanceAs (Decidable (_ ∨ (_ ∧ (_ ∨ (_ ∧ _)))))

def eligible (lane : CommandLane) (now : ℤ) (r : CommandRow) : Bool :=
  r.availableAt ≤ now && (r.status == .pending ||
    (r.status == .leased && r.leaseExpiresAt.any (· ≤ now))) &&
    (isControl r.commandType == (lane == .control))

/-- Each turn of the loop selects the first eligible row not skipped so far; the
transaction changes none of them before it grants one, so the turns go along
one sorted list. Rows locked by other transactions are passed over. -/
def candidates (db : Db) (lane : CommandLane) (now : ℤ) (lockedRows : List UUID) :
    List CommandRow :=
  ((db.commands.rows.map Prod.snd).filter fun r =>
    eligible lane now r && !lockedRows.contains r.id).insertionSort deliveredBefore

/-- Another command of the run that satisfies `p`. -/
def other (db : Db) (record : CommandRow) (p : CommandRow → Bool) : Bool :=
  db.commands.any fun _ r => r.runId == record.runId && r.id != record.id && p r

/-- The run's state keeps a normal command back. -/
def heldByRun (state : RunState) (commandType : String) : Bool :=
  (state == .paused && commandType != "resume") ||
    (isTerminalState state && commandType != "teardown_run_resources")

/-- The checks made on a selected row before it is granted (`commands.py:252-318`). -/
def blocked (db : Db) (lane : CommandLane) (now : ℤ) (state : RunState) (record : CommandRow) :
    Bool :=
  let activeNormal := other db record fun r => liveAt r now && !isControl r.commandType
  let activeControl := other db record fun r => liveAt r now && isControl r.commandType
  let pendingControl := other db record fun r =>
    r.status == .pending && r.availableAt ≤ now && isControl r.commandType
  match lane with
  | .control => activeControl
  | .normal => db.checkpointed record.runId || db.startupInterventionHold record.runId ||
      heldByRun state record.commandType || activeNormal || activeControl || pendingControl

/-- The `while True` loop of `claim_next`. -/
def claimFrom (db : Db) (lane : CommandLane) (now : ℤ) :
    List CommandRow → Except CommandError (Option CommandRow)
  | [] => .ok none
  | record :: rest =>
    match db.runState record.runId with
    | none => .error (.dataError "command references a missing run")
    | some state => if blocked db lane now state record then claimFrom db lane now rest
        else .ok (some record)

def leasedRow (r : CommandRow) (worker : String) (expiry : ℤ) : CommandRow :=
  { r with
    status := .leased
    leaseOwner := some worker
    leaseExpiresAt := some expiry
    attempt := r.attempt + 1
    completedAt := none }

/-- `claim_next` (`commands.py:197-334`). -/
def claimNext (db : Db) (worker : String) (lease : ℤ) (lane : CommandLane) (now : ℤ)
    (lockedRows : List UUID) : Except CommandError (Db × Option CommandRow) := do
  validateWorkerAndLease worker lease
  match db.barrierRequired with
  | none => .error (.dataError "recovery singleton is missing")
  | some true => return (db, none)
  | some false => do
    let chosen ← claimFrom db lane now (candidates db lane now lockedRows)
    match chosen with
    | none => return (db, none)
    | some record => do
      let (db', envelope) ← store red db (leasedRow record worker (now + lease))
      return (db', some envelope)

/-- `renew` (`commands.py:336-346`). -/
def renew (db : Db) (id : UUID) (worker : String) (lease now : ℤ) :
    Except CommandError (Db × CommandRow) := do
  validateWorkerAndLease worker lease
  let r ← locked db id
  require (ownsLease r worker now = true) (.leaseError worker id)
  store red db { r with leaseExpiresAt := some (now + lease) }

/-- The row a settlement leaves: no lease, a completion time. -/
def settledRow (r : CommandRow) (status : CommandStatus) (now : ℤ) (error : Option String) :
    CommandRow :=
  { r with
    status := status
    leaseOwner := none
    leaseExpiresAt := none
    completedAt := some now
    errorSummary := error }

/-- `complete` (`commands.py:551-571`). -/
def complete (db : Db) (id : UUID) (worker : String) (now : ℤ) :
    Except CommandError (Db × CommandRow) := do
  let r ← locked db id
  if r.status = .completed then do
    let envelope ← commandFromRecord red r
    return (db, envelope)
  else do
    require (ownsLease r worker now = true) (.leaseError worker id)
    store red db (settledRow r .completed now none)

/-- Microseconds until a transient failure is delivered again. -/
def retryDelay (attempt : ℕ) : ℤ := min 300 (2 ^ min (attempt - 1) 8) * 1000000

def retriedRow (r : CommandRow) (now : ℤ) (error : String) : CommandRow :=
  { r with
    status := .pending
    leaseOwner := none
    leaseExpiresAt := none
    completedAt := none
    availableAt := now + retryDelay r.attempt
    errorSummary := some error }

/-- `fail` (`commands.py:573-602`). -/
def fail (db : Db) (id : UUID) (worker error : String) (transient : Bool) (now : ℤ) :
    Except CommandError (Db × CommandRow) := do
  let bounded := boundedError red error
  let r ← locked db id
  if r.status = .failed ∧ transient = false then do
    require (r.errorSummary = some bounded) (.failedDifferently id)
    let envelope ← commandFromRecord red r
    return (db, envelope)
  else do
    require (ownsLease r worker now = true) (.leaseError worker id)
    store red db (if transient then retriedRow r now bounded
      else settledRow r .failed now (some bounded))

/-- `cancel` (`commands.py:604-619`). -/
def cancel (db : Db) (id : UUID) (worker reason : String) (now : ℤ) :
    Except CommandError (Db × CommandRow) := do
  let r ← locked db id
  if r.status = .cancelled then do
    let envelope ← commandFromRecord red r
    return (db, envelope)
  else do
    require (ownsLease r worker now = true) (.leaseError worker id)
    store red db (settledRow r .cancelled now (some (boundedError red reason)))

end ParallelForge.Command
