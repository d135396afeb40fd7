import ParallelForge.Durable

/-!
# Operation intents (`domain/operation.py`)

One durable record for one external side effect. A row is what the table
holds; an `OperationIntent` is a row that passed `__post_init__`, so it cannot
be terminal and leased, or succeeded without an outcome.
-/

namespace ParallelForge.Operation
open Base

inductive OperationStatus
  | pending
  | succeeded
  | failed
  | needsReconciliation
  deriving DecidableEq, Repr

def OperationStatus.terminal (s : OperationStatus) : Bool := s == .succeeded || s == .failed

structure OperationRow where
  id : UUID
  runId : UUID
  kind : String
  idempotencyKey : String
  requestDigest : String
  requestPayload : Payload
  requestSchemaVersion : ℤ
  status : OperationStatus
  remoteResourceId : Option String
  attempt : ℕ
  startedAt : Option ℤ
  completedAt : Option ℤ
  outcome : Option Payload
  outcomeSchemaVersion : Option ℤ
  error : Option String
  executionOwner : Option String
  executionLeaseExpiresAt : Option ℤ
  deriving DecidableEq, Repr

/-- `OperationRequest.__post_init__`. -/
def requestShape (kind idempotencyKey requestDigest : String) (requestSchemaVersion : ℤ) : Bool :=
  kind != "" && kind.length ≤ 96 && idempotencyKey != "" && idempotencyKey.length ≤ 255 &&
    isHexOfLength 64 requestDigest && requestSchemaVersion == 1

/-- The execution owner and its expiry come together. -/
def ownerShape (owner : Option String) (expiry : Option ℤ) : Bool :=
  owner.all (fun o => o != "" && o.length ≤ 255) && owner.isSome == expiry.isSome

/-- The outcome columns come together and only with success. -/
def outcomeShape (r : OperationRow) : Bool :=
  r.outcomeSchemaVersion.all (· == 1) && r.outcome.isSome == r.outcomeSchemaVersion.isSome &&
    r.outcome.isSome == (r.status == .succeeded)

/-- What each status says about the completion time, the error and the lease. -/
def statusShape (r : OperationRow) : Bool :=
  match r.status with
  | .succeeded => r.completedAt.isSome && r.executionOwner.isNone && r.executionLeaseExpiresAt.isNone
  | .failed => r.completedAt.isSome && r.executionOwner.isNone &&
      r.executionLeaseExpiresAt.isNone && r.error.any (· != "")
  | .pending | .needsReconciliation => r.completedAt.isNone

/-- `OperationIntent.__post_init__` (`domain/operation.py:158-224`). -/
def wellFormed (red : Durability) (r : OperationRow) : Bool :=
  requestShape r.kind r.idempotencyKey r.requestDigest r.requestSchemaVersion &&
    ownerShape r.executionOwner r.executionLeaseExpiresAt && outcomeShape r &&
    validDurableError red r.error && statusShape r

/-- The immutable record handed to callers; `isNew` is set by `begin` alone. -/
structure OperationIntent (red : Durability) where
  row : OperationRow
  isNew : Bool
  valid : wellFormed red row = true

/-- `OperationOutcome.__post_init__`. -/
def outcomeValid (red : Durability) (remoteResourceId : Option String) (status : OperationStatus)
    (error : Option String) (outcomeSchemaVersion : ℤ) : Bool :=
  status != .pending && outcomeSchemaVersion == 1 &&
    remoteResourceId.all (fun r => r.length ≤ 1024) && validDurableError red error

/-- The result returned by invocation or reconciliation. -/
structure OperationOutcome (red : Durability) where
  remoteResourceId : Option String
  payload : Payload
  status : OperationStatus
  error : Option String
  outcomeSchemaVersion : ℤ
  valid : outcomeValid red remoteResourceId status error outcomeSchemaVersion = true

theorem wellFormed_status (red : Durability) (r : OperationRow) (h : wellFormed red r = true) :
    statusShape r = true := by
  simp only [wellFormed, Bool.and_eq_true] at h
  exact h.2

/- A terminal intent has no execution owner. -/
theorem wellFormed_terminal (red : Durability) (r : OperationRow) (h : wellFormed red r = true)
    (ht : r.status.terminal = true) : r.executionOwner = none := by
  have hs := wellFormed_status red r h
  unfold statusShape at hs
  cases hst : r.status with
  | pending => rw [hst] at ht; exact absurd ht (by decide)
  | needsReconciliation => rw [hst] at ht; exact absurd ht (by decide)
  | succeeded =>
    simp only [hst, Bool.and_eq_true, Option.isNone_iff_eq_none] at hs
    exact hs.1.2
  | failed =>
    simp only [hst, Bool.and_eq_true, Option.isNone_iff_eq_none] at hs
    exact hs.1.1.2

end ParallelForge.Operation
