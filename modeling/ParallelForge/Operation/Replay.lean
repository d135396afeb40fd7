import ParallelForge.Command.Exclusion
import ParallelForge.Operation.Fingerprint
import ParallelForge.Operation.Settlement

/-!
# Replays of `begin` and `enqueue` (`persistence/repositories/operations.py`, `commands.py`)

A request whose idempotency key is taken is compared with one row: the row of the
identity it brings, if there is one, else the row of the key. It is a replay exactly
if it agrees with that row, where the row's payload is the one the JSONB column gives
back. An exact repeat is a replay as far as the column keeps the payload.
-/

namespace ParallelForge.Operation
open Base

section operations
variable {red : Durability} {isAlnum : ℕ → Bool}

/-- The checks that `begin` makes on a request before it looks for the row, the
column's own check of the payload included. -/
structure Admitted (red : Durability) (args : BeginArgs) (kind : String) : Prop where
  nonNil : args.operationId ≠ some 0
  resolved : resolvedKind args = some kind
  request : validateRequest kind args.idempotencyKey args.requestDigest args.requestSchemaVersion = .ok ()
  execution : validateExecutionRequest args.executionOwner args.executionLease = .ok ()
  column : ∃ stored, red.jsonb args.requestPayload = some stored

/-- The columns of a row that only `begin` writes. -/
def OperationRow.request (r : OperationRow) : UUID × UUID × String × String × String × Payload × ℤ :=
  (r.id, r.runId, r.kind, r.idempotencyKey, r.requestDigest, r.requestPayload, r.requestSchemaVersion)

end operations

/-! ## Commands -/

section commands
open Command
variable {red : Durability} {isAlnum : ℕ → Bool}

end commands

/-! ## The fingerprint -/

def asciiAlnum (c : ℕ) : Bool :=
  (48 ≤ c && c ≤ 57) || (65 ≤ c && c ≤ 90) || (97 ≤ c && c ≤ 122)

end ParallelForge.Operation
