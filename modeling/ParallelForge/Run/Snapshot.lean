import ParallelForge.Base.Result
import ParallelForge.Base.Text

/-!
# Run states and snapshots (`domain/run.py`, `domain/approval.py`, `domain/resource.py`)

A `RunSnapshot` carries what its `__post_init__` checks: the resource columns
have a persisted shape, and an approval state, and no other, comes with its
gate and a SHA-256 digest of the evidence.
-/

namespace ParallelForge.Run
open Base

inductive RunState
  | created
  | planning
  | awaitingPlanApproval
  | preparingWorktree
  | implementing
  | validating
  | reviewing
  | remediating
  | awaitingPrApproval
  | publishingPr
  | monitoringPr
  | awaitingHumanIntervention
  | awaitingMergeApproval
  | merging
  | paused
  | completed
  | failed
  | cancelled
  deriving DecidableEq, Repr

namespace RunState

def value : RunState → String
  | created => "CREATED"
  | planning => "PLANNING"
  | awaitingPlanApproval => "AWAITING_PLAN_APPROVAL"
  | preparingWorktree => "PREPARING_WORKTREE"
  | implementing => "IMPLEMENTING"
  | validating => "VALIDATING"
  | reviewing => "REVIEWING"
  | remediating => "REMEDIATING"
  | awaitingPrApproval => "AWAITING_PR_APPROVAL"
  | publishingPr => "PUBLISHING_PR"
  | monitoringPr => "MONITORING_PR"
  | awaitingHumanIntervention => "AWAITING_HUMAN_INTERVENTION"
  | awaitingMergeApproval => "AWAITING_MERGE_APPROVAL"
  | merging => "MERGING"
  | paused => "PAUSED"
  | completed => "COMPLETED"
  | failed => "FAILED"
  | cancelled => "CANCELLED"

def all : List RunState :=
  [created, planning, awaitingPlanApproval, preparingWorktree, implementing, validating,
    reviewing, remediating, awaitingPrApproval, publishingPr, monitoringPr,
    awaitingHumanIntervention, awaitingMergeApproval, merging, paused, completed, failed,
    cancelled]

/-- `RunState(value)`: lookup by enumeration value. -/
def ofValue (v : String) : Option RunState := all.find? fun s => s.value == v

theorem ofValue_value (s : RunState) : ofValue s.value = some s := by
  cases s <;> decide

end RunState

inductive SuspensionKind
  | pause
  | intervention
  deriving DecidableEq, Repr

namespace SuspensionKind

def value : SuspensionKind → String
  | pause => "PAUSE"
  | intervention => "INTERVENTION"

def ofValue (v : String) : Option SuspensionKind := [pause, intervention].find? fun k => k.value == v

theorem ofValue_value (k : SuspensionKind) : ofValue k.value = some k := by
  cases k <;> decide

end SuspensionKind

inductive ApprovalGate
  | plan
  | pr
  | merge
  deriving DecidableEq, Repr

namespace ApprovalGate

def value : ApprovalGate → String
  | plan => "plan"
  | pr => "pr"
  | merge => "merge"

def ofValue (v : String) : Option ApprovalGate := [plan, pr, merge].find? fun g => g.value == v

theorem ofValue_value (g : ApprovalGate) : ofValue g.value = some g := by
  cases g <;> decide

end ApprovalGate

/-- `_APPROVAL_STATE_BY_GATE` and its inverse. -/
def approvalStateByGate : ApprovalGate → RunState
  | .plan => .awaitingPlanApproval
  | .pr => .awaitingPrApproval
  | .merge => .awaitingMergeApproval

def approvalGateByState : RunState → Option ApprovalGate
  | .awaitingPlanApproval => some .plan
  | .awaitingPrApproval => some .pr
  | .awaitingMergeApproval => some .merge
  | _ => none

theorem approvalGateByState_eq (s : RunState) (g : ApprovalGate) :
    approvalGateByState s = some g ↔ approvalStateByGate g = s := by
  cases s <;> cases g <;> decide

def isApprovalState (s : RunState) : Bool := (approvalGateByState s).isSome

def isTerminalState (s : RunState) : Bool := s == .completed || s == .failed || s == .cancelled

def isDigest (d : String) : Bool := isHexOfLength 64 d

/-- The closed state/gate/digest shape checked by `_validate_pending_metadata`
(`domain/run.py:191-215`). -/
def pendingShape (state : RunState) (gate : Option ApprovalGate) (digest : Option String) : Bool :=
  match approvalGateByState state with
  | none => gate.isNone && digest.isNone
  | some g => gate == some g && digest.any isDigest

/-- The same check with the messages of the source, in its order. -/
def validatePendingMetadata (fieldName : String) (state : RunState)
    (gate : Option ApprovalGate) (digest : Option String) : Except String Unit :=
  if !isApprovalState state then
    if gate.isSome || digest.isSome then
      .error (fieldName ++ " pending approval metadata is not allowed for this state")
    else .ok ()
  else if gate.map approvalStateByGate ≠ some state then
    .error (fieldName ++ " pending gate does not match its approval state")
  else if !digest.any isDigest then
    .error (fieldName ++ " pending evidence digest must be lowercase SHA-256")
  else .ok ()

theorem validatePendingMetadata_ok_iff (f : String) (s : RunState) (g : Option ApprovalGate)
    (d : Option String) : validatePendingMetadata f s g d = .ok () ↔ pendingShape s g d = true := by
  unfold validatePendingMetadata pendingShape isApprovalState
  cases hs : approvalGateByState s with
  | none => cases g <;> cases d <;> simp
  | some g' =>
    have hg : g.map approvalStateByGate = some s ↔ g = some g' := by
      cases g with
      | none => simp
      | some g =>
        rw [Option.map_some, Option.some_inj, Option.some_inj, ← approvalGateByState_eq, hs,
          Option.some_inj]
        exact eq_comm
    by_cases h : g = some g'
    · have hs' : approvalStateByGate g' = s := (approvalGateByState_eq s g').mp hs
      subst h
      cases d.any isDigest <;> simp [hs']
    · have hn : g.map approvalStateByGate ≠ some s := fun hc => h (hg.mp hc)
      simp [hn, h]

theorem pendingShape_of_validated {f : String} {s : RunState} {g : Option ApprovalGate}
    {d : Option String} (h : validatePendingMetadata f s g d = .ok ()) : pendingShape s g d = true :=
  (validatePendingMetadata_ok_iff f s g d).mp h

inductive ResourceState
  | disabled
  | provisioning
  | active
  | failed
  | removed
  deriving DecidableEq, Repr

namespace ResourceState

def value : ResourceState → String
  | disabled => "DISABLED"
  | provisioning => "PROVISIONING"
  | active => "ACTIVE"
  | failed => "FAILED"
  | removed => "REMOVED"

def ofValue (v : String) : Option ResourceState :=
  [disabled, provisioning, active, failed, removed].find? fun s => s.value == v

theorem ofValue_value (s : ResourceState) : ofValue s.value = some s := by
  cases s <;> decide

end ResourceState

def validPostgresIdentifier (v : String) : Bool :=
  v != "" && v == strip v && v.utf8ByteSize ≤ 63 && isIdentifier v

/-- `_validate_postgres_identifier` (`domain/resource.py:156-162`). -/
def validatePostgresIdentifier (value name : String) : Except String Unit :=
  if value = "" ∨ value ≠ strip value then
    .error (name ++ " must be a nonblank PostgreSQL identifier")
  else if 63 < value.utf8ByteSize then .error (name ++ " must be at most 63 bytes")
  else if isIdentifier value = false then .error (name ++ " is not a safe PostgreSQL identifier")
  else .ok ()

def validSecretId (v : String) : Bool :=
  v != "" && v == strip v && decide (Char.ofNat 0 ∉ v.toList) && v.length ≤ 512

def validateSecretId (value : String) : Except String Unit :=
  if value = "" ∨ value ≠ strip value ∨ Char.ofNat 0 ∈ value.toList then
    .error "secret id must be nonblank and trimmed"
  else if 512 < value.length then .error "secret id must contain at most 512 characters"
  else .ok ()

/-- Which identity columns each resource state carries. -/
def resourceIdentityShape (state : ResourceState) (name role secret : Option String) : Bool :=
  match state with
  | .disabled | .removed => name.isNone && role.isNone && secret.isNone
  | .active => name.isSome && role.isSome && secret.isSome
  | .provisioning | .failed => true

def resourceShape (state : ResourceState) (name role secret : Option String) : Bool :=
  name.all validPostgresIdentifier && role.all validPostgresIdentifier && secret.all validSecretId &&
  resourceIdentityShape state name role secret

def validateOptional (v : Option String) (check : String → Except String Unit) :
    Except String Unit :=
  match v with
  | none => .ok ()
  | some a => check a

/-- `validate_resource_shape` (`domain/resource.py:165-194`). -/
def validateResourceShape (state : ResourceState) (name role secret : Option String) :
    Except String Unit := do
  validateOptional name fun v => validatePostgresIdentifier v "database name"
  validateOptional role fun v => validatePostgresIdentifier v "database role"
  validateOptional secret validateSecretId
  if resourceIdentityShape state name role secret then .ok ()
  else if state = .active then
    .error "resource state ACTIVE requires database name, role, and secret id"
  else .error ("resource state " ++ state.value ++ " requires a null resource")

theorem validatePostgresIdentifier_ok_iff (v n : String) :
    validatePostgresIdentifier v n = .ok () ↔ validPostgresIdentifier v = true := by
  unfold validatePostgresIdentifier validPostgresIdentifier
  split
  · next h => rcases h with h | h <;> simp [h]
  · next h =>
    rw [not_or, not_not] at h
    split
    · next hl => simp [Nat.not_le.mpr hl]
    · next hl =>
      have hl' : v.utf8ByteSize ≤ 63 := Nat.le_of_not_lt hl
      cases hi : isIdentifier v <;> simp [h.1, ← h.2, hl']

theorem validateSecretId_ok_iff (v : String) :
    validateSecretId v = .ok () ↔ validSecretId v = true := by
  unfold validateSecretId validSecretId
  split
  · next h => rcases h with h | h | h <;> simp [h]
  · next h =>
    rw [not_or, not_or, not_not] at h
    split
    · next hl => simp [Nat.not_le.mpr hl]
    · next hl =>
      have hl' : v.length ≤ 512 := Nat.le_of_not_lt hl
      simp [h.1, ← h.2.1, h.2.2, hl']

theorem validateOptional_ok_iff (v : Option String) (check : String → Except String Unit)
    (p : String → Bool) (h : ∀ a, check a = .ok () ↔ p a = true) :
    validateOptional v check = .ok () ↔ v.all p = true := by
  cases v with
  | none => simp [validateOptional]
  | some a => simpa [validateOptional] using h a

theorem validateResourceShape_ok_iff (st : ResourceState) (n r s : Option String) :
    validateResourceShape st n r s = .ok () ↔ resourceShape st n r s = true := by
  have hn := validateOptional_ok_iff n _ _ fun a => validatePostgresIdentifier_ok_iff a "database name"
  have hr := validateOptional_ok_iff r _ _ fun a => validatePostgresIdentifier_ok_iff a "database role"
  have hs := validateOptional_ok_iff s _ _ validateSecretId_ok_iff
  unfold validateResourceShape resourceShape
  rw [bind_unit_eq_ok, bind_unit_eq_ok, bind_unit_eq_ok, hn, hr, hs]
  cases resourceIdentityShape st n r s with
  | true => simp [and_assoc]
  | false => by_cases ha : st = .active <;> simp [ha]

/-- The state and suspension metadata hidden by an outer pause. -/
structure SuspensionContext where
  state : RunState
  suspendedState : Option RunState
  suspensionKind : Option SuspensionKind
  pendingGate : Option ApprovalGate
  pendingEvidenceDigest : Option String
  pending_ok : pendingShape state pendingGate pendingEvidenceDigest = true
  deriving DecidableEq

inductive Delegation
  | auto
  | disabled
  | requested
  deriving DecidableEq, Repr

inductive OptionalReview
  | auto
  | skip
  | required
  deriving DecidableEq, Repr

structure WorkflowPreferences where
  reviewPlanFirst : Bool
  delegation : Delegation
  optionalReview : OptionalReview
  deriving DecidableEq, Repr

/-- The complete immutable state needed to advance one run. -/
structure RunSnapshot where
  id : UUID
  projectId : UUID
  taskId : UUID
  state : RunState
  version : ℤ
  suspendedState : Option RunState
  localRemediationCount : ℤ
  remoteRemediationCount : ℤ
  suspensionKind : Option SuspensionKind
  suspensionContext : Option SuspensionContext
  policyVersion : Option ℤ
  baseRef : Option String
  baseSha : Option String
  branchName : Option String
  worktreePath : Option String
  databaseState : ResourceState
  databaseName : Option String
  databaseRole : Option String
  secretId : Option String
  pendingGate : Option ApprovalGate
  pendingEvidenceDigest : Option String
  workflow : Option WorkflowPreferences
  resource_ok : resourceShape databaseState databaseName databaseRole secretId = true
  pending_ok : pendingShape state pendingGate pendingEvidenceDigest = true
  deriving DecidableEq

/-- `RunSnapshot.with_state`: one version increment; the suspension and approval
fields not given are cleared. `replace` runs the checks again. -/
def RunSnapshot.withState (r : RunSnapshot) (state : RunState)
    (suspendedState : Option RunState) (suspensionKind : Option SuspensionKind)
    (suspensionContext : Option SuspensionContext) (pendingGate : Option ApprovalGate)
    (pendingEvidenceDigest : Option String) : Except String RunSnapshot :=
  match h : validatePendingMetadata "run" state pendingGate pendingEvidenceDigest with
  | .error e => .error e
  | .ok () => .ok
      { r with
        state := state
        suspendedState := suspendedState
        suspensionKind := suspensionKind
        suspensionContext := suspensionContext
        pendingGate := pendingGate
        pendingEvidenceDigest := pendingEvidenceDigest
        version := r.version + 1
        pending_ok := pendingShape_of_validated h }

/-- What one `with_state` leaves behind, field by field. -/
structure Moved (r s : RunSnapshot) (state : RunState) (suspendedState : Option RunState)
    (suspensionKind : Option SuspensionKind) (suspensionContext : Option SuspensionContext)
    (pendingGate : Option ApprovalGate) (pendingEvidenceDigest : Option String) : Prop where
  state_eq : s.state = state
  suspendedState_eq : s.suspendedState = suspendedState
  suspensionKind_eq : s.suspensionKind = suspensionKind
  suspensionContext_eq : s.suspensionContext = suspensionContext
  pendingGate_eq : s.pendingGate = pendingGate
  pendingEvidenceDigest_eq : s.pendingEvidenceDigest = pendingEvidenceDigest
  version_eq : s.version = r.version + 1
  identity_eq : (s.id, s.projectId, s.taskId, s.policyVersion, s.baseRef, s.baseSha)
    = (r.id, r.projectId, r.taskId, r.policyVersion, r.baseRef, r.baseSha)
  rest_eq : (s.localRemediationCount, s.remoteRemediationCount, s.branchName, s.worktreePath,
      s.databaseState, s.databaseName, s.databaseRole, s.secretId, s.workflow)
    = (r.localRemediationCount, r.remoteRemediationCount, r.branchName, r.worktreePath,
      r.databaseState, r.databaseName, r.databaseRole, r.secretId, r.workflow)

theorem withState_moved (r s : RunSnapshot) (st : RunState) (ss : Option RunState)
    (sk : Option SuspensionKind) (sc : Option SuspensionContext) (pg : Option ApprovalGate)
    (pd : Option String) (h : r.withState st ss sk sc pg pd = .ok s) :
    Moved r s st ss sk sc pg pd := by
  unfold RunSnapshot.withState at h
  split at h
  · cases h
  · cases h
    exact ⟨rfl, rfl, rfl, rfl, rfl, rfl, rfl, rfl, rfl⟩

end ParallelForge.Run
