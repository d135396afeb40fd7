import ParallelForge.Release.GitHubQueue

/-!
# Merging (`release/merge.py`, `release/queue.py`, `release/monitor.py`)

The controller's checks of one approved pull request, and the two operations
an executor invokes or reconciles: the merge itself and the insertion into a
merge queue.
-/

namespace ParallelForge.Release
open Base Operation
open Value hiding none

def ReviewSnapshot.blocksMerge (review : ReviewSnapshot) : Bool :=
  review.requestedChanges || 0 < review.unresolvedThreads

def MergeProtection.safeForManagedMerge (p : MergeProtection) : Bool :=
  p.verified && (p.strictRequiredChecks || p.mergeQueueEnabled) && !p.actorCanBypass

def MergeProtection.asdict (p : MergeProtection) : Dict :=
  [("strict_required_checks", .bool p.strictRequiredChecks),
    ("merge_queue_enabled", .bool p.mergeQueueEnabled),
    ("actor_can_bypass", .bool p.actorCanBypass), ("evidence_source", .str p.evidenceSource),
    ("verified", .bool p.verified),
    ("required_check_names", .list (p.requiredCheckNames.map .str)),
    ("merge_queue_method", ofText p.mergeQueueMethod)]

/-- `required_check_results`: a check run and a status share the name. -/
def requiredCheckResults (checks : List CheckSnapshot) (protection : MergeProtection) : Dict :=
  let names := protection.requiredCheckNames.flatMap fun name => [name, "status:" ++ name]
  checks.foldl (fun d check =>
    if names.contains check.name then
      insert d check.name (.str ((check.conclusion.filter (· ≠ "")).getD "pending"))
    else d) []

inductive Disposition
  | ready
  | pending
  | remediate
  | intervene
  deriving DecidableEq, Repr

structure CheckAssessment where
  disposition : Disposition
  reason : String
  deriving DecidableEq, Repr

/-- A check without a name, with another's name or of another head. -/
def ambiguousChecks (headSha : String) (checks : List CheckSnapshot) : Bool :=
  checks.any (fun c => c.name = "" || c.headSha ≠ some headSha) ||
    !decide (checks.map CheckSnapshot.name).Nodup

def unfinishedStatuses : List String := ["queued", "in_progress", "pending", "waiting", "requested"]

def finishedStatuses : List String := ["completed", "success", "failure", "error"]

/-- The checks that share one required name; the answer is whether one is pending. -/
def assessMatches : List CheckSnapshot → Bool → Except CheckAssessment Bool
  | [], pending => .ok pending
  | check :: rest, pending =>
    if unfinishedStatuses.contains check.status then assessMatches rest true
    else if finishedStatuses.contains check.status then
      if check.conclusion ≠ some "success" then .error ⟨.remediate, "required_check_failed"⟩
      else assessMatches rest pending
    else .error ⟨.intervene, "unknown_check_status"⟩

def assessNames (checks : List CheckSnapshot) : List String → Bool → CheckAssessment
  | [], pending =>
    if pending then ⟨.pending, "required_checks_pending"⟩ else ⟨.ready, "required_checks_passed"⟩
  | name :: names, pending =>
    let found := [name, "status:" ++ name].filterMap fun key => checks.find? (·.name = key)
    match assessMatches found (pending || found.isEmpty) with
    | .error assessment => assessment
    | .ok pending => assessNames checks names pending

/-- `assess_checks`. -/
def assessChecks (headSha : String) (checks : List CheckSnapshot) (reviews : List ReviewSnapshot)
    (protection : MergeProtection) : CheckAssessment :=
  if protection.safeForManagedMerge = false ∨ protection.requiredCheckNames = [] then
    ⟨.intervene, "unsafe_merge_protection"⟩
  else if ambiguousChecks headSha checks then ⟨.intervene, "ambiguous_check_evidence"⟩
  else if reviews.any ReviewSnapshot.blocksMerge then ⟨.remediate, "blocking_remote_review"⟩
  else assessNames checks protection.requiredCheckNames false

/-- The read ports and the caller's present evidence. -/
def getBase (repository branch : String) : Client String := do
  let answer : Except Raised String ← Talking.ask (Ask.base repository branch)
  Talking.lift answer

def getChecks (repository ref : String) : Client (List CheckSnapshot) := do
  let answer : Except Raised (List CheckSnapshot) ← Talking.ask (Ask.checks repository ref)
  Talking.lift answer

def getReviews (repository : String) (n : ℤ) : Client (List ReviewSnapshot) := do
  let answer : Except Raised (List ReviewSnapshot) ← Talking.ask (Ask.reviews repository n)
  Talking.lift answer

def getMergeProtection (repository branch : String) : Client MergeProtection := do
  let answer : Except Raised MergeProtection ← Talking.ask (Ask.mergeProtection repository branch)
  Talking.lift answer

def currentEvidence : Client MergePublicationEvidence := do
  let answer : Except Raised MergePublicationEvidence ← Talking.ask Ask.currentEvidence
  Talking.lift answer

/-- `base_ref.removeprefix("refs/heads/")`. -/
def branchOf (baseRef : String) : String :=
  if "refs/heads/".toList.isPrefixOf baseRef.toList then
    String.ofList (baseRef.toList.drop "refs/heads/".length)
  else baseRef

/-- `MergeController._identity`. -/
def sameIdentity (record : ReleaseRecord) (approved : MergePublicationEvidence)
    (pull : GitHubPullRequest) : Bool :=
  let expected := record.pullRequest
  pull.number = approved.pullRequestNumber && pull.number = expected.number &&
    pull.nodeId = expected.nodeId && pull.url = expected.url &&
    pull.headRepository = approved.repository && pull.headRepository = expected.headRepository &&
    pull.baseRepository = approved.repository && pull.baseRepository = expected.baseRepository &&
    pull.headRef = expected.headRef && pull.headSha = approved.headSha &&
    pull.baseRef = branchOf approved.baseRef && pull.baseRef = expected.baseRef

def requireIdentity (record : ReleaseRecord) (approved : MergePublicationEvidence)
    (pull : GitHubPullRequest) : Except Raised Unit :=
  require (sameIdentity record approved pull = true) .staleEvidence

/-- The queue merges by the method that was approved, where there is one. -/
def queueAgrees (protection : MergeProtection) (approved : MergePublicationEvidence) : Bool :=
  !protection.mergeQueueEnabled || protection.mergeQueueMethod = some approved.mergeMethod

section operations
variable (red : Durability) (codec : Codec) (wire : Wire)

/-- `MergeController.preflight`. -/
def preflight (record : ReleaseRecord) (approved current : MergePublicationEvidence) :
    Client GitHubPullRequest := do
  Talking.lift (require (wire.evidenceDigest current = wire.evidenceDigest approved ∧
    approved.mergeMethod ∈ mergeMethods ∧ approved.unresolvedBlockingFindings = 0 ∧
    approved.requiredChecks ≠ [] ∧ ∀ p ∈ approved.requiredChecks, p.2 = "success") .staleEvidence)
  let base := branchOf approved.baseRef
  let pull ← getPullRequest wire approved.repository approved.pullRequestNumber
  Talking.lift (requireIdentity record approved pull)
  Talking.lift (require (pull.state = "open" ∧ pull.merged = false ∧ pull.mergeSha = none ∧
    pull.baseSha = approved.baseSha) .staleEvidence)
  let head ← getBranchSha wire approved.repository pull.headRef
  Talking.lift (require (head = approved.headSha) .staleEvidence)
  let baseSha ← getBase approved.repository base
  Talking.lift (require (baseSha = approved.baseSha) .staleEvidence)
  let checks ← getChecks approved.repository approved.headSha
  let reviews ← getReviews approved.repository approved.pullRequestNumber
  Talking.lift (require (reviews.any ReviewSnapshot.blocksMerge = false) .staleEvidence)
  let protection ← getMergeProtection approved.repository base
  Talking.lift (require (queueAgrees protection approved = true ∧
    (assessChecks approved.headSha checks reviews protection).disposition = .ready ∧
    sameDict (requiredCheckResults checks protection)
      (approved.requiredChecks.map fun p => (p.1, .str p.2)) = true ∧
    codec.canonicalDigest protection.asdict = approved.protectionDigest) .staleEvidence)
  return pull

/-- `MergeController.queue_required`. -/
def queueRequired (approved : MergePublicationEvidence) : Client Bool := do
  let protection ← getMergeProtection approved.repository (branchOf approved.baseRef)
  Talking.lift (require (protection.safeForManagedMerge = true ∧
    codec.canonicalDigest protection.asdict = approved.protectionDigest ∧
    queueAgrees protection approved = true) .staleEvidence)
  return protection.mergeQueueEnabled

/-- `MergeController.merge`. GitHub holds the head to the given one. -/
def merge (approved : MergePublicationEvidence) : Client GitHubPullRequest := do
  let queued ← queueRequired codec approved
  Talking.lift (require (queued = false) .staleEvidence)
  mergePullRequest wire approved.repository approved.pullRequestNumber approved.headSha
    approved.mergeMethod

/-- `OperationOutcome(...)`: the payload is durable, the rest passes its checks. -/
def makeOutcome (remoteResourceId : Option String) (payload : Dict) (status : OperationStatus)
    (error : Option String) : Except Raised (OperationOutcome red) := do
  let stored ← orRaise (wire.write payload) .other
  if h : outcomeValid red remoteResourceId status error 1 = true then
    .ok ⟨remoteResourceId, stored, status, error, 1, h⟩
  else .error .other

def failedOutcome (error : String) : Except Raised (OperationOutcome red) :=
  makeOutcome red wire none [] .failed (some error)

/-- Merged and closed, with a commit. -/
def requireMerged (pull : GitHubPullRequest) : Except Raised Unit :=
  require (pull.merged = true ∧ pull.state = "closed" ∧
    pull.mergeSha.any (isHexOfLength 40) = true) .reconciliation

/-- `MergeController.outcome`. -/
def outcome (record : ReleaseRecord) (approved : MergePublicationEvidence)
    (pull : GitHubPullRequest) : Except Raised (OperationOutcome red) := do
  requireIdentity record approved pull
  requireMerged pull
  makeOutcome red wire (some pull.nodeId) pull.asdict .succeeded none

/-- `MergeController.observe_pull`. -/
def observePull (record : ReleaseRecord) (approved : MergePublicationEvidence) :
    Client GitHubPullRequest := do
  let pull ← getPullRequest wire approved.repository approved.pullRequestNumber
  Talking.lift (requireIdentity record approved pull)
  return pull

/-- `MergeController.reconcile`. -/
def reconcileMerge (record : ReleaseRecord) (approved : MergePublicationEvidence) :
    Client (OperationOutcome red) := do
  let pull ← observePull wire record approved
  Talking.lift (outcome red wire record approved pull)

/-- What both operations are built from. -/
structure MergeOperation where
  record : ReleaseRecord
  approvalId : UUID
  approved : MergePublicationEvidence

structure OperationRequest where
  runId : UUID
  kind : String
  idempotencyKey : String
  requestDigest : String
  requestPayload : Dict
  requestSchemaVersion : ℤ

def MergeOperation.payload (op : MergeOperation) : Dict :=
  [("approval_id", .str (codec.uuidText op.approvalId)),
    ("approval_digest", .str (wire.evidenceDigest op.approved)),
    ("policy_version", .int op.approved.policyVersion),
    ("repository", .str op.approved.repository),
    ("pull_request_number", .int op.approved.pullRequestNumber),
    ("node_id", .str op.record.pullRequest.nodeId), ("head_sha", .str op.approved.headSha),
    ("base_ref", .str op.approved.baseRef), ("base_sha", .str op.approved.baseSha),
    ("merge_method", .str op.approved.mergeMethod)]

/-- The request of either operation; they differ in their kind. -/
def MergeOperation.request (op : MergeOperation) (kind : String) : OperationRequest :=
  let digest := codec.canonicalDigest (op.payload codec wire)
  { runId := op.record.runId
    kind := kind
    idempotencyKey := codec.uuidText op.record.runId ++ ":" ++ kind ++ ":" ++ digest
    requestDigest := digest
    requestPayload := op.payload codec wire
    requestSchemaVersion := 1 }

/-- `_validate_intent`. -/
def validateIntent (intent : OperationIntent red) (request : OperationRequest) :
    Except Raised Unit :=
  require (intent.row.runId = request.runId ∧ intent.row.kind = request.kind ∧
    intent.row.idempotencyKey = request.idempotencyKey ∧
    intent.row.requestDigest = request.requestDigest ∧
    sameDict (codec.read intent.row.requestPayload) request.requestPayload = true ∧
    intent.row.requestSchemaVersion = request.requestSchemaVersion) .reconciliation

/-- The exceptions that mean that the preflight refused. -/
def refusesPreflight : Raised → Bool
  | .staleEvidence | .client | .write _ => true
  | _ => false

/-- The rejections a write can come back with. -/
def definite (category : Category) : Bool := category = .stale || category = .rejected

/-- What is caught around the merge itself. -/
def mergeHandler : Raised → Option (Client (OperationOutcome red))
  | .staleEvidence | .client =>
    some (Talking.lift (failedOutcome red wire "merge_preflight_rejected"))
  | .write category =>
    if definite category then
      some (Talking.lift (failedOutcome red wire "merge_remote_rejected"))
    else none
  | _ => none

/-- `invoke` after its preflight. -/
def mergeStage (op : MergeOperation) : Client (OperationOutcome red) :=
  Talking.tryElse (merge codec wire op.approved) (mergeHandler red wire)
    fun pull => Talking.lift (outcome red wire op.record op.approved pull)

/-- `MergeOperation.invoke`. -/
def MergeOperation.invoke (op : MergeOperation) (intent : OperationIntent red) :
    Client (OperationOutcome red) := do
  Talking.lift (validateIntent red codec intent (op.request codec wire "merge_pr"))
  Talking.tryElse
    (do
      let current ← currentEvidence
      preflight codec wire op.record op.approved current)
    (fun e =>
      if refusesPreflight e then
        some (Talking.lift (failedOutcome red wire "merge_preflight_rejected"))
      else none)
    fun _ => mergeStage red codec wire op

/-- `MergeOperation.reconcile`; also what `ObservedMergeOperation.invoke` does. -/
def MergeOperation.reconcile (op : MergeOperation) (intent : OperationIntent red) :
    Client (OperationOutcome red) := do
  Talking.lift (validateIntent red codec intent (op.request codec wire "merge_pr"))
  reconcileMerge red wire op.record op.approved

/-- `validate_receipt`. -/
def receiptBound (op : MergeOperation) (receipt : MergeQueueReceipt) : Bool :=
  receipt.repository = op.approved.repository &&
    receipt.pullRequestNumber = op.approved.pullRequestNumber &&
    receipt.pullRequestNodeId = op.record.pullRequest.nodeId &&
    receipt.headSha = op.approved.headSha && receipt.mergeMethod = op.approved.mergeMethod

/-- `EnqueueOperation._outcome`. -/
def queueOutcome (op : MergeOperation) (receipt : MergeQueueReceipt) :
    Except Raised (OperationOutcome red) := do
  require (receiptBound op receipt = true) .reconciliation
  makeOutcome red wire (some receipt.entryId) receipt.modelDump .succeeded none

/-- What is caught around the insertion. -/
def enqueueHandler : Raised → Option (Client (OperationOutcome red))
  | .write category =>
    if definite category then
      some (Talking.lift (failedOutcome red wire "queue_remote_rejected"))
    else none
  | _ => none

/-- `invoke` after its preflight; the intent's identity correlates the mutation. -/
def enqueueStage (op : MergeOperation) (correlationId : String) : Client (OperationOutcome red) :=
  Talking.tryElse
    (enqueue wire op.approved.repository op.approved.pullRequestNumber op.record.pullRequest.nodeId
      op.approved.headSha op.approved.mergeMethod correlationId)
    (enqueueHandler red wire)
    fun receipt => Talking.lift (queueOutcome red wire op receipt)

/-- `EnqueueOperation.invoke`. -/
def enqueueInvoke (op : MergeOperation) (intent : OperationIntent red) :
    Client (OperationOutcome red) := do
  Talking.lift (validateIntent red codec intent (op.request codec wire "enqueue_pr"))
  Talking.tryElse
    (do
      let current ← currentEvidence
      let _ ← preflight codec wire op.record op.approved current
      let queued ← queueRequired codec op.approved
      Talking.lift (require (queued = true) .staleEvidence))
    (fun e =>
      if refusesPreflight e then
        some (Talking.lift (failedOutcome red wire "queue_preflight_rejected"))
      else none)
    fun _ => enqueueStage red wire op (codec.uuidText intent.row.id)

/-- After the query; absence alone proves nothing. -/
def afterObserve (op : MergeOperation) :
    Option MergeQueueReceipt → Client (OperationOutcome red)
  | some receipt => Talking.lift (queueOutcome red wire op receipt)
  | none => do
    let pull ← observePull wire op.record op.approved
    let merged ← Talking.lift (outcome red wire op.record op.approved pull)
    Talking.lift (makeOutcome red wire merged.remoteResourceId
      [("merged_pull_request", .dict pull.asdict)] .succeeded none)

/-- `EnqueueOperation.reconcile`. A merged pull request resolves the operation
without a receipt. -/
def enqueueReconcile (op : MergeOperation) (intent : OperationIntent red) :
    Client (OperationOutcome red) := do
  Talking.lift (validateIntent red codec intent (op.request codec wire "enqueue_pr"))
  let receipt ← observe wire op.approved.repository op.approved.pullRequestNumber
    op.record.pullRequest.nodeId op.approved.headSha
  afterObserve red wire op receipt

end operations

end ParallelForge.Release
