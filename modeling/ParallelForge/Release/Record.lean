import ParallelForge.Base.Value
import ParallelForge.Operation.Store

/-!
# The release record (`persistence/repositories/release.py`)

One pull-request row for a run, written from settled operation intents. Each
method makes all its checks before it assigns to the row; a call that raises,
or whose flush is refused by the database, is rolled back by its caller. The
texts of payloads, the digest and the spelling of identifiers are parameters.
-/

namespace ParallelForge.Release
open Base Operation
open Value hiding none

structure GitHubPullRequest where
  number : ℤ
  nodeId : String
  url : String
  headRepository : String
  headRef : String
  headSha : String
  baseRepository : String
  baseRef : String
  baseSha : String
  state : String
  merged : Bool
  mergeSha : Option String
  deriving DecidableEq, Repr

def GitHubPullRequest.asdict (pull : GitHubPullRequest) : Dict :=
  [("number", .int pull.number), ("node_id", .str pull.nodeId), ("url", .str pull.url),
    ("head_repository", .str pull.headRepository), ("head_ref", .str pull.headRef),
    ("head_sha", .str pull.headSha), ("base_repository", .str pull.baseRepository),
    ("base_ref", .str pull.baseRef), ("base_sha", .str pull.baseSha), ("state", .str pull.state),
    ("merged", .bool pull.merged), ("merge_sha", ofText pull.mergeSha)]

inductive PullRequestState
  | open
  | closed
  | merged
  deriving DecidableEq, Repr

/-- The columns these methods read or write; a row of an older release lacks the
managed identity. -/
structure PullRequest where
  id : UUID
  runId : UUID
  repository : String
  branch : String
  baseRef : String
  pullRequestNumber : ℤ
  headSha : String
  baseSha : String
  checks : Dict
  reviewState : Dict
  state : PullRequestState
  mergeState : Option String
  mergeMethod : Option String
  mergedAt : Option ℤ
  nodeId : Option String
  url : Option String
  headRepository : Option String
  pushIntentId : Option UUID
  publicationIntentId : Option UUID
  mergeIntentId : Option UUID
  mergeSha : Option String
  reviewedPushIntentId : Option UUID
  candidateEvidenceDigest : Option String
  baseUpdateIntentId : Option UUID
  baseAdoptionIntentId : Option UUID

structure ReleaseRecord where
  id : UUID
  runId : UUID
  pullRequest : GitHubPullRequest
  pushIntentId : UUID
  publicationIntentId : UUID
  mergeIntentId : Option UUID
  reviewedPushIntentId : Option UUID
  candidateEvidenceDigest : Option String
  baseUpdateIntentId : Option UUID
  baseAdoptionIntentId : Option UUID
  deriving DecidableEq

inductive ReleaseError
  | recordConflict
  | operation (error : StoreError)
  | integrity
  deriving DecidableEq, Repr

structure Approval where
  runId : UUID
  gate : String
  evidenceDigest : String
  policyVersion : ℤ

/-- Reading a stored payload, `canonical_digest`, `str(UUID)`, and
`UUID(str(value))` where it does not raise. -/
structure Codec where
  read : Payload → Dict
  canonicalDigest : Dict → String
  uuidText : UUID → String
  uuidOf : Value → Option UUID

/-- The rows the methods read beside the record; the run by its policy version. -/
structure Surroundings where
  policyVersion : Option ℤ
  operations : Store
  approvals : UUID → Option Approval

def stateText : PullRequestState → String
  | .open => "open"
  | .closed => "closed"
  | .merged => "closed"

/-- `_record` (`release.py:402-436`). -/
def record (row : PullRequest) : Except ReleaseError ReleaseRecord :=
  match row.nodeId, row.url, row.headRepository, row.pushIntentId, row.publicationIntentId with
  | some nodeId, some url, some headRepository, some push, some publication => .ok {
      id := row.id
      runId := row.runId
      pullRequest := {
        number := row.pullRequestNumber
        nodeId := nodeId
        url := url
        headRepository := headRepository
        headRef := row.branch
        headSha := row.headSha
        baseRepository := row.repository
        baseRef := row.baseRef
        baseSha := row.baseSha
        state := stateText row.state
        merged := row.state = .merged
        mergeSha := row.mergeSha }
      pushIntentId := push
      publicationIntentId := publication
      mergeIntentId := row.mergeIntentId
      reviewedPushIntentId := row.reviewedPushIntentId
      candidateEvidenceDigest := row.candidateEvidenceDigest
      baseUpdateIntentId := row.baseUpdateIntentId
      baseAdoptionIntentId := row.baseAdoptionIntentId }
  | _, _, _, _, _ => .error .recordConflict

/-- The call's own checks all raise the same conflict. -/
def check (c : Prop) [Decidable c] : Except ReleaseError Unit := require c .recordConflict

def hexText (n : ℕ) : Value → Bool
  | .str s => isHexOfLength n s
  | _ => false

/-- `type(v) is int` and at least one. -/
def positiveInt : Value → Bool
  | .int z => 1 ≤ z
  | _ => false

section methods
variable (red : Durability) (codec : Codec) (runId : UUID) (db : Surroundings)

def operation (id : UUID) : Except ReleaseError OperationRow :=
  match getIntent red db.operations id with
  | .ok intent => .ok intent.row
  | .error e => .error (.operation e)

def request (row : OperationRow) : Dict := codec.read row.requestPayload

def outcomeIs (row : OperationRow) (d : Dict) : Bool :=
  row.outcome.any fun text => sameDict (codec.read text) d

def digestMatches (row : OperationRow) : Bool :=
  row.requestDigest = codec.canonicalDigest (request codec row)

def optionalText (id : Option UUID) : Value := ofText (id.map codec.uuidText)

/-- One of the two intents of a publication. -/
def publishes (policyVersion : ℤ) (pull : GitHubPullRequest) (row : OperationRow) (kind : String) :
    Bool :=
  row.runId = runId && row.kind = kind && row.status = .succeeded && digestMatches codec row &&
    agrees (request codec row)
      [("repository", .str pull.baseRepository), ("branch", .str pull.headRef),
        ("head_sha", .str pull.headSha), ("base_ref", .str ("refs/heads/" ++ pull.baseRef)),
        ("base_sha", .str pull.baseSha)] &&
    truthy (get (request codec row) "approval_id") &&
    truthy (get (request codec row) "approval_digest") &&
    eq (get (request codec row) "policy_version") (.int policyVersion)

def stillOpen (pull : GitHubPullRequest) : Bool :=
  pull.state = "open" && !pull.merged && pull.mergeSha = none

/-- What a method does to the row: nothing on a replay. -/
abbrev Change := Except ReleaseError (Option PullRequest)

/-- `get_for_run`, of a run that has at most one row. -/
def getForRun (row : Option PullRequest) : Except ReleaseError (Option ReleaseRecord) :=
  match row with
  | none => .ok none
  | some row => do return some (← record row)

/-- `record_publication` (`release.py:319-399`). -/
def recordPublication (newId : UUID) (row : Option PullRequest) (pull : GitHubPullRequest)
    (pushIntentId publicationIntentId : UUID) : Change := do
  let policyVersion ← orRaise db.policyVersion .recordConflict
  let push ← operation red db pushIntentId
  let publication ← operation red db publicationIntentId
  check (publishes codec runId policyVersion pull push "push_branch" = true)
  check (publishes codec runId policyVersion pull publication "create_pr" = true)
  check (sameDict (request codec push) (request codec publication) = true ∧
    outcomeIs codec publication pull.asdict = true ∧
    publication.remoteResourceId = some pull.nodeId ∧
    outcomeIs codec push [("repository", .str pull.baseRepository), ("branch", .str pull.headRef),
      ("head_sha", .str pull.headSha)] = true ∧
    pull.headRepository = pull.baseRepository ∧ stillOpen pull = true)
  match ← getForRun row with
  | some existing => do
    check (existing.pullRequest = pull ∧ existing.pushIntentId = pushIntentId ∧
      existing.publicationIntentId = publicationIntentId)
    return none
  | none =>
    return some {
      id := newId
      runId := runId
      repository := pull.baseRepository
      branch := pull.headRef
      baseRef := pull.baseRef
      pullRequestNumber := pull.number
      headSha := pull.headSha
      baseSha := pull.baseSha
      checks := []
      reviewState := []
      state := .open
      mergeState := none
      mergeMethod := none
      mergedAt := none
      nodeId := some pull.nodeId
      url := some pull.url
      headRepository := some pull.headRepository
      pushIntentId := some pushIntentId
      publicationIntentId := some publicationIntentId
      mergeIntentId := none
      mergeSha := none
      reviewedPushIntentId := none
      candidateEvidenceDigest := none
      baseUpdateIntentId := none
      baseAdoptionIntentId := none }

/-- `record_reviewed_push` (`release.py:242-305`). -/
def recordReviewedPush (row : Option PullRequest) (pull : GitHubPullRequest)
    (pushIntentId : UUID) : Change := do
  let row ← orRaise row .recordConflict
  let current ← record row
  let op ← operation red db pushIntentId
  let publication ← operation red db current.publicationIntentId
  let req := request codec op
  let published := request codec publication
  let digest := get req "candidate_evidence_digest"
  check (publication.runId = runId ∧ publication.kind = "create_pr" ∧
    publication.status = .succeeded)
  check (op.runId = runId ∧ op.kind = "push_branch" ∧ op.status = .succeeded ∧
    digestMatches codec op = true ∧
    op.idempotencyKey = codec.uuidText runId ++ ":push-reviewed:" ++ op.requestDigest)
  check (agrees req
    [("approval_id", get published "approval_id"),
      ("approval_digest", get published "approval_digest"),
      ("policy_version", get published "policy_version"),
      ("repository", .str pull.baseRepository), ("branch", .str pull.headRef),
      ("head_sha", .str pull.headSha), ("base_ref", .str ("refs/heads/" ++ pull.baseRef)),
      ("base_sha", .str pull.baseSha), ("pull_request_id", .str (codec.uuidText current.id)),
      ("pull_request_number", .int pull.number), ("node_id", .str pull.nodeId)] = true)
  check (hexText 64 digest = true ∧ outcomeIs codec op pull.asdict = true ∧
    op.remoteResourceId = some pull.nodeId ∧
    { current.pullRequest with headSha := pull.headSha } = pull)
  check (eq (get req "base_update_intent_id")
      (optionalText codec current.baseUpdateIntentId) = true ∧
    eq (get req "base_adoption_intent_id")
      (optionalText codec current.baseAdoptionIntentId) = true ∧ stillOpen pull = true)
  if current.reviewedPushIntentId = some pushIntentId then do
    check (current.pullRequest = pull ∧
      eq (ofText current.candidateEvidenceDigest) digest = true)
    return none
  else do
    check (eq (get req "previous_head_sha") (.str current.pullRequest.headSha) = true)
    return some { row with
      headSha := pull.headSha
      checks := []
      reviewState := []
      mergeState := none
      reviewedPushIntentId := some pushIntentId
      candidateEvidenceDigest := match digest with
        | .str s => some s
        | _ => none }

/-- One of the two intents of a base update. -/
def updates (pull : GitHubPullRequest) (row : OperationRow) (kind keyPart : String) : Bool :=
  row.runId = runId && row.kind = kind && row.status = .succeeded &&
    row.requestSchemaVersion = 1 && digestMatches codec row &&
    row.idempotencyKey = codec.uuidText runId ++ ":" ++ keyPart ++ ":" ++ row.requestDigest &&
    outcomeIs codec row pull.asdict && row.remoteResourceId = some pull.nodeId

/-- `record_base_update` (`release.py:77-172`). -/
def recordBaseUpdate (row : Option PullRequest) (pull : GitHubPullRequest)
    (updateIntentId adoptionIntentId : UUID) : Change := do
  let policyVersion ← orRaise db.policyVersion .recordConflict
  let row ← orRaise row .recordConflict
  let current ← record row
  let update ← operation red db updateIntentId
  let adoption ← operation red db adoptionIntentId
  let req := request codec update
  check (updates codec runId pull update "update_branch" "update-branch" = true)
  check (updates codec runId pull adoption "adopt_base" "adopt-base" = true)
  check (sameDict req
    [("pull_request_id", .str (codec.uuidText current.id)), ("node_id", .str pull.nodeId),
      ("repository", .str pull.baseRepository), ("pull_request_number", .int pull.number),
      ("head_sha", get req "head_sha"), ("previous_base_sha", get req "previous_base_sha"),
      ("base_sha", .str pull.baseSha), ("base_ref", .str pull.baseRef),
      ("policy_version", .int policyVersion),
      ("observation_digest", get req "observation_digest"),
      ("remote_attempt", get req "remote_attempt")] = true)
  check (sameDict (request codec adoption) (merge req
    [("update_intent_id", .str (codec.uuidText update.id)), ("head_sha", .str pull.headSha),
      ("previous_head_sha", get req "head_sha")]) = true)
  check (stillOpen pull = true ∧
    { current.pullRequest with headSha := pull.headSha, baseSha := pull.baseSha } = pull)
  check (isHexOfLength 40 pull.headSha = true ∧ isHexOfLength 40 pull.baseSha = true ∧
    hexText 40 (get req "head_sha") = true ∧ hexText 40 (get req "previous_base_sha") = true ∧
    hexText 64 (get req "observation_digest") = true ∧
    positiveInt (get req "remote_attempt") = true)
  check (eq (get req "head_sha") (.str pull.headSha) = false ∧
    eq (get req "previous_base_sha") (.str pull.baseSha) = false)
  if current.baseUpdateIntentId = some updateIntentId then do
    check (current.baseAdoptionIntentId = some adoptionIntentId ∧ current.pullRequest = pull)
    return none
  else do
    check (eq (get req "head_sha") (.str current.pullRequest.headSha) = true ∧
      eq (get req "previous_base_sha") (.str current.pullRequest.baseSha) = true)
    return some { row with
      headSha := pull.headSha
      baseSha := pull.baseSha
      checks := []
      reviewState := []
      mergeState := none
      baseUpdateIntentId := some updateIntentId
      baseAdoptionIntentId := some adoptionIntentId
      reviewedPushIntentId := none
      candidateEvidenceDigest := none }

/-- `record_merge` (`release.py:174-240`). -/
def recordMerge (row : Option PullRequest) (pull : GitHubPullRequest)
    (mergeIntentId : UUID) : Change := do
  let row ← orRaise row .recordConflict
  let current ← record row
  let intent ← operation red db mergeIntentId
  let req := request codec intent
  let approvalValue ← orRaise (lookup req "approval_id") .recordConflict
  let approvalId ← orRaise (codec.uuidOf approvalValue) .recordConflict
  let approval ← orRaise (db.approvals approvalId) .recordConflict
  check (approval.runId = runId ∧ approval.gate = "merge" ∧
    eq (get req "approval_digest") (.str approval.evidenceDigest) = true ∧
    eq (get req "policy_version") (.int approval.policyVersion) = true)
  check (intent.runId = runId ∧ intent.kind = "merge_pr" ∧ intent.status = .succeeded ∧
    hasKeys req ["repository", "pull_request_number", "node_id", "head_sha", "base_ref",
      "approval_id", "approval_digest", "policy_version", "base_sha", "merge_method"] = true ∧
    digestMatches codec intent = true ∧
    intent.idempotencyKey = codec.uuidText runId ++ ":merge_pr:" ++ intent.requestDigest)
  check (agrees req
    [("repository", .str pull.baseRepository), ("pull_request_number", .int pull.number),
      ("node_id", .str pull.nodeId), ("head_sha", .str pull.headSha),
      ("base_ref", .str ("refs/heads/" ++ pull.baseRef))] = true)
  check (outcomeIs codec intent pull.asdict = true ∧
    intent.remoteResourceId = some pull.nodeId ∧ pull.merged = true ∧ pull.state = "closed" ∧
    pull.mergeSha.any (isHexOfLength 40) = true)
  check ((["squash", "merge", "rebase"].any fun m => eq (get req "merge_method") (.str m)) = true)
  check ({ current.pullRequest with
    state := "closed", merged := true, mergeSha := pull.mergeSha, baseSha := pull.baseSha } = pull)
  match current.mergeIntentId with
  | some merged => do
    check (merged = mergeIntentId ∧ current.pullRequest = pull)
    return none
  | none => do
    check (eq (get req "base_sha") (.str current.pullRequest.baseSha) = true)
    return some { row with
      state := .merged
      mergeSha := pull.mergeSha
      baseSha := pull.baseSha
      mergeMethod := match get req "merge_method" with
        | .str s => some s
        | _ => none
      mergeIntentId := some mergeIntentId
      mergedAt := intent.completedAt }

end methods

inductive Call
  | publication (pull : GitHubPullRequest) (push created : UUID)
  | reviewedPush (pull : GitHubPullRequest) (push : UUID)
  | baseUpdate (pull : GitHubPullRequest) (update adoption : UUID)
  | merge (pull : GitHubPullRequest) (intent : UUID)

def Call.change (red : Durability) (codec : Codec) (runId : UUID) (db : Surroundings) (newId : UUID)
    (row : Option PullRequest) : Call → Change
  | .publication pull push created =>
    recordPublication red codec runId db newId row pull push created
  | .reviewedPush pull push => recordReviewedPush red codec runId db row pull push
  | .baseUpdate pull update adoption => recordBaseUpdate red codec runId db row pull update adoption
  | .merge pull intent => recordMerge red codec runId db row pull intent

/-- What an applied call consumed. -/
inductive Effect
  | published (push publication : UUID)
  | reviewed (push : UUID)
  | based (update adoption : UUID)
  | merged (intent : UUID)
  deriving DecidableEq, Repr

def Call.effect : Call → Effect
  | .publication _ push created => .published push created
  | .reviewedPush _ push => .reviewed push
  | .baseUpdate _ update adoption => .based update adoption
  | .merge _ intent => .merged intent

/-- The row of one run among the rows the methods read, and what has been
applied to it, latest first. -/
structure World where
  db : Surroundings
  pullRequest : Option PullRequest
  effects : List Effect

/-- A call with the record it returns; `stored` is whether its flush goes through. -/
def World.call (red : Durability) (codec : Codec) (runId : UUID) (w : World) (newId : UUID)
    (stored : Bool) (c : Call) : Except ReleaseError (World × ReleaseRecord) := do
  match ← c.change red codec runId w.db newId w.pullRequest with
  | none => do
    let row ← orRaise w.pullRequest .recordConflict
    return (w, ← record row)
  | some row => do
    require (stored = true) .integrity
    return ({ w with pullRequest := some row, effects := c.effect :: w.effects }, ← record row)

/-- The calls on the record, and what the rest of the system does meanwhile: the
operation store, the run, the approvals and `record_observation`. -/
inductive Step (red : Durability)
  | call (c : Call) (newId : UUID) (stored : Bool)
  | operation (op : StoreOp red)
  | policyVersion (version : Option ℤ)
  | approvals (rows : UUID → Option Approval)
  | observation (checks reviewState : Dict) (mergeState : Option String)

def World.step (red : Durability) (codec : Codec) (runId : UUID) (w : World) : Step red → World
  | .call c newId stored =>
    match w.call red codec runId newId stored c with
    | .ok p => p.1
    | .error _ => w
  | .operation op =>
    { w with db := { w.db with operations := storeStep red w.db.operations op } }
  | .policyVersion version => { w with db := { w.db with policyVersion := version } }
  | .approvals rows => { w with db := { w.db with approvals := rows } }
  | .observation checks reviewState mergeState =>
    { w with pullRequest := w.pullRequest.map fun row =>
      { row with checks := checks, reviewState := reviewState, mergeState := mergeState } }

def World.init (policyVersion : Option ℤ) (approvals : UUID → Option Approval) : World :=
  ⟨⟨policyVersion, Table.empty, approvals⟩, none, []⟩

end ParallelForge.Release
