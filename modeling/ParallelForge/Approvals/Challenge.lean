import ParallelForge.Base.Result
import ParallelForge.Base.Table
import ParallelForge.Run.Engine

/-!
# Approval challenges (`application/services/approvals.py`)

Issue, consumption and authorization of challenges and the worker's check of
an approval command, each one transaction over the rows it locks. Instants are
microseconds, `now` is what the call reads from the clock. The raw token, the
new ids and the verdict of the plan validator come with the call; `hashToken`
is SHA-256, `uuidText` and `uuidOf` are `str(UUID)` and `UUID(str)`.
-/

namespace ParallelForge.Approvals
open Base Run

structure OperatorSession where
  credentialKind : String
  actorId : Option UUID
  csrfHash : Option String
  expiresAt : ℤ
  idleExpiresAt : Option ℤ
  absoluteExpiresAt : Option ℤ
  revokedAt : Option ℤ
  deriving DecidableEq, Repr

structure ApprovalChallenge where
  sessionId : UUID
  runId : UUID
  gate : ApprovalGate
  runVersion : ℤ
  policyVersion : ℤ
  evidenceDigest : String
  tokenHash : String
  expiresAt : ℤ
  consumedAt : Option ℤ
  deriving DecidableEq, Repr

structure Approval where
  runId : UUID
  gate : ApprovalGate
  evidenceDigest : String
  runVersion : ℤ
  policyVersion : ℤ
  authenticatedActorId : UUID
  invalidatedAt : Option ℤ
  invalidationReason : Option String
  createdAt : ℤ
  deriving DecidableEq, Repr

/-- The parts of a command envelope that are written and read here. -/
structure ApprovalCommand where
  runId : UUID
  commandType : String
  idempotencyKey : String
  payload : List (String × String)
  expectedRunVersion : ℤ
  actorId : Option UUID
  deriving DecidableEq, Repr

structure ApprovalEvent where
  runId : UUID
  runVersion : ℤ
  eventType : String
  payload : List (String × String)
  actorId : UUID
  occurredAt : ℤ
  deriving DecidableEq, Repr

structure ApprovalDb where
  runs : Table UUID RunSnapshot
  sessions : Table UUID OperatorSession
  challenges : Table UUID ApprovalChallenge
  approvals : Table UUID Approval
  events : List ApprovalEvent
  commands : List ApprovalCommand

/-- `AuthenticatedActor`; its class is always `operator`. -/
structure AuthenticatedActor where
  actorId : UUID
  sessionId : UUID
  deriving DecidableEq, Repr

/-- `CHALLENGE_LIFETIME`: five minutes. -/
def challengeLifetime : ℤ := 300000000

def commandForGate : ApprovalGate → String
  | .plan => "approve_plan"
  | .pr => "approve_pr"
  | .merge => "approve_merge"

def gateForCommand (commandType : String) : Option ApprovalGate :=
  [ApprovalGate.plan, .pr, .merge].find? fun g => commandForGate g == commandType

def isHexDigit (c : Char) : Bool :=
  ('0' ≤ c && c ≤ '9') || ('a' ≤ c && c ≤ 'f') || ('A' ≤ c && c ≤ 'F')

/-- `_session_is_valid`. -/
def OperatorSession.isValid (s : OperatorSession) (now : ℤ) : Bool :=
  s.credentialKind == "session" && s.actorId.isSome && s.csrfHash.isSome &&
    s.revokedAt.isNone && decide (s.expiresAt > now) &&
    (s.idleExpiresAt.any fun t => decide (t > now)) && s.absoluteExpiresAt == some s.expiresAt

def requireGate (gate : String) : Except String ApprovalGate :=
  orRaise (ApprovalGate.ofValue gate) "unsupported approval gate"

def requireDigest (value : String) : Except String Unit :=
  require ((value.length == 64 && value.toList.all isHexDigit) = true) "approval evidence is stale"

def requireActorBinding (actor : AuthenticatedActor) (sessionId : Option UUID) :
    Except String UUID := do
  require (sessionId = none ∨ sessionId = some actor.sessionId) "invalid or expired session"
  .ok actor.sessionId

/-- `_run_matches`. -/
def runMatches (run : RunSnapshot) (gate : ApprovalGate) (runVersion : ℤ) (digest : String) : Bool :=
  run.pendingGate == some gate && run.version == runVersion && run.pendingEvidenceDigest == some digest

/-- `_challenge_matches`. -/
def challengeMatches (c : ApprovalChallenge) (runId : UUID) (gate : ApprovalGate) (runVersion : ℤ)
    (digest : String) : Bool :=
  c.runId == runId && c.gate == gate && c.runVersion == runVersion && c.evidenceDigest == digest

def ApprovalDb.sessionOf (db : ApprovalDb) (id actorId : UUID) (now : ℤ) : Option OperatorSession :=
  (db.sessions.get id).filter fun s => s.actorId == some actorId && s.isValid now

/-- `get_challenge`: the token hash is unique. -/
def ApprovalDb.challengeOf (db : ApprovalDb) (tokenHash : String) : Option (UUID × ApprovalChallenge) :=
  (db.challenges.select fun _ c => c.tokenHash == tokenHash).head?

section services
variable (hashToken : String → String) (uuidText : UUID → String) (uuidOf : String → Option UUID)

structure IssueRequest where
  actor : AuthenticatedActor
  runId : UUID
  gate : String
  runVersion : ℤ
  evidenceDigest : String
  sessionId : Option UUID
  policyVersion : Option ℤ
  now : ℤ
  token : String
  challengeId : UUID
  deriving DecidableEq, Repr

/-- `ApprovalChallengeService.issue` (`approvals.py:103-166`): the new row, and the run it was
matched against. -/
def challengeFor (db : ApprovalDb) (q : IssueRequest) :
    Except String (ApprovalChallenge × RunSnapshot) := do
  let boundSession ← requireActorBinding q.actor q.sessionId
  let gate ← requireGate q.gate
  requireDigest q.evidenceDigest
  let _session ← orRaise (db.sessionOf boundSession q.actor.actorId q.now) "invalid or expired session"
  let run ← orRaise (db.runs.get q.runId) "run does not match approval evidence"
  require (runMatches run gate q.runVersion q.evidenceDigest = true)
    "run does not match approval evidence"
  let policyVersion ← orRaise (run.policyVersion <|> q.policyVersion)
    "run does not match approval evidence"
  require (1 ≤ policyVersion) "run does not match approval evidence"
  require (q.policyVersion = none ∨ q.policyVersion = some policyVersion)
    "run does not match approval evidence"
  let row : ApprovalChallenge :=
    { sessionId := boundSession, runId := q.runId, gate := gate, runVersion := q.runVersion
      policyVersion := policyVersion, evidenceDigest := q.evidenceDigest
      tokenHash := hashToken q.token, expiresAt := q.now + challengeLifetime, consumedAt := none }
  .ok (row, run)

/-- The insert, with the two unique keys of the table. -/
def issue (db : ApprovalDb) (q : IssueRequest) :
    Except String (ApprovalDb × ApprovalChallenge × RunSnapshot) := do
  let (row, run) ← challengeFor hashToken db q
  require (db.challenges.get q.challengeId = none) "approval_challenges_pkey"
  require (db.challengeOf row.tokenHash = none) "uq_approval_challenges_token_hash"
  .ok ({ db with challenges := db.challenges.put q.challengeId row }, row, run)

structure ConsumeRequest where
  token : String
  actor : AuthenticatedActor
  runId : UUID
  gate : String
  runVersion : ℤ
  evidenceDigest : String
  sessionId : Option UUID
  now : ℤ
  deriving DecidableEq, Repr

def ApprovalDb.consumeChallenge (db : ApprovalDb) (id : UUID) (at' : ℤ) : ApprovalDb :=
  { db with challenges := db.challenges.modify id fun c => { c with consumedAt := some at' } }

/-- `ApprovalChallengeService.consume` (`approvals.py:168-219`). -/
def consume (db : ApprovalDb) (q : ConsumeRequest) : Except String ApprovalDb := do
  let boundSession ← requireActorBinding q.actor q.sessionId
  let gate ← requireGate q.gate
  requireDigest q.evidenceDigest
  require (q.token ≠ "") "challenge is expired or already consumed"
  let (id, challenge) ← orRaise (db.challengeOf (hashToken q.token))
    "challenge is expired or already consumed"
  require (challenge.consumedAt = none ∧ q.now < challenge.expiresAt)
    "challenge is expired or already consumed"
  require (challenge.sessionId = boundSession) "challenge does not match approval evidence"
  let _session ← orRaise (db.sessionOf boundSession q.actor.actorId q.now) "invalid or expired session"
  require (challengeMatches challenge q.runId gate q.runVersion q.evidenceDigest = true)
    "challenge does not match approval evidence"
  .ok (db.consumeChallenge id q.now)

/-- `planEvidence` is what the validator says, when the service has one: the plan's
validity, then whether it leaves material questions open. -/
structure AuthorizeRequest where
  actor : AuthenticatedActor
  runId : UUID
  gate : String
  runVersion : Option ℤ
  evidenceDigest : String
  challengeToken : String
  expectedRunVersion : Option ℤ
  now : ℤ
  approvalId : UUID
  planEvidence : Option (Option Bool)
  deriving DecidableEq, Repr

def checkPlanEvidence (gate : ApprovalGate) (planEvidence : Option (Option Bool)) :
    Except String Unit :=
  match gate, planEvidence with
  | .plan, some none => .error "approval evidence is stale"
  | .plan, some (some true) =>
    .error "answer material questions through plan revision before approval"
  | _, _ => .ok ()

/-- `create_approval`: the insert with its primary key and
`uq_approvals_gate_evidence_run_version`. -/
def ApprovalDb.createApproval (db : ApprovalDb) (id : UUID) (row : Approval) :
    Except String ApprovalDb := do
  require (db.approvals.get id = none) "approvals_pkey"
  require ((db.approvals.any fun _ a => a.runId == row.runId && a.gate == row.gate &&
      a.evidenceDigest == row.evidenceDigest && a.runVersion == row.runVersion) = false)
    "uq_approvals_gate_evidence_run_version"
  .ok { db with approvals := db.approvals.put id row }

def approvalEvent (q : AuthorizeRequest) (gate : ApprovalGate) (version : ℤ) : ApprovalEvent :=
  { runId := q.runId, runVersion := version, eventType := "approval-authorized"
    payload := [("approval_id", uuidText q.approvalId), ("gate", gate.value),
      ("evidence_digest", q.evidenceDigest)]
    actorId := q.actor.actorId, occurredAt := q.now }

def approvalCommand (q : AuthorizeRequest) (gate : ApprovalGate) (version : ℤ) : ApprovalCommand :=
  { runId := q.runId, commandType := commandForGate gate
    idempotencyKey := "approval:" ++ uuidText q.approvalId
    payload := [("approval_id", uuidText q.approvalId)]
    expectedRunVersion := version, actorId := some q.actor.actorId }

/-- `ApprovalAuthorizationService.authorize` (`approvals.py:236-367`): the approval, the event and
the command in one transaction, with the challenge it used. -/
def authorize (db : ApprovalDb) (q : AuthorizeRequest) : Except String (ApprovalDb × UUID) := do
  let gate ← requireGate q.gate
  requireDigest q.evidenceDigest
  let version ← orRaise (q.expectedRunVersion <|> q.runVersion) "approval evidence is stale"
  require (0 ≤ version) "approval evidence is stale"
  require (q.challengeToken ≠ "") "challenge is expired or already consumed"
  let run ← orRaise (db.runs.get q.runId) "approval evidence is stale"
  let _session ← orRaise (db.sessionOf q.actor.sessionId q.actor.actorId q.now)
    "invalid or expired session"
  checkPlanEvidence gate q.planEvidence
  let (id, challenge) ← orRaise (db.challengeOf (hashToken q.challengeToken))
    "challenge is expired or already consumed"
  require (challenge.consumedAt = none ∧ q.now < challenge.expiresAt)
    "challenge is expired or already consumed"
  require (challengeMatches challenge q.runId gate version q.evidenceDigest = true)
    "challenge does not match approval evidence"
  require (challenge.sessionId = q.actor.sessionId) "challenge does not match approval evidence"
  require (runMatches run gate version q.evidenceDigest = true) "approval evidence is stale"
  let policyVersion ← orRaise run.policyVersion "approval evidence is stale"
  require (challenge.policyVersion = policyVersion) "approval evidence is stale"
  let approved ← db.createApproval q.approvalId
    { runId := q.runId, gate := gate, evidenceDigest := q.evidenceDigest, runVersion := version
      policyVersion := policyVersion, authenticatedActorId := q.actor.actorId, invalidatedAt := none
      invalidationReason := none, createdAt := q.now }
  let used := approved.consumeChallenge id q.now
  let event := approvalEvent uuidText q gate version
  let command := approvalCommand uuidText q gate version
  .ok ({ used with events := used.events ++ [event], commands := used.commands ++ [command] }, id)

/-- `_approval_is_current`. -/
def approvalIsCurrent (approval : Approval) (run : RunSnapshot) (command : ApprovalCommand)
    (gate : ApprovalGate) : Bool :=
  approval.invalidatedAt.isNone && approval.runId == command.runId && approval.gate == gate &&
    command.actorId == some approval.authenticatedActorId &&
    approval.runVersion == command.expectedRunVersion && run.version == approval.runVersion &&
    run.policyVersion == some approval.policyVersion && run.pendingGate == some gate &&
    run.pendingEvidenceDigest == some approval.evidenceDigest

def ApprovalDb.invalidateApproval (db : ApprovalDb) (id : UUID) (at' : ℤ) : ApprovalDb :=
  { db with approvals := db.approvals.modify id fun a =>
      { a with invalidatedAt := some at', invalidationReason := some "stale approval evidence" } }

/-- `validate_worker_command` (`approvals.py:369-404`): the approval it returns, and the rows as the
call leaves them to the transaction of its caller. -/
def validateWorkerCommand (db : ApprovalDb) (command : ApprovalCommand) (now : ℤ) :
    Except String (UUID × Approval) × ApprovalDb :=
  match gateForCommand command.commandType, command.payload with
  | some gate, [(key, text)] =>
    if key ≠ "approval_id" then (.error "approval command is invalid", db)
    else match uuidOf text with
      | none => (.error "approval command is invalid", db)
      | some id => match db.approvals.get id, db.runs.get command.runId with
        | some approval, some run =>
          if approvalIsCurrent approval run command gate then (.ok (id, approval), db)
          else (.error "approval evidence is stale", db.invalidateApproval id now)
        | _, _ => (.error "approval evidence is stale", db)
  | _, _ => (.error "approval command is invalid", db)

/-- `invalidate_plan_gate`, `invalidate_pr_gate`, `invalidate_merge_gate`
(`persistence/repositories/auth.py:25-80`). -/
def ApprovalDb.invalidateGate (db : ApprovalDb) (gate : ApprovalGate) (runId : UUID) (runVersion at' : ℤ) :
    ApprovalDb :=
  { db with
    approvals := db.approvals.mapRows fun _ a =>
      if a.runId = runId ∧ a.runVersion = runVersion ∧ a.gate = gate ∧ a.invalidatedAt = none then
        { a with invalidatedAt := some at' }
      else a
    challenges := db.challenges.mapRows fun _ c =>
      if c.runId = runId ∧ c.runVersion = runVersion ∧ c.gate = gate ∧ c.consumedAt = none ∧
          at' < c.expiresAt then { c with expiresAt := at' }
      else c }

/-- `record_internal_preparation_approval`: an approval of the owner's own plan, without a
challenge; its caller moves the run on in the same transaction. -/
structure PrepareRequest where
  runId : UUID
  evidenceDigest : String
  originator : UUID
  approvalId : UUID
  now : ℤ
  next : RunSnapshot
  deriving DecidableEq

def prepareInternally (db : ApprovalDb) (q : PrepareRequest) : Except String ApprovalDb := do
  let run ← orRaise (db.runs.get q.runId) "run not found"
  let policyVersion ← orRaise run.policyVersion
    "internal preparation requires recorded run-creation provenance"
  let approved ← db.createApproval q.approvalId
    { runId := q.runId, gate := .plan, evidenceDigest := q.evidenceDigest, runVersion := run.version
      policyVersion := policyVersion, authenticatedActorId := q.originator, invalidatedAt := none
      invalidationReason := none, createdAt := q.now }
  require (q.next.version = run.version + 1) "run version conflict"
  .ok { approved with runs := approved.runs.put q.runId q.next }

end services

end ParallelForge.Approvals
