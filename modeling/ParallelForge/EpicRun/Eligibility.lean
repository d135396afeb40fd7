import ParallelForge.EpicRun.Rows

/-!
# Eligibility of epic items (`application/services/epic_eligibility.py`)

An item is verified by a completed attempt whose merge the repository proves to
be contained in the base. The first proof of an item is kept as its handoff, and
every later one has to agree with it. The answers of Git are inputs.
-/

namespace ParallelForge.EpicRun
open Base Brainstorm Budget Epic Run

/-- `RepositoryInspection`. -/
structure Inspection where
  defaultBranch : String
  baseRef : String
  baseSha : String
  deriving DecidableEq

/-- One look at the repository; an inspection that raises is `none`. The last answer
is that of `proves_integration` once both commits are well formed. -/
structure Git where
  inspect : Option Inspection
  isIntegrated : String → String → Bool

/-- `proves_integration`, where an error counts as no proof. -/
def Git.provesIntegration (git : Git) (baseSha mergeSha : String) : Bool :=
  isHexOfLength 40 baseSha && isHexOfLength 40 mergeSha && git.isIntegrated baseSha mergeSha

structure MergeProof where
  runId : UUID
  runVersion : ℤ
  mergeIntentId : UUID
  mergeSha : String
  sha_is_hex : isHexOfLength 40 mergeSha = true

/-- `f"{run.id}:merge_pr:{intent.request_digest}"`. -/
def mergeKey (runId : UUID) (digest : String) : String :=
  String.ofList ((uuidText runId).map Char.ofNat) ++ ":merge_pr:" ++ digest

section evidence
variable (db : Db) (git : Git) (projectId : UUID) (project : Project)

/-- The checks of a merge's intent and pull request. -/
def mergeSettled (runId : UUID) (pull : PullRow) (mergeSha : String) (intent : MergeIntent) : Bool :=
  intent.runId == runId && intent.operationKind == "merge_pr" && intent.succeeded &&
    intent.outcomeMergeSha == some mergeSha && intent.requestDigest == intent.payloadDigest &&
    intent.idempotencyKey == mergeKey runId intent.requestDigest &&
    (pull.baseRef == project.integrationRef || pull.baseRef == project.defaultBranch) &&
    pull.repository == project.githubRepository

/-- The run of an attempt, completed in this project on this ref and at rest. -/
def completedRun (attempt : Attempt) : Option RunSnapshot := do
  let run ← db.runs.get attempt.runId
  guard (run.state = .completed ∧ run.projectId = projectId)
  guard (attempt.baseRef = project.integrationRef)
  guard (db.isQuiescent attempt.runId = true)
  return run

/-- The checks of one attempt; `none` where the loop continues. -/
def proofOf (baseSha : String) (attempt : Attempt) : Option MergeProof := do
  let run ← completedRun db projectId project attempt
  let pull ← db.env.pulls attempt.runId
  guard (pull.merged = true)
  let intentId ← pull.mergeIntentId
  let mergeSha ← pull.mergeSha
  let intent ← db.env.intents intentId
  guard (mergeSettled project attempt.runId pull mergeSha intent = true)
  let event ← (db.env.events attempt.runId).find? fun e =>
    e.eventType == "run.merge_completed" && e.mergeIntentId == some intentId && e.mergeSha == some mergeSha
  guard (event.actorClass = "worker" ∧ event.runVersion ≤ run.version)
  if h : isHexOfLength 40 mergeSha = true then
    if git.provesIntegration baseSha mergeSha = true then
      some ⟨attempt.runId, event.runVersion, intentId, mergeSha, h⟩
    else none
  else none

def Handoff.agrees (handoff : Handoff) (attemptId : UUID) (proof : MergeProof) (integrationRef : String) : Bool :=
  handoff.attemptId == attemptId && handoff.runId == proof.runId && handoff.runVersion == proof.runVersion &&
    handoff.mergeIntentId == proof.mergeIntentId && handoff.mergeSha == proof.mergeSha &&
    handoff.integrationRef == integrationRef

/-- `insert(...).on_conflict_do_nothing()`; an item and an attempt have one handoff. -/
def insertHandoff (handoffs : Handoffs) (key : UUID × UUID) (handoff : Handoff) : Handoffs :=
  if (handoffs.get key).isSome || handoffs.any (fun _ h => h.attemptId == handoff.attemptId || h.id == handoff.id)
  then handoffs
  else handoffs.put key handoff

def verifiedBy (itemId : UUID) (proof : MergeProof) (handoffId : UUID) : DependencyEvidence where
  itemId := itemId
  status := .verified
  predecessorRunId := some proof.runId
  integratedSha := some proof.mergeSha
  blockerCode := none
  handoffId := some handoffId
  sha_is_hex := proof.sha_is_hex
  verified_requires_proof := fun _ => ⟨rfl, rfl⟩

theorem EvidenceStatus.unknown_ne : EvidenceStatus.unknown ≠ .verified := fun h => nomatch h

theorem EvidenceStatus.unverified_ne : EvidenceStatus.unverified ≠ .verified := fun h => nomatch h

def notVerified (itemId : UUID) (status : EvidenceStatus) (blocker : Option BlockerCode)
    (h : status ≠ .verified) : DependencyEvidence where
  itemId := itemId
  status := status
  predecessorRunId := none
  integratedSha := none
  blockerCode := blocker
  handoffId := none
  sha_is_hex := rfl
  verified_requires_proof := fun hs => absurd hs h

/-- The loop over the attempts, with the item's handoff as far as it is known. -/
def scanAttempts (executionId itemId handoffId : UUID) (baseSha : String) :
    Handoffs → Option Handoff → List (UUID × Attempt) → Option DependencyEvidence × Handoffs
  | handoffs, _, [] => (none, handoffs)
  | handoffs, handoff, (attemptId, attempt) :: attempts =>
    match proofOf db git projectId project baseSha attempt with
    | none => scanAttempts executionId itemId handoffId baseSha handoffs handoff attempts
    | some proof =>
      let handoffs' := match handoff with
        | some _ => handoffs
        | none => insertHandoff handoffs (executionId, itemId)
          ⟨handoffId, attemptId, proof.runId, proof.runVersion, proof.mergeIntentId, proof.mergeSha,
            project.integrationRef, baseSha⟩
      let handoff' := match handoff with
        | some known => some known
        | none => handoffs'.get (executionId, itemId)
      match handoff' with
      | none => scanAttempts executionId itemId handoffId baseSha handoffs' none attempts
      | some known =>
        if known.agrees attemptId proof project.integrationRef = true then
          (some (verifiedBy itemId proof known.id), handoffs')
        else scanAttempts executionId itemId handoffId baseSha handoffs' (some known) attempts

/-- `order_by(attempt_number.desc()).limit(128)`. -/
def itemAttempts (executionId itemId : UUID) : List (UUID × Attempt) :=
  ((db.attempts.select fun _ a => a.executionId == executionId && a.itemId == itemId).insertionSort
    fun a b => b.2.attemptNumber ≤ a.2.attemptNumber).take 128

/-- `_one`. -/
def one (executionId itemId handoffId : UUID) (baseSha : String) (refOk : Bool) (handoffs : Handoffs) :
    DependencyEvidence × Handoffs :=
  match itemAttempts db executionId itemId with
  | [] => (notVerified itemId .unknown (some .predecessorNotStarted) EvidenceStatus.unknown_ne, handoffs)
  | newest :: older =>
    if refOk = false then
      (notVerified itemId .unverified (some .integrationRefChanged) EvidenceStatus.unverified_ne, handoffs)
    else match scanAttempts db git projectId project executionId itemId handoffId baseSha handoffs
        (handoffs.get (executionId, itemId)) (newest :: older) with
      | (some evidence, handoffs') => (evidence, handoffs')
      | (none, handoffs') =>
        let failed := (db.runs.get newest.2.runId).any fun run => run.state == .failed || run.state == .cancelled
        (notVerified itemId .unverified
          (some (if failed then .predecessorFailed else .predecessorIntegrationUnverified)) EvidenceStatus.unverified_ne,
          handoffs')

/-- The loop over the items. -/
def evidenceOf (executionId : UUID) (handoffId : UUID → UUID) (baseSha : String) (refOk : Bool) :
    List UUID → Handoffs → List DependencyEvidence × Handoffs
  | [], handoffs => ([], handoffs)
  | itemId :: itemIds, handoffs =>
    let (first, handoffs') := one db git projectId project executionId itemId (handoffId itemId)
      baseSha refOk handoffs
    let (others, handoffs'') := evidenceOf executionId handoffId baseSha refOk itemIds handoffs'
    (first :: others, handoffs'')

end evidence

/-- What `readiness` and `evidence` load first. -/
structure Frozen where
  projectId : UUID
  project : Project
  items : List ItemSnapshot

def frozenSource (db : Db) (epicId executionId : UUID) : Except Fault Frozen := do
  let execution ← orRaise (db.executions.get executionId) .notFound
  require (execution.epicId = epicId) .notFound
  let epic ← orRaise (db.env.epics epicId) .notFound
  let graph ← orRaise (db.env.graphs epicId execution.graphRevisionId) .notFound
  let project ← orRaise (db.env.projects epic.projectId) .notFound
  require (graph.graphDigest = execution.graphDigest) .notFound
  return ⟨epic.projectId, project, graph.items⟩

/-- `base_ref` and `base_sha` name the head of the integration branch. -/
def refOk (git : Git) (project : Project) (baseRef baseSha : String) : Bool :=
  baseRef == project.integrationRef && isHexOfLength 40 baseSha && git.inspect.any (·.baseSha == baseSha)

/-- `evidence`. -/
def evidence (db : Db) (git : Git) (handoffId : UUID → UUID) (handoffs : Handoffs)
    (epicId executionId : UUID) (itemIds : List UUID) (baseRef baseSha : String) :
    Except Fault (List DependencyEvidence × Handoffs) := do
  require (itemIds.length ≤ 128 ∧ itemIds.Nodup) (.value "invalid dependency item count")
  let frozen ← frozenSource db epicId executionId
  require (∀ id ∈ itemIds, id ∈ frozen.items.map fun item => item.itemId)
    (.value "dependency is outside frozen graph")
  return evidenceOf db git frozen.projectId frozen.project executionId handoffId baseSha
    (refOk git frozen.project baseRef baseSha) itemIds handoffs

inductive ItemStatus
  | ready
  | blocked
  | deferred
  | active
  | verified
  deriving DecidableEq

structure EpicItemEligibility where
  itemId : UUID
  disposition : Disposition
  status : ItemStatus
  blockerCode : Option BlockerCode
  dependencyEvidence : List DependencyEvidence
  completionEvidence : Option DependencyEvidence

/-! ### The transactions of `readiness` -/

/-- What the first one leaves: the frozen items and the base, if there is one. -/
structure Inspected where
  items : List ItemSnapshot
  integrationRef : String
  baseSha : String
  baseAvailable : Bool

def inspectBase (db : Db) (git : Git) (epicId executionId : UUID) : Except Fault Inspected := do
  let frozen ← frozenSource db epicId executionId
  let baseSha := git.inspect.elim "" (·.baseSha)
  let available := isHexOfLength 40 baseSha
  return ⟨frozen.items, frozen.project.integrationRef,
    if available then baseSha else "0000000000000000000000000000000000000000", available⟩

/-- The second asks for the evidence of every item. -/
def proveItems (db : Db) (git : Git) (handoffId : UUID → UUID)
    (epicId executionId : UUID) (seen : Inspected) : Except Fault (List DependencyEvidence × Handoffs) :=
  evidence db git handoffId db.handoffs epicId executionId
    (sortIds (seen.items.map fun item => item.itemId)) seen.integrationRef seen.baseSha

/-- The third reads the latest attempt of every item and the state of its run. -/
def latestStates (db : Db) (epicId executionId : UUID) : Except Fault (Table UUID (ℕ × RunState)) :=
  (db.listAttempts epicId (some executionId)).foldlM (fun latest (_, attempt) =>
    if (latest.get attempt.itemId).all (fun previous => previous.1 < attempt.attemptNumber) = true then do
      let run ← orRaise (db.runs.get attempt.runId) .notFound
      return latest.put attempt.itemId (attempt.attemptNumber, run.state)
    else return latest) Table.empty

section statuses
variable (seen : Inspected) (indexed : UUID → Option DependencyEvidence) (latest : Table UUID (ℕ × RunState))

/-- `next(value.blocker_code or ... if value.status != "verified")`. -/
def firstBlocker (evidence : List DependencyEvidence) : Option BlockerCode :=
  (evidence.find? fun value => value.status ≠ .verified).map fun value =>
    value.blockerCode.getD .predecessorUnverified

def statusOf (item : ItemSnapshot) (completion : DependencyEvidence) (evidence : List DependencyEvidence) :
    ItemStatus × Option BlockerCode :=
  let blocker := if seen.baseAvailable then firstBlocker evidence else some .integrationRefUnavailable
  if seen.baseAvailable = true ∧ completion.status = .verified then (.verified, none)
  else match latest.get item.itemId with
    | some (_, state) =>
      if state = .completed ∨ state = .failed ∨ state = .cancelled then
        (.blocked, some (completion.blockerCode.getD .predecessorIntegrationUnverified))
      else (.active, blocker)
    | none =>
      if item.disposition = .deferred then (.deferred, some (blocker.getD .itemDeferred))
      else if blocker.isSome then (.blocked, blocker)
      else (.ready, none)

def eligibilityOf (item : ItemSnapshot) : Except Fault EpicItemEligibility := do
  let evidence ← item.dependencyItemIds.mapM fun id => orRaise (indexed id) (.value "KeyError")
  let completion ← orRaise (indexed item.itemId) (.value "KeyError")
  let status := statusOf seen latest item completion evidence
  return ⟨item.itemId, item.disposition, status.1, status.2, evidence, some completion⟩

end statuses

/-- What `readiness` returns after its transactions. -/
def readiness (db : Db) (epicId executionId : UUID) (seen : Inspected) (proof : List DependencyEvidence) :
    Except Fault (List EpicItemEligibility) := do
  let latest ← latestStates db epicId executionId
  let items := seen.items.insertionSort fun a b => itemLe a.toItemInput b.toItemInput
  items.mapM (eligibilityOf seen (fun id => proof.find? fun value => value.itemId == id) latest)

end ParallelForge.EpicRun
