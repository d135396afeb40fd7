import ParallelForge.Brainstorm.Totals
import ParallelForge.Command.Control
import ParallelForge.Epic.Snapshot
import ParallelForge.Run.Engine

/-!
# The rows of an epic's runs (`persistence/models/epic_run_bridge.py`, `epic_dispatch.py`)

An execution freezes the source of an epic; an attempt binds one item of it to a
run. The dispatch setting holds at most one claim, whose columns are set together.
What the launches and the dispatch worker read of other services' rows is the
`Surroundings`.
-/

namespace ParallelForge.EpicRun
open Base Brainstorm Budget Epic Run

/-- The codes of a refused launch and of a setting or control that waits. -/
inductive BlockerCode
  | epicVersionStale
  | briefNotAccepted
  | graphNotAccepted
  | sourceNotAccepted
  | activeExecution
  | budgetWarning (warning : String)
  | budgetExhausted (key : EpicDimension)
  | epicUsageUnknown
  | executionNotActive
  | itemDeferred
  | activeChild
  | childEffectsUnsettled
  | childActive
  | predecessorFailed
  | repositoryBaseMoved
  | predecessorUnverified
  | predecessorNotStarted
  | predecessorIntegrationUnverified
  | integrationRefChanged
  | integrationRefUnavailable
  | readinessUnavailable
  | uncontrolledChild
  | dispatchBlocked
  | dispatchError
  | executionVersionStale
  | controlPending
  | pauseStateInvalid
  | resumeStateInvalid
  | cancelStateInvalid
  | childControlRefused
  deriving DecidableEq

/-- `code.startswith("epic_budget_") and code.endswith("_exhausted")`. -/
def BlockerCode.isBudgetExhausted : BlockerCode → Bool
  | .budgetExhausted _ => true
  | _ => false

inductive Fault
  | notFound
  | bindingConflict (message : String)
  | launchConflict (codes : List BlockerCode) (actualEpicVersion : ℤ)
  | dispatchConflict (message : String)
  | mutationConflict
  | runCreation
  | repositoryInspection
  | value (message : String)
  | integrity
  deriving DecidableEq

structure EpicRow where
  projectId : UUID
  version : ℤ
  acceptedBriefRevisionId : Option UUID
  acceptedBriefDigest : Option String
  acceptedGraphRevisionId : Option UUID
  acceptedGraphDigest : Option String

structure Project where
  currentPolicyVersion : Option ℤ
  hasPolicy : Bool
  githubRepository : String
  defaultBranch : String

def Project.integrationRef (project : Project) : String := "refs/heads/" ++ project.defaultBranch

structure GraphRevision where
  graphDigest : String
  briefRevisionId : UUID
  briefDigest : String
  items : List ItemSnapshot

/-- `RunQuiescence`. -/
structure RunQuiescence where
  pendingOrLeasedCommands : ℕ
  runningSteps : ℕ
  runningExecutions : ℕ
  runningTools : ℕ
  unresolvedOperations : ℕ
  unsettledSubscriptionWork : ℕ
  deriving DecidableEq

def RunQuiescence.isQuiescent (q : RunQuiescence) : Bool :=
  q.pendingOrLeasedCommands == 0 && q.runningSteps == 0 && q.runningExecutions == 0 &&
    q.runningTools == 0 && q.unresolvedOperations == 0 && q.unsettledSubscriptionWork == 0

/-- The columns of a pull request, an operation intent and a run event that the
eligibility service reads. -/
structure PullRow where
  repository : String
  baseRef : String
  merged : Bool
  mergeIntentId : Option UUID
  mergeSha : Option String

structure MergeIntent where
  runId : UUID
  operationKind : String
  succeeded : Bool
  outcomeMergeSha : Option String
  requestDigest : String
  payloadDigest : String
  idempotencyKey : String

structure MergeEvent where
  eventType : String
  mergeIntentId : Option UUID
  mergeSha : Option String
  actorClass : String
  runVersion : ℤ

/-- `EpicExecution`. -/
structure Execution where
  epicId : UUID
  briefRevisionId : UUID
  briefDigest : String
  graphRevisionId : UUID
  graphDigest : String
  deriving DecidableEq

inductive ControlState
  | active
  | pauseRequested
  | paused
  | resumeRequested
  | cancelRequested
  | blocked
  | succeeded
  | cancelled
  deriving DecidableEq

/-- `EpicExecutionControl`. -/
structure Control where
  epicId : UUID
  version : ℕ
  state : ControlState
  blockerCode : Option BlockerCode
  updatedAt : ℤ

inductive ControlAction
  | pause
  | resume
  | cancel
  deriving DecidableEq

/-- `_REQUESTED` and `_SETTLED`. -/
def ControlAction.requested : ControlAction → ControlState
  | pause => .pauseRequested
  | resume => .resumeRequested
  | cancel => .cancelRequested

def ControlAction.settled : ControlAction → ControlState
  | pause => .paused
  | resume => .active
  | cancel => .cancelled

inductive IntentStatus
  | requested
  | enqueued
  | observing
  | settled
  | historical
  | refused
  | superseded
  deriving DecidableEq

/-- Why the command of an intent was refused; the column holds its text. -/
inductive Refusal
  | admission (error : Command.ServiceError)
  | commandMissing
  | command (errorSummary : Option String)
  deriving DecidableEq

/-- `EpicControlIntent`. -/
structure ControlIntent where
  executionId : UUID
  controlVersion : ℕ
  actorId : UUID
  sessionId : UUID
  action : ControlAction
  runId : UUID
  expectedRunVersion : ℤ
  commandId : Option UUID
  status : IntentStatus
  refusal : Option Refusal
  createdAt : ℤ
  checkedAt : Option ℤ

inductive EvidenceStatus
  | verified
  | unknown
  | unverified
  deriving DecidableEq

/-- `DependencyEvidence`, with what its validators check. -/
structure DependencyEvidence where
  itemId : UUID
  status : EvidenceStatus
  predecessorRunId : Option UUID
  integratedSha : Option String
  blockerCode : Option BlockerCode
  handoffId : Option UUID
  sha_is_hex : integratedSha.all (isHexOfLength 40) = true
  verified_requires_proof :
    status = .verified → predecessorRunId.isSome = true ∧ integratedSha.isSome = true
  deriving DecidableEq

/-- `EpicItemAttempt`. -/
structure Attempt where
  executionId : UUID
  epicId : UUID
  itemId : UUID
  attemptNumber : ℕ
  itemDisposition : Disposition
  actorId : UUID
  expectedEpicVersion : ℤ
  actualEpicVersion : ℤ
  taskId : UUID
  runId : UUID
  briefRevisionId : UUID
  briefDigest : String
  graphRevisionId : UUID
  graphDigest : String
  itemDigest : Str
  contextDigest : String
  baseRef : String
  baseSha : String
  ownerOverride : Bool
  overrideNote : Option String
  blockerCodes : List BlockerCode
  dependencyEvidence : List DependencyEvidence
  createdAt : ℤ
  deriving DecidableEq

/-- `EpicChildBudgetHold`, keyed by the attempt. -/
structure ChildHold where
  runId : UUID
  effectsSettled : Bool

/-- `BrainstormBudgetLedger`. -/
structure Ledger where
  projectId : UUID
  ceiling : TaskBudget
  disabledDimensions : List EpicDimension

/-- `EpicCompletionHandoff`, keyed by execution and item. -/
structure Handoff where
  id : UUID
  attemptId : UUID
  runId : UUID
  runVersion : ℤ
  mergeIntentId : UUID
  mergeSha : String
  integrationRef : String
  verifiedBaseSha : String

structure Claim where
  itemId : UUID
  token : UUID
  expiresAt : ℤ
  deriving DecidableEq

/-- `EpicDispatchSetting`. -/
structure Setting where
  epicId : UUID
  version : ℕ
  enabled : Bool
  actorId : UUID
  sessionId : UUID
  profileId : Option UUID
  profileVersion : Option ℤ
  claim : Option Claim
  blockerCode : Option BlockerCode
  checkedAt : Option ℤ

structure Actor where
  actorId : UUID
  sessionId : UUID
  deriving DecidableEq

structure LaunchRequest where
  expectedEpicVersion : ℤ
  executionId : Option UUID
  briefRevisionId : UUID
  briefDigest : String
  graphRevisionId : UUID
  graphDigest : String
  itemId : UUID
  profileId : Option UUID
  profileVersion : Option ℤ
  ownerOverride : Bool
  overrideNote : Option String
  deriving DecidableEq

structure ExecutionStartRequest where
  expectedEpicVersion : ℤ
  briefRevisionId : Option UUID
  briefDigest : Option String
  graphRevisionId : Option UUID
  graphDigest : Option String
  ownerOverride : Bool
  overrideNote : Option String
  deriving DecidableEq

structure DispatchRequest where
  expectedDispatchVersion : ℕ
  enabled : Bool
  profileId : Option UUID
  profileVersion : Option ℤ
  deriving DecidableEq

structure ControlRequest where
  expectedExecutionVersion : ℕ
  action : ControlAction
  deriving DecidableEq

/-- `EpicControlReceipt`. -/
structure ControlReceipt where
  executionId : UUID
  executionVersion : ℕ
  action : ControlAction
  state : ControlState
  intentIds : List UUID
  deriving DecidableEq

inductive MutationAction
  | executionStart
  | itemLaunch
  | dispatchConfigure
  | executionControl
  deriving DecidableEq

/-- What a request digest is taken of; the scope is part of it. -/
inductive MutationRequest
  | executionStart (epicId : UUID) (request : ExecutionStartRequest)
  | itemLaunch (epicId : UUID) (request : LaunchRequest)
  | dispatchConfigure (epicId executionId : UUID) (request : DispatchRequest)
  | executionControl (executionId : UUID) (request : ControlRequest)
  deriving DecidableEq

/-- `ApiMutation`: a receipt is completed in the transaction that reserves it. Of the
responses only that of a control request is read again. -/
structure Receipt where
  request : MutationRequest
  resourceId : UUID
  response : Option ControlReceipt

abbrev ReceiptKey := UUID × MutationAction × Str

abbrev Handoffs := Table (UUID × UUID) Handoff

structure Surroundings where
  epics : UUID → Option EpicRow
  projects : UUID → Option Project
  briefs : UUID → UUID → Option String
  graphs : UUID → UUID → Option GraphRevision
  profiles : UUID → ℤ → Bool
  quiescence : UUID → RunQuiescence
  pulls : UUID → Option PullRow
  intents : UUID → Option MergeIntent
  events : UUID → List MergeEvent
  totals : UUID → EpicTotals

structure Db where
  env : Surroundings
  runs : Table UUID RunSnapshot
  executions : Table UUID Execution
  controls : Table UUID Control
  settings : Table UUID Setting
  attempts : Table UUID Attempt
  holds : Table UUID ChildHold
  ledgers : Table UUID Ledger
  handoffs : Handoffs
  receipts : Table ReceiptKey Receipt
  intents : Table UUID ControlIntent
  commands : Table UUID Command.CommandRow

def Db.init (env : Surroundings) : Db where
  env := env
  runs := Table.empty
  executions := Table.empty
  controls := Table.empty
  settings := Table.empty
  attempts := Table.empty
  holds := Table.empty
  ledgers := Table.empty
  handoffs := Table.empty
  receipts := Table.empty
  intents := Table.empty
  commands := Table.empty

def Db.isQuiescent (db : Db) (runId : UUID) : Bool := (db.env.quiescence runId).isQuiescent

/-- `order_by(created_at, id)`. -/
def attemptLe (a b : UUID × Attempt) : Prop :=
  a.2.createdAt < b.2.createdAt ∨ (a.2.createdAt = b.2.createdAt ∧ a.1 ≤ b.1)

instance : DecidableRel attemptLe := fun a b => inferInstanceAs
  (Decidable (a.2.createdAt < b.2.createdAt ∨ (a.2.createdAt = b.2.createdAt ∧ a.1 ≤ b.1)))

/-- `list_attempts`. -/
def Db.listAttempts (db : Db) (epicId : UUID) (executionId : Option UUID) : List (UUID × Attempt) :=
  (db.attempts.select fun _ a =>
    a.epicId == epicId && executionId.all (· == a.executionId)).insertionSort attemptLe

theorem Db.mem_listAttempts (db : Db) (epicId : UUID) (executionId : Option UUID) (id : UUID)
    (a : Attempt) : (id, a) ∈ db.listAttempts epicId executionId ↔
      db.attempts.get id = some a ∧ a.epicId = epicId ∧ ∀ e, executionId = some e → e = a.executionId := by
  have hall : executionId.all (· == a.executionId) = true ↔ ∀ e, executionId = some e → e = a.executionId := by
    cases executionId with
    | none => simp
    | some e => simp
  unfold Db.listAttempts
  rw [List.mem_insertionSort, Table.mem_select_iff, Bool.and_eq_true, beq_iff_eq, hall]

/-- One turn of the loop that keeps the latest attempt of each required item. -/
def latestNext (executionId : UUID) (latest : Table UUID Attempt) (attempt : Attempt) : Table UUID Attempt :=
  if attempt.executionId ≠ executionId ∨ attempt.itemDisposition ≠ .required then latest
  else match latest.get attempt.itemId with
    | none => latest.put attempt.itemId attempt
    | some previous =>
      if previous.attemptNumber < attempt.attemptNumber then latest.put attempt.itemId attempt else latest

def latestRequired (attempts : List (UUID × Attempt)) (executionId : UUID) : Table UUID Attempt :=
  attempts.foldl (fun latest x => latestNext executionId latest x.2) Table.empty

/-- A loop that returns at the first failed or cancelled run. -/
def anyChildFailed (db : Db) : List (UUID × Attempt) → Except Fault Bool
  | [] => .ok false
  | (_, attempt) :: attempts => do
    let run ← orRaise (db.runs.get attempt.runId) .notFound
    if run.state = .failed ∨ run.state = .cancelled then return true else anyChildFailed db attempts

/-- `latest_required_child_failed`. -/
def latestRequiredChildFailed (db : Db) (attempts : List (UUID × Attempt)) (executionId : UUID) :
    Except Fault Bool := anyChildFailed db (latestRequired attempts executionId).rows

/-! ### The latest attempts -/

theorem latestNext_grows (executionId : UUID) (latest : Table UUID Attempt) (b : Attempt) (i : UUID) (c : Attempt)
    (hc : latest.get i = some c) :
    ∃ c', (latestNext executionId latest b).get i = some c' ∧ c.attemptNumber ≤ c'.attemptNumber := by
  unfold latestNext
  split
  · exact ⟨c, hc, le_rfl⟩
  · split
    · next hnone =>
      refine ⟨c, ?_, le_rfl⟩
      rw [Table.get_put_ne _ _ (Table.ne_of_get _ hnone hc), hc]
    · next previous hprevious =>
      split
      · next hlt =>
        rw [Table.get_put]
        split
        · next hi =>
          subst hi
          rw [hprevious] at hc
          cases hc
          exact ⟨b, rfl, hlt.le⟩
        · exact ⟨c, hc, le_rfl⟩
      · exact ⟨c, hc, le_rfl⟩

theorem latestNext_covers (executionId : UUID) (latest : Table UUID Attempt) (b : Attempt)
    (he : b.executionId = executionId) (hr : b.itemDisposition = .required) :
    ∃ c, (latestNext executionId latest b).get b.itemId = some c ∧ b.attemptNumber ≤ c.attemptNumber := by
  unfold latestNext
  rw [if_neg (by simp [he, hr])]
  split
  · exact ⟨b, Table.get_put_self _ _ _, le_rfl⟩
  · next previous hprevious =>
    split
    · exact ⟨b, Table.get_put_self _ _ _, le_rfl⟩
    · next hle => exact ⟨previous, hprevious, not_lt.mp hle⟩

theorem latestNext_from (executionId : UUID) (latest : Table UUID Attempt) (b : Attempt) (i : UUID) (c : Attempt)
    (hc : (latestNext executionId latest b).get i = some c) : latest.get i = some c ∨
      (c = b ∧ b.itemId = i ∧ b.executionId = executionId ∧ b.itemDisposition = .required) := by
  have hput : (latest.put b.itemId b).get i = some c → ¬(b.executionId ≠ executionId ∨ b.itemDisposition ≠ .required) →
      latest.get i = some c ∨
        (c = b ∧ b.itemId = i ∧ b.executionId = executionId ∧ b.itemDisposition = .required) := by
    intro hget hkept
    rw [not_or, not_not, not_not] at hkept
    rw [Table.get_put] at hget
    split at hget
    · next hi =>
      cases hget
      exact Or.inr ⟨rfl, hi.symm, hkept⟩
    · exact Or.inl hget
  unfold latestNext at hc
  split at hc
  · exact Or.inl hc
  · next hkept =>
    split at hc
    · exact hput hc hkept
    · split at hc
      · exact hput hc hkept
      · exact Or.inl hc

theorem latestFold_grows (executionId : UUID) (attempts : List (UUID × Attempt)) :
    ∀ (latest : Table UUID Attempt) (i : UUID) (c : Attempt), latest.get i = some c →
    ∃ c', (attempts.foldl (fun latest x => latestNext executionId latest x.2) latest).get i = some c' ∧
      c.attemptNumber ≤ c'.attemptNumber := by
  induction attempts with
  | nil => exact fun latest i c hc => ⟨c, hc, le_rfl⟩
  | cons x attempts ih =>
    intro latest i c hc
    obtain ⟨d, hd, hcd⟩ := latestNext_grows executionId latest x.2 i c hc
    obtain ⟨e, he, hde⟩ := ih _ i d hd
    exact ⟨e, he, hcd.trans hde⟩

theorem latestFold_covers (executionId : UUID) (attempts : List (UUID × Attempt)) :
    ∀ (latest : Table UUID Attempt), ∀ x ∈ attempts, x.2.executionId = executionId →
    x.2.itemDisposition = .required →
    ∃ c, (attempts.foldl (fun latest x => latestNext executionId latest x.2) latest).get x.2.itemId = some c ∧
      x.2.attemptNumber ≤ c.attemptNumber := by
  induction attempts with
  | nil => exact fun latest x hx => absurd hx List.not_mem_nil
  | cons y attempts ih =>
    intro latest x hx he hr
    rcases List.mem_cons.mp hx with rfl | hx
    · obtain ⟨c, hc, hle⟩ := latestNext_covers executionId latest x.2 he hr
      obtain ⟨d, hd, hcd⟩ := latestFold_grows executionId attempts _ _ c hc
      exact ⟨d, hd, hle.trans hcd⟩
    · exact ih _ x hx he hr

theorem latestFold_from (executionId : UUID) (attempts : List (UUID × Attempt)) :
    ∀ (latest : Table UUID Attempt) (i : UUID) (c : Attempt),
    (attempts.foldl (fun latest x => latestNext executionId latest x.2) latest).get i = some c →
    latest.get i = some c ∨ ∃ x ∈ attempts, c = x.2 ∧ x.2.itemId = i ∧ x.2.executionId = executionId ∧
      x.2.itemDisposition = .required := by
  induction attempts with
  | nil => exact fun latest i c hc => Or.inl hc
  | cons y attempts ih =>
    intro latest i c hc
    rcases ih _ i c hc with hnext | ⟨x, hx, hfacts⟩
    · rcases latestNext_from executionId latest y.2 i c hnext with hstart | ⟨hcy, hfacts⟩
      · exact Or.inl hstart
      · exact Or.inr ⟨y, List.mem_cons_self, hcy, hfacts⟩
    · exact Or.inr ⟨x, List.mem_cons_of_mem _ hx, hfacts⟩

theorem anyChildFailed_eq_false (db : Db) (attempts : List (UUID × Attempt))
    (h : anyChildFailed db attempts = .ok false) : ∀ x ∈ attempts, ∃ run, db.runs.get x.2.runId = some run ∧
      run.state ≠ .failed ∧ run.state ≠ .cancelled := by
  induction attempts with
  | nil => exact fun x hx => absurd hx List.not_mem_nil
  | cons y attempts ih =>
    simp only [anyChildFailed, bind_eq_ok, orRaise_eq_ok] at h
    obtain ⟨run, hrun, h⟩ := h
    split at h
    · cases h
    · next hstate =>
      rw [not_or] at hstate
      intro x hx
      rcases List.mem_cons.mp hx with rfl | hx
      · exact ⟨run, hrun, hstate⟩
      · exact ih h x hx

/-- No attempt of a required item is overtaken only by failed or cancelled ones. -/
theorem latestRequired_spec (db : Db) (attempts : List (UUID × Attempt)) (executionId : UUID)
    (h : latestRequiredChildFailed db attempts executionId = .ok false) (x : UUID × Attempt) (hx : x ∈ attempts)
    (he : x.2.executionId = executionId) (hr : x.2.itemDisposition = .required) :
    ∃ y ∈ attempts, y.2.executionId = executionId ∧ y.2.itemId = x.2.itemId ∧ y.2.itemDisposition = .required ∧
      x.2.attemptNumber ≤ y.2.attemptNumber ∧ ∃ run, db.runs.get y.2.runId = some run ∧
        run.state ≠ .failed ∧ run.state ≠ .cancelled := by
  obtain ⟨c, hc, hle⟩ := latestFold_covers executionId attempts Table.empty x hx he hr
  rcases latestFold_from executionId attempts Table.empty _ c hc with hempty | ⟨y, hy, rfl, hitem, hye, hyr⟩
  · cases hempty
  · have hrow := anyChildFailed_eq_false db _ h (x.2.itemId, y.2) ((Table.mem_rows_iff _ _ _).mpr hc)
    exact ⟨y, hy, hye, hitem, hyr, hle, hrow⟩

end ParallelForge.EpicRun
