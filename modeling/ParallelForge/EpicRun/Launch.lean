import ParallelForge.EpicRun.Eligibility

/-!
# Launching an item (`application/services/epic_run_bridge.py`)

A launch collects every reason against itself and is refused for any of them,
unless its owner overrides. The evidence of the dependencies is asked for in
transactions of its own, until the base has not moved meanwhile. A receipt makes a
second call with the same key a replay.
-/

namespace ParallelForge.EpicRun
open Base Brainstorm Budget Epic Run

/-- The texts and digests of the command queue. -/
structure Commands where
  enc : Command.Encoding
  red : Durability

/-- What the services are built with. -/
structure Config where
  epicCeiling : TaskBudget
  childHold : TaskBudget
  commands : Commands

/-- `hash_idempotency_key` accepts the key. -/
def validKey (key : Str) : Bool := key != [] && (Agents.utf8Length key).any (· ≤ 255)

/-- `mutations.reserve`: the receipt of an identical completed call, if there is one. -/
def reserve (db : Db) (actorId : UUID) (action : MutationAction) (key : Str) (request : MutationRequest) :
    Except Fault (Option Receipt) := do
  require (validKey key = true) (.value "idempotency key is invalid")
  match db.receipts.get (actorId, action, key) with
  | none => return none
  | some receipt => do
    require (receipt.request = request) .mutationConflict
    return some receipt

/-- `create_execution`, with its control. -/
def createExecution (db : Db) (now : ℤ) (id : UUID) (execution : Execution) : Except Fault Db := do
  require (db.executions.get id = none ∧ (db.controls.get id).isNone = true) .integrity
  return { db with
    executions := db.executions.put id execution
    controls := db.controls.put id ⟨execution.epicId, 1, .active, none, now⟩ }

/-- `has_active_execution`. -/
def hasActiveExecution (db : Db) (epicId : UUID) : Bool :=
  db.executions.any fun id e => e.epicId == epicId &&
    (db.controls.get id).all fun control => control.state != .succeeded && control.state != .cancelled

/-- `start`. -/
def start (db : Db) (now : ℤ) (actor : Actor) (epicId : UUID) (key : Str) (request : ExecutionStartRequest)
    (id : UUID) : Except Fault (UUID × Db) := do
  match ← reserve db actor.actorId .executionStart key (.executionStart epicId request) with
  | some receipt => return (receipt.resourceId, db)
  | none => do
    let epic ← orRaise (db.env.epics epicId) .notFound
    require (epic.version = request.expectedEpicVersion) (.launchConflict [.epicVersionStale] epic.version)
    let refusal := Fault.bindingConflict "matching saved brief and graph are required"
    let briefId ← orRaise (request.briefRevisionId <|> epic.acceptedBriefRevisionId) refusal
    let briefDigest ← orRaise (request.briefDigest <|> epic.acceptedBriefDigest) refusal
    let graphId ← orRaise (request.graphRevisionId <|> epic.acceptedGraphRevisionId) refusal
    let graphDigest ← orRaise (request.graphDigest <|> epic.acceptedGraphDigest) refusal
    let contentDigest ← orRaise (db.env.briefs epicId briefId) .notFound
    let graph ← orRaise (db.env.graphs epicId graphId) .notFound
    require (contentDigest = briefDigest) (.bindingConflict "brief revision digest mismatch")
    require (graph.graphDigest = graphDigest ∧ graph.briefRevisionId = briefId ∧ graph.briefDigest = briefDigest)
      (.bindingConflict "graph revision does not match brief")
    let accepted := some briefId = epic.acceptedBriefRevisionId ∧ some briefDigest = epic.acceptedBriefDigest ∧
      some graphId = epic.acceptedGraphRevisionId ∧ some graphDigest = epic.acceptedGraphDigest
    let warnings := (if accepted then [] else [BlockerCode.sourceNotAccepted]) ++
      if hasActiveExecution db epicId then [BlockerCode.activeExecution] else []
    require (warnings = [] ∨ request.ownerOverride = true) (.launchConflict warnings epic.version)
    let created ← createExecution db now id ⟨epicId, briefId, briefDigest, graphId, graphDigest⟩
    return (id, { created with
      receipts := created.receipts.put (actor.actorId, .executionStart, key) ⟨.executionStart epicId request, id, none⟩ })

/-! ### The budget -/

/-- `EpicBudgetTotals.blockers`. -/
def totalsBlockers (totals : EpicTotals) (ceiling nextHold : TaskBudget) (disabled : List EpicDimension) :
    List BlockerCode :=
  let dimensions : List EpicDimension := [.durationMs, .toolCallCount, .inputTokens, .outputTokens,
    .estimatedApiCostMinor, .providerAttempts]
  let exhausted (key : EpicDimension) : Bool := match budgetAmounts ceiling key with
    | none => false
    | some limit => !disabled.contains key &&
      !(budgetAmounts nextHold key).any fun amount => totals.known key + totals.held key + amount ≤ limit
  (totals.warnings.map BlockerCode.budgetWarning ++ (dimensions.filter exhausted).map BlockerCode.budgetExhausted ++
    if totals.isUnknown then [BlockerCode.epicUsageUnknown] else []).eraseDups

/-- `child_budget_blockers`; the ledger is created on first use. -/
def childBudgetBlockers (cfg : Config) (db : Db) (epicId projectId : UUID) : Except Fault (List BlockerCode × Db) := do
  let ledger := (db.ledgers.get epicId).getD ⟨projectId, cfg.epicCeiling, []⟩
  require (ledger.projectId = projectId) (.value "epic budget project binding conflicts")
  return (totalsBlockers (db.env.totals epicId) ledger.ceiling cfg.childHold ledger.disabledDimensions,
    { db with ledgers := db.ledgers.put epicId ledger })

/-! ### The base -/

/-- `inspect_base`. -/
def inspectProject (project : Project) (inspection : Option Inspection) : Except Fault Inspection := do
  require (project.hasPolicy = true ∧ project.currentPolicyVersion.isSome = true) .runCreation
  let inspection ← orRaise inspection .repositoryInspection
  require (inspection.defaultBranch = project.defaultBranch ∧ inspection.baseRef = project.integrationRef ∧
    isHexOfLength 40 inspection.baseSha = true) .runCreation
  return inspection

/-- What one turn of the loop sees: the repository while the evidence is collected and after. -/
structure Turn where
  git : Git
  handoffId : UUID → UUID
  final : Option Inspection

/-- What `launch` takes from outside its transaction. -/
structure Outside where
  createdAt : ℤ
  base : Option Inspection
  turns : Fin 3 → Turn
  durable : DependencyEvidence → Bool
  contextDigest : Option String
  admits : Bool
  executionId : UUID
  taskId : UUID
  runId : UUID
  attemptId : UUID

/-- The variables of `launch` before its loop. -/
structure Prepared where
  db : Db
  epic : EpicRow
  project : Project
  item : ItemSnapshot
  executionId : UUID
  fresh : Bool
  inspection : Inspection
  early : List BlockerCode

/-- The checks of a dispatch claim. -/
def claimCurrent (db : Db) (now : ℤ) (actor : Actor) (epicId : UUID) (request : LaunchRequest) (token : UUID) :
    Bool :=
  (request.executionId.bind db.settings.get).any fun setting =>
    setting.enabled && setting.epicId == epicId &&
    setting.claim.any (fun claim => claim.itemId == request.itemId && claim.token == token &&
      decide (now < claim.expiresAt)) &&
    setting.actorId == actor.actorId && setting.sessionId == actor.sessionId && !request.ownerOverride

/-- The execution of the request, or a new one. -/
def executionOf (db : Db) (now : ℤ) (epicId : UUID) (request : LaunchRequest) (newId : UUID) :
    Except Fault (UUID × Db) :=
  let source : Execution := ⟨epicId, request.briefRevisionId, request.briefDigest, request.graphRevisionId,
    request.graphDigest⟩
  match request.executionId with
  | none => do
    let created ← createExecution db now newId source
    return (newId, created)
  | some id => do
    let execution ← orRaise (db.executions.get id) .notFound
    require (execution = source) (.bindingConflict "execution source binding does not match")
    return (id, db)

/-- The blockers of a stale request; a dispatched launch is bound by its claim instead. -/
def staleBlockers (epic : EpicRow) (request : LaunchRequest) (token : Option UUID) : List BlockerCode :=
  if token.isSome then [] else
    (if epic.version = request.expectedEpicVersion then [] else [.epicVersionStale]) ++
    (if epic.acceptedBriefRevisionId = some request.briefRevisionId ∧
      epic.acceptedBriefDigest = some request.briefDigest then [] else [.briefNotAccepted]) ++
    if epic.acceptedGraphRevisionId = some request.graphRevisionId ∧
      epic.acceptedGraphDigest = some request.graphDigest then [] else [.graphNotAccepted]

def controlState (db : Db) (executionId : UUID) : Option ControlState :=
  (db.controls.get executionId).map fun control => control.state

/-- The body of `launch` up to the loop over the base. -/
def prepare (cfg : Config) (db : Db) (now : ℤ) (actor : Actor) (epicId : UUID) (request : LaunchRequest)
    (token : Option UUID) (o : Outside) : Except Fault Prepared := do
  let epic ← orRaise (db.env.epics epicId) .notFound
  require (token.all (claimCurrent db now actor epicId request) = true) (.bindingConflict "dispatch claim is stale")
  let contentDigest ← orRaise (db.env.briefs epicId request.briefRevisionId) .notFound
  let graph ← orRaise (db.env.graphs epicId request.graphRevisionId) .notFound
  require (contentDigest = request.briefDigest) (.bindingConflict "brief revision digest mismatch")
  require (graph.graphDigest = request.graphDigest ∧ graph.briefRevisionId = request.briefRevisionId ∧
    graph.briefDigest = request.briefDigest) (.bindingConflict "graph revision binding mismatch")
  let item ← orRaise (graph.items.find? fun item => item.itemId == request.itemId)
    (.bindingConflict "item is not in saved graph")
  let (budget, db) ← childBudgetBlockers cfg db epicId epic.projectId
  let project ← orRaise (db.env.projects epic.projectId) .notFound
  let inspection ← inspectProject project o.base
  let (executionId, db) ← executionOf db now epicId request o.executionId
  let inactive := if (controlState db executionId).all (· == .active) then [] else [BlockerCode.executionNotActive]
  return ⟨db, epic, project, item, executionId, request.executionId.isNone, inspection,
    staleBlockers epic request token ++ budget ++ inactive⟩

/-- The evidence of the dependencies on this base. -/
def report (db : Db) (epicId : UUID) (p : Prepared) (inspection : Inspection) (turn : Turn) (handoffs : Handoffs) :
    Except Fault (List DependencyEvidence × Handoffs) :=
  if p.item.dependencyItemIds = [] ∨ p.fresh = true then .ok ([], handoffs)
  else evidence db turn.git turn.handoffId handoffs epicId p.executionId p.item.dependencyItemIds
    inspection.baseRef inspection.baseSha

/-- The loop until the base has not moved; `none` when it moved every time. -/
def settleBase (db : Db) (epicId : UUID) (p : Prepared) :
    List Turn → Inspection → Handoffs → Except Fault (Inspection × Option (List DependencyEvidence)) × Handoffs
  | [], inspection, handoffs => (.ok (inspection, none), handoffs)
  | turn :: turns, inspection, handoffs =>
    match report db epicId p inspection turn handoffs with
    | .error e => (.error e, handoffs)
    | .ok (reported, handoffs') =>
      match inspectProject p.project turn.final with
      | .error e => (.error e, handoffs')
      | .ok final =>
        if final.baseRef = inspection.baseRef ∧ final.baseSha = inspection.baseSha then
          (.ok (inspection, some reported), handoffs')
        else settleBase db epicId p turns final handoffs'

/-- One turn of the loop that indexes the reported evidence. -/
def indexNext (durable : DependencyEvidence → Bool) (dependencies : List UUID)
    (indexed : Table UUID DependencyEvidence) (observation : DependencyEvidence) :
    Except Fault (Table UUID DependencyEvidence) := do
  require (durable observation = true) (.value "durable payload")
  if observation.itemId ∈ dependencies then do
    require ((indexed.get observation.itemId).isNone = true) (.value "duplicate eligibility evidence")
    return indexed.put observation.itemId observation
  else return indexed

def indexEvidence (durable : DependencyEvidence → Bool) (dependencies : List UUID)
    (reported : List DependencyEvidence) : Except Fault (Table UUID DependencyEvidence) :=
  reported.foldlM (indexNext durable dependencies) Table.empty

def dependencyEvidence (dependencies : List UUID) (indexed : Table UUID DependencyEvidence) :
    List DependencyEvidence :=
  dependencies.map fun id => (indexed.get id).getD (notVerified id .unknown none EvidenceStatus.unknown_ne)

/-- The blocker a prior child gives rise to. -/
def childBlocker (db : Db) (attempt : UUID × Attempt) : Except Fault (List BlockerCode) := do
  let run ← orRaise (db.runs.get attempt.2.runId) .notFound
  return if isTerminalState run.state = false then [.activeChild]
    else if db.isQuiescent attempt.2.runId = false then [.childEffectsUnsettled] else []

/-- `1 + max(..., default=0)`. -/
def nextNumber (prior : List (UUID × Attempt)) (executionId itemId : UUID) : ℕ :=
  1 + ((prior.filter fun a => a.2.executionId == executionId && a.2.itemId == itemId).map
    fun a => a.2.attemptNumber).foldl max 0

/-- The run `create_in_transaction` makes. -/
def newRun (id projectId taskId : UUID) (policyVersion : Option ℤ) (inspection : Inspection) : RunSnapshot where
  id := id
  projectId := projectId
  taskId := taskId
  state := .created
  version := 0
  suspendedState := none
  localRemediationCount := 0
  remoteRemediationCount := 0
  suspensionKind := none
  suspensionContext := none
  policyVersion := policyVersion
  baseRef := some inspection.baseRef
  baseSha := some inspection.baseSha
  branchName := none
  worktreePath := none
  databaseState := .disabled
  databaseName := none
  databaseRole := none
  secretId := none
  pendingGate := none
  pendingEvidenceDigest := none
  workflow := none
  resource_ok := rfl
  pending_ok := rfl

/-- `create_in_transaction`; what it asks of the profile and the admissions is `admits`. -/
def createRun (db : Db) (request : LaunchRequest) (o : Outside) (p : Prepared) (inspection : Inspection) :
    Except Fault Db := do
  require (request.profileId.isNone = request.profileVersion.isNone) .runCreation
  require ((db.runs.get o.runId).isNone = true) .runCreation
  require (request.profileId.all (fun id => request.profileVersion.all (db.env.profiles id)) = true ∧ o.admits = true)
    .runCreation
  return { db with
    runs := db.runs.put o.runId (newRun o.runId p.epic.projectId o.taskId p.project.currentPolicyVersion inspection) }

/-- `note_owner_child_admission`. -/
def noted (now : ℤ) (control : Control) : Control :=
  if control.state = .active ∨ control.state = .pauseRequested ∨ control.state = .resumeRequested ∨
    control.state = .cancelRequested then control
  else { control with
    version := control.version + 1
    state := .blocked
    blockerCode := some .uncontrolledChild
    updatedAt := now }

def noteOwnerChildAdmission (db : Db) (now : ℤ) (executionId : UUID) : Db :=
  { db with controls := db.controls.modify executionId (noted now) }

/-- The blockers in the order in which they end up. -/
def allBlockers (p : Prepared) (failed moved : Bool) (children : List BlockerCode)
    (evidence : List DependencyEvidence) : List BlockerCode :=
  p.early ++ (if failed then [.predecessorFailed] else []) ++
    (if p.item.disposition = .deferred then [.itemDeferred] else []) ++ children ++
    (if moved then [.repositoryBaseMoved] else []) ++
    if evidence.all (fun value => value.status == .verified) then [] else [.predecessorUnverified]

def attemptOf (actor : Actor) (epicId : UUID) (request : LaunchRequest) (o : Outside) (p : Prepared)
    (inspection : Inspection) (prior : List (UUID × Attempt)) (evidence : List DependencyEvidence)
    (blockers : List BlockerCode) (contextDigest : String) : Attempt where
  executionId := p.executionId
  epicId := epicId
  itemId := p.item.itemId
  attemptNumber := nextNumber prior p.executionId p.item.itemId
  itemDisposition := p.item.disposition
  actorId := actor.actorId
  expectedEpicVersion := request.expectedEpicVersion
  actualEpicVersion := p.epic.version
  taskId := o.taskId
  runId := o.runId
  briefRevisionId := request.briefRevisionId
  briefDigest := request.briefDigest
  graphRevisionId := request.graphRevisionId
  graphDigest := request.graphDigest
  itemDigest := p.item.itemDigest
  contextDigest := contextDigest
  baseRef := inspection.baseRef
  baseSha := inspection.baseSha
  ownerOverride := request.ownerOverride
  overrideNote := request.overrideNote
  blockerCodes := blockers
  dependencyEvidence := evidence
  createdAt := o.createdAt

/-- The unique constraints of `epic_item_attempts`. -/
def createAttempt (db : Db) (id : UUID) (attempt : Attempt) : Except Fault Db := do
  require (db.attempts.get id = none ∧ db.attempts.any (fun _ a => a.runId == attempt.runId ||
    a.taskId == attempt.taskId || (a.executionId == attempt.executionId && a.itemId == attempt.itemId &&
      a.attemptNumber == attempt.attemptNumber)) = false) .integrity
  return { db with attempts := db.attempts.put id attempt }

/-- The body of `launch` after the loop. -/
def admission (now : ℤ) (actor : Actor) (epicId : UUID) (key : Str) (request : LaunchRequest) (o : Outside)
    (p : Prepared) (inspection : Inspection) (reported : Option (List DependencyEvidence)) :
    Except Fault ((UUID × Attempt) × Db) := do
  let indexed ← indexEvidence o.durable p.item.dependencyItemIds (reported.getD [])
  let evidence := dependencyEvidence p.item.dependencyItemIds indexed
  let prior := p.db.listAttempts epicId none
  let children ← prior.mapM (childBlocker p.db)
  let failed ← latestRequiredChildFailed p.db prior p.executionId
  let blockers := allBlockers p failed reported.isNone children.flatten evidence
  require (blockers = [] ∨ request.ownerOverride = true) (.launchConflict blockers p.epic.version)
  let contextDigest ← orRaise o.contextDigest (.value "epic task context is too large")
  let db ← createRun p.db request o p inspection
  let attempt := attemptOf actor epicId request o p inspection prior evidence blockers contextDigest
  let db ← createAttempt db o.attemptId attempt
  let db := { db with holds := db.holds.put o.attemptId ⟨o.runId, false⟩ }
  let db := if request.ownerOverride = true ∧ (controlState p.db p.executionId).any (· != .active) = true then
    noteOwnerChildAdmission db now p.executionId else db
  return ((o.attemptId, attempt), { db with
    receipts := db.receipts.put (actor.actorId, .itemLaunch, key) ⟨.itemLaunch epicId request, o.attemptId, none⟩ })

/-- `get_attempt`. -/
def getAttempt (db : Db) (epicId id : UUID) : Except Fault (UUID × Attempt) := do
  let attempt ← orRaise (db.attempts.get id) .notFound
  require (attempt.epicId = epicId) .notFound
  return (id, attempt)

/-- `launch`, with the rows it leaves. The evidence transactions are committed also
when the launch is refused. -/
def launch (cfg : Config) (db : Db) (now : ℤ) (actor : Actor) (epicId : UUID) (key : Str) (request : LaunchRequest)
    (token : Option UUID) (o : Outside) : Except Fault (UUID × Attempt) × Db :=
  match reserve db actor.actorId .itemLaunch key (.itemLaunch epicId request) with
  | .error e => (.error e, db)
  | .ok (some receipt) => (getAttempt db epicId receipt.resourceId, db)
  | .ok none =>
    match prepare cfg db now actor epicId request token o with
    | .error e => (.error e, db)
    | .ok p =>
      match settleBase db epicId p (List.ofFn o.turns) p.inspection db.handoffs with
      | (.error e, handoffs) => (.error e, { db with handoffs := handoffs })
      | (.ok (inspection, reported), handoffs) =>
        match admission now actor epicId key request o p inspection reported with
        | .error e => (.error e, { db with handoffs := handoffs })
        | .ok (created, db') => (.ok created, { db' with handoffs := handoffs })

end ParallelForge.EpicRun
