import ParallelForge.EpicRun.Launch

/-!
# Dispatch of an execution (`application/services/epic_dispatch.py`, `epic_dispatch_worker.py`)

The owner enables the dispatch of one execution. A worker that finds a ready item
claims it in one transaction, launches it in another and settles the claim in a
third; between any two of them it may stop, and others may act.
-/

namespace ParallelForge.EpicRun
open Base Brainstorm Budget Epic Run

/-- `_CLAIM_LIFETIME` and `_RECHECK_INTERVAL`. -/
def claimLifetime : ℤ := 120000000
def recheckInterval : ℤ := 1000000

def Db.putSetting (db : Db) (executionId : UUID) (setting : Setting) : Db :=
  { db with settings := db.settings.put executionId setting }

def Db.putControl (db : Db) (executionId : UUID) (control : Control) : Db :=
  { db with controls := db.controls.put executionId control }

/-! ### The owner's configuration -/

/-- The control of an execution that only its exhausted budget has blocked. -/
def budgetBlocked (db : Db) (executionId : UUID) : Option Control :=
  (db.controls.get executionId).filter fun c =>
    c.state == .blocked && c.blockerCode.any BlockerCode.isBudgetExhausted

/-- Enabling dispatch lifts such a block; the warning is what it was for. -/
def recoverBudget (db : Db) (now : ℤ) (executionId : UUID) (enabled : Bool) : Db × Option BlockerCode :=
  match if enabled then budgetBlocked db executionId else none with
  | some c => (db.putControl executionId
      { c with state := .active, version := c.version + 1, blockerCode := none, updatedAt := now }, c.blockerCode)
  | none => (db, if (controlState db executionId).any (· == .active) then none else some .executionNotActive)

def configuredSetting (row : Option Setting) (epicId : UUID) (actor : Actor) (request : DispatchRequest)
    (warning : Option BlockerCode) : Setting where
  epicId := row.elim epicId fun r => r.epicId
  version := row.elim 1 fun r => r.version + 1
  enabled := request.enabled
  actorId := actor.actorId
  sessionId := actor.sessionId
  profileId := request.profileId
  profileVersion := request.profileVersion
  claim := none
  blockerCode := warning
  checkedAt := none

/-- `configure`. -/
def configure (db : Db) (now : ℤ) (actor : Actor) (epicId executionId : UUID) (key : Str)
    (request : DispatchRequest) : Except Fault Db := do
  match ← reserve db actor.actorId .dispatchConfigure key (.dispatchConfigure epicId executionId request) with
  | some _ => return db
  | none => do
    require ((db.env.epics epicId).isSome = true) .notFound
    let execution ← orRaise (db.executions.get executionId) .notFound
    require (execution.epicId = epicId) .notFound
    let row := db.settings.get executionId
    require (row.elim 0 (fun r => r.version) = request.expectedDispatchVersion)
      (.dispatchConflict "dispatch version is stale")
    require (request.profileId.all (fun id => request.profileVersion.all (db.env.profiles id)) = true)
      (.dispatchConflict "profile does not exist")
    let (db, warning) := recoverBudget db now executionId request.enabled
    let db := db.putSetting executionId (configuredSetting row epicId actor request warning)
    let receipt : Receipt := ⟨.dispatchConfigure epicId executionId request, executionId, none⟩
    return { db with receipts := db.receipts.put (actor.actorId, .dispatchConfigure, key) receipt }

/-! ### The worker -/

structure Candidate where
  executionId : UUID
  epicId : UUID
  wasEnabled : Option Bool

/-- The `where` clause of the poll. -/
def polled (db : Db) (now : ℤ) (executionId : UUID) (control : Control) : Bool :=
  let enabled := (db.settings.get executionId).any fun s => s.enabled
  (enabled && (db.settings.get executionId).all fun s => s.checkedAt.all (· < now - recheckInterval)) ||
    (control.state == .active && !enabled && decide (control.updatedAt < now - recheckInterval))

def pollTime (db : Db) (row : UUID × Control) : Option ℤ :=
  match db.settings.get row.1 with
  | some s => if s.enabled then s.checkedAt else some row.2.updatedAt
  | none => some row.2.updatedAt

/-- `asc().nullsfirst()`, then the execution id. -/
def pollsFirst : Option ℤ × UUID → Option ℤ × UUID → Bool
  | (none, a), (none, b) => a ≤ b
  | (none, _), (some _, _) => true
  | (some _, _), (none, _) => false
  | (some x, a), (some y, b) => x < y || (x == y && a ≤ b)

/-- The first transaction. -/
def selectCandidate (db : Db) (now : ℤ) : Option Candidate :=
  (((db.controls.select (polled db now)).insertionSort fun a b =>
    pollsFirst (pollTime db a, a.1) (pollTime db b, b.1) = true).head?).map fun row =>
      ⟨row.1, row.2.epicId, (db.settings.get row.1).map fun s => s.enabled⟩

/-- `_block_failed_child`. -/
def blockFailedChild (db : Db) (now : ℤ) (executionId : UUID) (control : Control) : Db :=
  let db := db.putControl executionId { control with
    state := .blocked
    version := control.version + 1
    blockerCode := some .predecessorFailed
    updatedAt := now }
  match db.settings.get executionId with
  | some setting => db.putSetting executionId { setting with
      enabled := false, blockerCode := some .predecessorFailed, claim := none }
  | none => db

/-- The transaction after a readiness that raised. -/
def readinessUnavailable (db : Db) (now : ℤ) (c : Candidate) : Except Fault Db := do
  require ((db.env.epics c.epicId).isSome = true) .notFound
  match (db.controls.get c.executionId).filter fun control => control.state == .active with
  | some control =>
    if ← latestRequiredChildFailed db (db.listAttempts c.epicId (some c.executionId)) c.executionId then
      return blockFailedChild db now c.executionId control
    else match (db.settings.get c.executionId).filter fun setting => setting.enabled with
      | some setting => return db.putSetting c.executionId { setting with
          checkedAt := some now, blockerCode := some .readinessUnavailable }
      | none => return db.putControl c.executionId { control with updatedAt := now }
  | none => match (db.settings.get c.executionId).filter fun setting => setting.enabled with
    | some setting => return db.putSetting c.executionId { setting with
        checkedAt := some now, blockerCode := some .readinessUnavailable }
    | none => return db

/-- What the worker keeps of its claim. -/
structure ClaimedLaunch where
  executionId : UUID
  epicId : UUID
  itemId : UUID
  token : UUID
  actor : Actor
  expectedEpicVersion : ℤ
  source : Execution
  profileId : Option UUID
  profileVersion : Option ℤ

def ClaimedLaunch.request (l : ClaimedLaunch) : LaunchRequest where
  expectedEpicVersion := l.expectedEpicVersion
  executionId := some l.executionId
  briefRevisionId := l.source.briefRevisionId
  briefDigest := l.source.briefDigest
  graphRevisionId := l.source.graphRevisionId
  graphDigest := l.source.graphDigest
  itemId := l.itemId
  profileId := l.profileId
  profileVersion := l.profileVersion
  ownerOverride := false
  overrideNote := none

/-- `f"epic.dispatch:{execution_id}:{item_id}"`. -/
def dispatchKey (executionId itemId : UUID) : Str :=
  codes "epic.dispatch:" ++ uuidText executionId ++ [58] ++ uuidText itemId

/-- The run of a child has ended and left nothing behind. -/
def childSettled (db : Db) (attempt : UUID × Attempt) : Except Fault Bool := do
  let run ← orRaise (db.runs.get attempt.2.runId) .notFound
  return isTerminalState run.state && db.isQuiescent attempt.2.runId &&
    (db.holds.get attempt.1).any fun hold => hold.effectsSettled

/-- The first child of the epic that a launch would wait for. -/
def waitingFor (db : Db) : List (UUID × Attempt) → Except Fault (Option BlockerCode)
  | [] => .ok none
  | attempt :: attempts => do
    let run ← orRaise (db.runs.get attempt.2.runId) .notFound
    if isTerminalState run.state = false then return some .activeChild
    else if (db.isQuiescent attempt.2.runId &&
        (db.holds.get attempt.1).any fun hold => hold.effectsSettled) = false then
      return some .childEffectsUnsettled
    else waitingFor db attempts

section progress
variable (now : ℤ) (c : Candidate)

/-- The completion of an execution whose required items are all verified. -/
def complete (db : Db) (control : Control) (setting : Option Setting) (attempts : List (UUID × Attempt)) :
    Except Fault Db := do
  let settled ← attempts.mapM (childSettled db)
  if settled.all id then
    let db := db.putControl c.executionId { control with
      state := .succeeded, version := control.version + 1, blockerCode := none, updatedAt := now }
    match setting with
    | some s => return db.putSetting c.executionId { s with blockerCode := none, enabled := false }
    | none => return db
  else match setting.filter fun s => s.enabled with
    | some s => return db.putSetting c.executionId { s with blockerCode := some .childEffectsUnsettled }
    | none => return db

/-- The claim of a ready item, or the reason to wait. -/
def claimReady (db : Db) (epic : EpicRow) (s : Setting) (required : List EpicItemEligibility)
    (attempts : List (UUID × Attempt)) (token : UUID) : Except Fault (Option ClaimedLaunch × Db) := do
  match required.find? fun item => item.status = .ready with
  | none =>
    let blocker := match required.find? fun item => item.status = .blocked with
      | some item => item.blockerCode
      | none => some .childActive
    return (none, db.putSetting c.executionId { s with blockerCode := blocker })
  | some ready =>
    if attempts.any (fun a => a.2.itemId == ready.itemId) = true then
      return (none, db.putSetting c.executionId { s with blockerCode := some .predecessorIntegrationUnverified })
    else match ← waitingFor db (db.listAttempts c.epicId none) with
      | some waiting => return (none, db.putSetting c.executionId { s with blockerCode := some waiting })
      | none => do
        let execution ← orRaise (db.executions.get c.executionId) .integrity
        let claimed := { s with claim := some ⟨ready.itemId, token, now + claimLifetime⟩, blockerCode := none }
        return (some ⟨c.executionId, c.epicId, ready.itemId, token, ⟨s.actorId, s.sessionId⟩, epic.version,
          execution, s.profileId, s.profileVersion⟩, db.putSetting c.executionId claimed)

/-- What follows once no required child has failed and no claim stands. -/
def advance (db : Db) (epic : EpicRow) (control : Control) (setting : Option Setting)
    (readiness : List EpicItemEligibility) (attempts : List (UUID × Attempt)) (token : UUID) :
    Except Fault (Option ClaimedLaunch × Db) := do
  let required := readiness.filter fun item => item.disposition = .required
  if required.all (fun item => item.status == .verified) = true then
    let db ← complete now c db control setting attempts
    return (none, db)
  else match setting.filter fun s => s.enabled with
    | none => return (none, db)
    | some s => claimReady now c db epic s required attempts token

/-- The transaction after the readiness of an active execution. -/
def progressActive (db : Db) (epic : EpicRow) (control : Control) (readiness : List EpicItemEligibility)
    (token : UUID) : Except Fault (Option ClaimedLaunch × Db) := do
  let attempts := db.listAttempts c.epicId (some c.executionId)
  match (db.settings.get c.executionId).filter fun s => s.enabled with
  | none =>
    if c.wasEnabled ≠ some true ∧ now - recheckInterval ≤ control.updatedAt then return (none, db)
    else do
      let control := { control with updatedAt := now }
      let db := db.putControl c.executionId control
      if ← latestRequiredChildFailed db attempts c.executionId then
        return (none, blockFailedChild db now c.executionId control)
      else advance now c db epic control (db.settings.get c.executionId) readiness attempts token
  | some s => do
    let s := { s with checkedAt := some now }
    let db := db.putSetting c.executionId s
    if ← latestRequiredChildFailed db attempts c.executionId then
      return (none, blockFailedChild db now c.executionId control)
    else match s.claim with
      | none => advance now c db epic control (some s) readiness attempts token
      | some claim =>
        if now < claim.expiresAt then return (none, db)
        else if attempts.any (fun a => a.2.itemId == claim.itemId) = true then
          -- a crash after the launch: its attempt wins
          return (none, db.putSetting c.executionId { s with claim := none, blockerCode := none })
        else
          let s := { s with claim := none }
          advance now c (db.putSetting c.executionId s) epic control (some s) readiness attempts token

/-- The transaction that follows `readiness`. -/
def progress (db : Db) (readiness : List EpicItemEligibility) (token : UUID) :
    Except Fault (Option ClaimedLaunch × Db) := do
  let epic ← orRaise (db.env.epics c.epicId) .notFound
  match (db.controls.get c.executionId).filter fun control => control.state == .active with
  | some control => progressActive now c db epic control readiness token
  | none => match (db.settings.get c.executionId).filter fun s => s.enabled with
    | none => return (none, db)
    | some s =>
      let ended := (controlState db c.executionId).any fun state => state == .succeeded || state == .cancelled
      return (none, db.putSetting c.executionId { s with
        checkedAt := some now, blockerCode := some .executionNotActive, enabled := !ended })

end progress

/-- The blocker a finished launch leaves. -/
def launchBlocker : Except Fault (UUID × Attempt) → Option BlockerCode
  | .ok _ => none
  | .error (.launchConflict codes _) =>
    let waiting := codes.find? fun code => code = .activeChild ∨ code = .childEffectsUnsettled
    let permanent := codes.find? fun code => code = .predecessorFailed ∨ code.isBudgetExhausted = true
    some ((permanent <|> waiting <|> codes.head?).getD .dispatchBlocked)
  | .error _ => some .dispatchError

/-- The control after a permanent refusal. -/
def blockedControl (db : Db) (now : ℤ) (executionId : UUID) (blocker : Option BlockerCode) : Db :=
  match (db.controls.get executionId).filter fun control => control.state == .active with
  | some control =>
    if blocker.any (fun code => code == .predecessorFailed || code.isBudgetExhausted) = true then
      db.putControl executionId { control with
        state := .blocked, version := control.version + 1, blockerCode := blocker, updatedAt := now }
    else db
  | none => db

/-- A failed predecessor is looked at once more; any other blocker stands. -/
def blockerStands (db : Db) (l : ClaimedLaunch) (blocker : Option BlockerCode) : Except Fault Bool :=
  if blocker = some .predecessorFailed then
    latestRequiredChildFailed db (db.listAttempts l.epicId (some l.executionId)) l.executionId
  else .ok true

/-- A refusal that is not one to wait for disables dispatch. -/
def settledSetting (s : Setting) (now : ℤ) (blocker : Option BlockerCode) : Setting :=
  let stops := blocker.any fun code => code != .activeChild && code != .childEffectsUnsettled
  { s with claim := none, blockerCode := blocker, checkedAt := some now, enabled := s.enabled && !stops }

/-- The last transaction, which settles the claim. -/
def settleClaim (db : Db) (now : ℤ) (l : ClaimedLaunch) (blocker : Option BlockerCode) : Except Fault Db := do
  require ((db.env.epics l.epicId).isSome = true) .notFound
  match (db.settings.get l.executionId).filter fun s => s.claim.any fun claim => claim.token == l.token with
  | none => return db
  | some s => do
    let stands ← blockerStands db l blocker
    let blocker := if stands then blocker else some .activeChild
    let db := db.putSetting l.executionId (settledSetting s now blocker)
    return blockedControl db now l.executionId blocker

/-- Where `run_once` stands. -/
inductive Worker
  | idle
  | selected (c : Candidate)
  | inspected (c : Candidate) (seen : Inspected)
  | proved (c : Candidate) (seen : Inspected) (proof : List DependencyEvidence)
  | unavailable (c : Candidate)
  | ready (c : Candidate) (readiness : List EpicItemEligibility)
  | claimed (l : ClaimedLaunch)
  | launched (l : ClaimedLaunch) (blocker : Option BlockerCode)

/-- What the worker takes from outside for its next transaction; `readAt` is the clock it
read before it. -/
structure WorkerOutside where
  readAt : ℤ
  git : Git
  handoffId : UUID → UUID
  token : UUID
  launch : Outside

/-- The answer of a transaction that a caller lets escape. -/
def orIdle {α : Type} (db : Db) (result : Except Fault α) (next : α → Worker × Db) : Worker × Db :=
  match result with
  | .ok a => next a
  | .error _ => (.idle, db)

/-- The next transaction of `run_once`. -/
def Worker.turn (cfg : Config) (db : Db) (now : ℤ) (o : WorkerOutside) : Worker → Worker × Db
  | .idle => match selectCandidate db o.readAt with
    | some c => (.selected c, db)
    | none => (.idle, db)
  | .selected c => match inspectBase db o.git c.epicId c.executionId with
    | .ok seen => (.inspected c seen, db)
    | .error _ => (.unavailable c, db)
  | .inspected c seen => match proveItems db o.git o.handoffId c.epicId c.executionId seen with
    | .ok (proof, handoffs) => (.proved c seen proof, { db with handoffs := handoffs })
    | .error _ => (.unavailable c, db)
  | .proved c seen proof => match readiness db c.epicId c.executionId seen proof with
    | .ok items => (.ready c items, db)
    | .error _ => (.unavailable c, db)
  | .unavailable c => orIdle db (readinessUnavailable db now c) fun db => (.idle, db)
  | .ready c items => orIdle db (progress o.readAt c db items o.token) fun (own, db) =>
      (own.elim .idle .claimed, db)
  | .claimed l =>
    let launched := launch cfg db now l.actor l.epicId (dispatchKey l.executionId l.itemId) l.request
      (some l.token) o.launch
    (.launched l (launchBlocker launched.1), launched.2)
  | .launched l blocker => orIdle db (settleClaim db now l blocker) fun db => (.idle, db)

end ParallelForge.EpicRun
