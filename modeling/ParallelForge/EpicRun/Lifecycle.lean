import ParallelForge.EpicRun.Dispatch

/-!
# Control of an execution (`application/services/epic_lifecycle.py`)

The owner pauses, resumes or cancels an execution. The request writes one intent for
each child; a reconciler turns the intents into run commands and settles them one
by one, and the last one settles the control. A child that came in meanwhile is
nobody's participant, and the control is blocked instead.
-/

namespace ParallelForge.EpicRun
open Base Brainstorm Budget Epic Run

def Db.putIntent (db : Db) (id : UUID) (intent : ControlIntent) : Db :=
  { db with intents := db.intents.put id intent }

def ControlState.isRequested : ControlState → Bool
  | .pauseRequested | .resumeRequested | .cancelRequested => true
  | _ => false

/-- `row.status in ("requested", "enqueued", "observing")`. -/
def IntentStatus.isOpen : IntentStatus → Bool
  | .requested | .enqueued | .observing => true
  | _ => false

/-- `row.status in ("settled", "historical")`. -/
def IntentStatus.isSettled : IntentStatus → Bool
  | .settled | .historical => true
  | _ => false

/-! ### The request -/

/-- The list of the loop over the attempts that a run ends up in. -/
inductive Standing
  | live
  | observing
  | historical
  | alreadySettled
  deriving DecidableEq

def standing (db : Db) (action : ControlAction) (runId : UUID) (run : RunSnapshot) : Standing :=
  if isTerminalState run.state then
    if db.isQuiescent runId then .historical else .observing
  else match action with
    | .resume => if run.state = .paused then .live else .alreadySettled
    | .pause =>
      if run.state = .paused then
        if db.isQuiescent runId then .alreadySettled else .observing
      else .live
    | .cancel => .live

structure Participant where
  attemptId : UUID
  runId : UUID
  runVersion : ℤ
  standing : Standing

def participantOf (db : Db) (action : ControlAction) (attempt : UUID × Attempt) : Except Fault Participant := do
  let run ← orRaise (db.runs.get attempt.2.runId) .notFound
  return ⟨attempt.1, attempt.2.runId, run.version, standing db action attempt.2.runId run⟩

def Standing.status : Standing → IntentStatus
  | .live => .requested
  | .observing => .observing
  | .historical => .historical
  | .alreadySettled => .settled

def Standing.isPending : Standing → Bool
  | .live | .observing => true
  | _ => false

/-- The rows are written in this order. -/
def participantOrder (participants : List Participant) : List Participant :=
  participants.filter (·.standing == .live) ++ participants.filter (·.standing == .observing) ++
    participants.filter (·.standing == .historical) ++ participants.filter (·.standing == .alreadySettled)

/-- The primary key and `uq_epic_control_intent_child`. -/
def addIntent (db : Db) (id : UUID) (intent : ControlIntent) : Except Fault Db := do
  require (db.intents.get id = none ∧ db.intents.any (fun _ i => i.executionId == intent.executionId &&
    i.controlVersion == intent.controlVersion && i.runId == intent.runId) = false) .integrity
  return db.putIntent id intent

/-- `hold.effects_settled = True`, where there is a hold. -/
def settleHold (db : Db) (attemptId : UUID) : Db :=
  { db with holds := db.holds.modify attemptId fun hold => { hold with effectsSettled := true } }

/-- The checks of the action against the state. -/
def stateRefusal (action : ControlAction) (state : ControlState) : Option BlockerCode :=
  if state.isRequested then some .controlPending
  else match action with
    | .pause => if state = .active ∨ state = .blocked then none else some .pauseStateInvalid
    | .resume => if state = .paused ∨ state = .blocked then none else some .resumeStateInvalid
    | .cancel => if state = .succeeded ∨ state = .cancelled then some .cancelStateInvalid else none

/-- The intent of a participant. -/
def intentOf (now : ℤ) (actor : Actor) (executionId : UUID) (version : ℕ) (action : ControlAction)
    (p : Participant) : ControlIntent where
  executionId := executionId
  controlVersion := version
  actorId := actor.actorId
  sessionId := actor.sessionId
  action := action
  runId := p.runId
  expectedRunVersion := if p.standing = .observing then 0 else p.runVersion
  commandId := none
  status := p.standing.status
  refusal := none
  createdAt := now
  checkedAt := none

/-- What the request takes from outside: the ids of its intents, and whether the
response is a durable payload. -/
structure ControlOutside where
  intentId : UUID → UUID
  durable : ControlReceipt → Bool

/-- `request`. -/
def controlRequest (db : Db) (now : ℤ) (actor : Actor) (epicId executionId : UUID) (key : Str)
    (request : ControlRequest) (o : ControlOutside) : Except Fault (ControlReceipt × Db) := do
  match ← reserve db actor.actorId .executionControl key (.executionControl executionId request) with
  | some receipt => do
    let response ← orRaise receipt.response (.value "control receipt has no response")
    return (response, db)
  | none => do
    require ((db.env.epics epicId).isSome = true) .notFound
    let control ← orRaise (db.controls.get executionId) .notFound
    require (control.epicId = epicId) .notFound
    require (control.version = request.expectedExecutionVersion)
      (.launchConflict [.executionVersionStale] control.version)
    require ((stateRefusal request.action control.state).isNone = true)
      (.launchConflict (stateRefusal request.action control.state).toList control.version)
    let participants ← (db.listAttempts epicId (some executionId)).mapM (participantOf db request.action)
    let version := control.version + 1
    let state := if participants.any (·.standing.isPending) then request.action.requested else request.action.settled
    let db := ((participants.filter (·.standing == .historical)).map (·.attemptId)).foldl settleHold db
    let db := db.putControl executionId { control with
      version := version, state := state, blockerCode := none, updatedAt := now }
    let db ← (participantOrder participants).foldlM (fun db p =>
      addIntent db (o.intentId p.runId) (intentOf now actor executionId version request.action p)) db
    let response : ControlReceipt := ⟨executionId, version, request.action, state,
      ((participantOrder participants).filter (·.standing.isPending)).map fun p => o.intentId p.runId⟩
    require (o.durable response = true) (.value "durable payload")
    let receipt : Receipt := ⟨.executionControl executionId request, executionId, some response⟩
    return (response, { db with
      receipts := db.receipts.put (actor.actorId, .executionControl, key) receipt })

/-! ### The reconciler -/

def ControlAction.command : ControlAction → Command.RunCommandType
  | .pause => .pause
  | .resume => .resume
  | .cancel => .cancel

def Commands.work (db : Db) (now : ℤ) (newId : UUID) : Command.CommandWork where
  dbBeforeLock := ⟨db.commands, fun _ => none, fun _ => false, fun _ => false, none⟩
  db := ⟨db.commands, fun _ => none, fun _ => false, fun _ => false, none⟩
  runs := db.runs.get
  currentPolicyVersion := fun id => (db.env.projects id).bind fun project => project.currentPolicyVersion
  branchRemoved := fun _ => false
  quiescent := db.isQuiescent
  freshId := newId
  now := now

/-- The intent's command, through `enqueue_in_work`. -/
def Commands.enqueue (c : Commands) (db : Db) (now : ℤ) (id : UUID) (intent : ControlIntent) (newId : UUID) :
    Except Command.ServiceError (Command.Db × Command.CommandRow) :=
  Command.enqueueInWork c.enc c.red (Commands.work db now newId) intent.actorId intent.runId
    ("epic-control:" ++ c.enc.uuidText id)
    ⟨intent.action.command, intent.expectedRunVersion, none, none, false, none⟩

/-- The blocked control of a refused child. -/
def refusedControl (db : Db) (now : ℤ) (executionId : UUID) (control : Control) : Db :=
  db.putControl executionId { control with
    state := .blocked, blockerCode := some .childControlRefused, updatedAt := now }

/-- `_reconcile_intent` on a requested intent. -/
def enqueueIntent (c : Commands) (db : Db) (now : ℤ) (id : UUID) (intent : ControlIntent) (newId : UUID) :
    Except Fault Db := do
  let control ← orRaise (db.controls.get intent.executionId) .notFound
  require ((db.env.epics control.epicId).isSome = true) .notFound
  if control.version ≠ intent.controlVersion then
    return db.putIntent id { intent with status := .superseded }
  else match c.enqueue db now id intent newId with
    | .error e => return refusedControl (db.putIntent id { intent with
        checkedAt := some now, status := .refused, refusal := some (.admission e) }) now intent.executionId control
    | .ok (commands, command) => return ({ db with commands := commands.commands } : Db).putIntent id { intent with
        checkedAt := some now, commandId := some command.id, status := .enqueued }

/-- The look at an observed run before its intent is settled. -/
def observedSettled (db : Db) (action : ControlAction) (runId : UUID) : Except Fault Bool := do
  let run ← orRaise (db.runs.get runId) .notFound
  return (isTerminalState run.state || (action == .cancel && run.state == .cancelled) ||
    (action == .pause && run.state == .paused)) && db.isQuiescent runId

/-- `commands.get`. -/
def getCommand (c : Commands) (db : Db) (id : UUID) : Except Fault Command.CommandRow := do
  let row ← orRaise (db.commands.get id) .notFound
  (Command.commandFromRecord c.red row).mapError fun _ => .value "stored command is malformed"

/-- The command of an enqueued intent is completed; an observed one has none. -/
def acknowledged (c : Commands) (db : Db) (intent : ControlIntent) : Except Fault Bool :=
  if intent.status ≠ .enqueued then .ok true
  else match intent.commandId with
    | none => .ok false
    | some commandId => do
      let command ← getCommand c db commandId
      return command.status == .completed

/-- `correct_state`. -/
def correctState (db : Db) (intent : ControlIntent) (current : RunSnapshot) : Bool :=
  let quiescent := db.isQuiescent intent.runId
  let paused := intent.action == .pause && current.state == .paused
  let cancelled := intent.action == .cancel && current.state == .cancelled
  let ended := intent.status == .observing && isTerminalState current.state
  ((intent.status == .enqueued && decide (intent.expectedRunVersion < current.version)) || paused || cancelled ||
    ended) && (!cancelled || quiescent) && (!paused || quiescent) && (!ended || quiescent)

/-- The intent of the version for a run; the last one where the index has several. -/
def participantIntent (db : Db) (executionId : UUID) (version : ℕ) (runId : UUID) : Option ControlIntent :=
  ((db.intents.select fun _ i => i.executionId == executionId && i.controlVersion == version &&
    i.runId == runId).getLast?).map Prod.snd

/-- The state a participant's run should have. -/
def expectedState (status : IntentStatus) (action : ControlAction) (state : RunState) : Bool :=
  if status = .historical then isTerminalState state
  else match action with
    | .pause => state == .paused
    | .resume => !isTerminalState state && state != .paused
    | .cancel => state == .cancelled

/-- The loop over the bound attempts, which stops at an uncontrolled one. -/
def anyUncontrolled (db : Db) (intent : ControlIntent) : List (UUID × Attempt) → Except Fault Bool
  | [] => .ok false
  | (_, attempt) :: attempts =>
    match participantIntent db intent.executionId intent.controlVersion attempt.runId with
    | none => .ok true
    | some participant =>
      if participant.status.isSettled = false then .ok true
      else do
        let sibling ← orRaise (db.runs.get attempt.runId) .notFound
        if expectedState participant.status intent.action sibling.state = false then return true
        else if (participant.status = .historical ∨ intent.action ≠ .resume) ∧ db.isQuiescent attempt.runId = false then
          return true
        else anyUncontrolled db intent attempts

/-- Another intent of the version that is not settled. -/
def pendingOther (db : Db) (id : UUID) (intent : ControlIntent) : Bool :=
  db.intents.any fun i other => other.executionId == intent.executionId &&
    other.controlVersion == intent.controlVersion && i != id && !other.status.isSettled

/-- The control after its last intent. -/
def settleControl (db : Db) (now : ℤ) (control : Control) (id : UUID) (intent : ControlIntent) : Except Fault Db :=
  if pendingOther db id intent then .ok db
  else do
    let uncontrolled ← anyUncontrolled db intent (db.listAttempts control.epicId (some intent.executionId))
    return db.putControl intent.executionId { control with
      state := if uncontrolled then .blocked else intent.action.settled
      blockerCode := if uncontrolled then some .uncontrolledChild else none
      updatedAt := now }

/-- The settled intent, with the hold of an ended child. -/
def settleRow (db : Db) (now : ℤ) (control : Control) (id : UUID) (intent : ControlIntent) (current : RunSnapshot) :
    Except Fault Db :=
  let ended := isTerminalState current.state
  let status := if intent.status = .observing ∧ ended = true then .historical else .settled
  let holds := if ended && db.isQuiescent intent.runId then
      db.holds.mapRows fun _ hold => if hold.runId = intent.runId then { hold with effectsSettled := true } else hold
    else db.holds
  settleControl ({ db with holds := holds }.putIntent id { intent with status := status }) now control id
    { intent with status := status }

/-- `_settle_intent`. -/
def settleIntent (c : Commands) (db : Db) (now : ℤ) (id : UUID) : Except Fault (Bool × Db) :=
  match db.intents.get id with
  | none => .ok (false, db)
  | some intent => do
    let control ← orRaise (db.controls.get intent.executionId) .notFound
    require ((db.env.epics control.epicId).isSome = true) .notFound
    if intent.status ≠ .enqueued ∧ intent.status ≠ .observing then return (false, db)
    else if control.version ≠ intent.controlVersion then
      return (true, db.putIntent id { intent with status := .superseded })
    else do
      let acknowledged ← acknowledged c db intent
      if acknowledged = false then return (false, db)
      else do
        let current ← orRaise (db.runs.get intent.runId) .notFound
        if correctState db intent current = false then return (false, db)
        else do
          let settled ← settleRow db now control id intent current
          return (true, settled)

/-- `_record_refusal`. -/
def recordRefusal (db : Db) (now : ℤ) (id : UUID) (refusal : Refusal) : Except Fault Db :=
  match db.intents.get id with
  | none => .ok db
  | some intent =>
    match db.controls.get intent.executionId with
    | none => .ok db
    | some control => do
      require ((db.env.epics control.epicId).isSome = true) .notFound
      if intent.status = .requested ∨ intent.status = .enqueued then
        let db := db.putIntent id { intent with status := .refused, refusal := some refusal }
        if control.version = intent.controlVersion then return refusedControl db now intent.executionId control
        else return db
      else return db

/-- Where `reconcile_one` stands; the list is what it has still to try. -/
inductive Reconciler
  | idle
  | scanning (ids : List UUID)
  | observed (id : UUID) (action : ControlAction) (runId : UUID) (ids : List UUID)
  | commanded (id : UUID) (commandId : Option UUID) (ids : List UUID)
  | settling (id : UUID) (ids : List UUID)
  | refusing (id : UUID) (refusal : Refusal)

/-- `checked_at.nullsfirst(), created_at, id`. -/
def scannedFirst (a b : UUID × ControlIntent) : Bool :=
  let later := decide (a.2.createdAt < b.2.createdAt) || (a.2.createdAt == b.2.createdAt && decide (a.1 ≤ b.1))
  match a.2.checkedAt, b.2.checkedAt with
  | none, none => later
  | none, some _ => true
  | some _, none => false
  | some x, some y => decide (x < y) || (x == y && later)

def openIntents (db : Db) : List UUID :=
  (((db.intents.select fun _ i => i.status.isOpen).insertionSort fun a b => scannedFirst a b = true).map
    Prod.fst).take 64

/-- What a reconciler keeps of a transaction that raises: nothing. -/
def raisedIdle {α : Type} (db : Db) (result : Except Fault α) (next : α → Reconciler × Db) : Reconciler × Db :=
  match result with
  | .ok a => next a
  | .error _ => (.idle, db)

/-- The next transaction of `reconcile_one`. -/
def Reconciler.turn (c : Commands) (db : Db) (now : ℤ) (newId : UUID) : Reconciler → Reconciler × Db
  | .idle => (.scanning (openIntents db), db)
  | .scanning [] => (.idle, db)
  | .scanning (id :: ids) =>
    match db.intents.get id with
    | none => (.scanning ids, db)
    | some intent =>
      match intent.status with
      | .requested => raisedIdle db (enqueueIntent c db now id intent newId) fun db => (.idle, db)
      | .enqueued => (.commanded id intent.commandId ids, db.putIntent id { intent with checkedAt := some now })
      | .observing => (.observed id intent.action intent.runId ids,
          db.putIntent id { intent with checkedAt := some now })
      | _ => (.scanning ids, db)
  | .observed id action runId ids => raisedIdle db (observedSettled db action runId) fun settled =>
      (if settled then .settling id ids else .scanning ids, db)
  | .commanded id none _ => (.refusing id .commandMissing, db)
  | .commanded id (some commandId) ids => raisedIdle db (getCommand c db commandId) fun command =>
      (match command.status with
        | .pending | .leased => .scanning ids
        | .completed => .settling id ids
        | _ => .refusing id (.command command.errorSummary), db)
  | .settling id ids => raisedIdle db (settleIntent c db now id) fun (moved, db) =>
      (if moved then .idle else .scanning ids, db)
  | .refusing id refusal => raisedIdle db (recordRefusal db now id refusal) fun db => (.idle, db)

/-- One hold of `reconcile_one_hold`. -/
def reconcileHold (db : Db) (attemptId : UUID) : Except Fault Db :=
  match db.holds.get attemptId with
  | none => .ok db
  | some hold =>
    if hold.effectsSettled then .ok db
    else do
      let run ← orRaise (db.runs.get hold.runId) .notFound
      return if isTerminalState run.state && db.isQuiescent hold.runId then settleHold db attemptId else db

end ParallelForge.EpicRun
