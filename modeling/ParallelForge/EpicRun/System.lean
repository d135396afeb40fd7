import ParallelForge.Base.Run
import ParallelForge.EpicRun.Lifecycle

/-!
# An epic's runs as a system

One input is one transaction, of a caller of the API, of one of the dispatch workers
or reconcilers, or of another service; the evidence a launch asks for is part of it.
The clock only advances. A worker that crashes forgets where it stood.
-/

namespace ParallelForge.EpicRun
open Base Run

structure System where
  db : Db
  now : ℤ
  workers : ℕ → Worker
  reconcilers : ℕ → Reconciler

def System.init (env : Surroundings) (now : ℤ) : System := ⟨Db.init env, now, fun _ => .idle, fun _ => .idle⟩

inductive Input
  | tick (elapsed : ℕ)
  | environment (env : Surroundings)
  | start (actor : Actor) (epicId : UUID) (key : Str) (request : ExecutionStartRequest) (id : UUID)
  | launch (actor : Actor) (epicId : UUID) (key : Str) (request : LaunchRequest) (o : Outside)
  | child (runId : UUID) (op : EngineOp)
  | commands (rows : Table UUID Command.CommandRow)
  | hold (attemptId : UUID)
  | request (actor : Actor) (epicId executionId : UUID) (key : Str) (request : ControlRequest) (o : ControlOutside)
  | configure (actor : Actor) (epicId executionId : UUID) (key : Str) (request : DispatchRequest)
  | worker (i : ℕ) (o : WorkerOutside)
  | reconcile (i : ℕ) (newId : UUID)
  | crash (i : ℕ)

/-- A transaction that raises leaves the rows as they were. -/
def commit (db : Db) (result : Except Fault Db) : Db :=
  match result with
  | .ok db' => db'
  | .error _ => db

/-- A child run moves as the state engine lets it. -/
def childRun (db : Db) (runId : UUID) (op : EngineOp) : Db :=
  match db.runs.get runId with
  | none => db
  | some run =>
    match op.apply run with
    | .ok run' => { db with runs := db.runs.put runId run' }
    | .error _ => db

def step (cfg : Config) (s : System) : Input → System
  | .tick elapsed => { s with now := s.now + elapsed }
  | .environment env => { s with db := { s.db with env := env } }
  | .start actor epicId key request id =>
    { s with db := commit s.db ((start s.db s.now actor epicId key request id).map Prod.snd) }
  | .launch actor epicId key request o =>
    { s with db := (launch cfg s.db s.now actor epicId key request none o).2 }
  | .child runId op => { s with db := childRun s.db runId op }
  | .commands rows => { s with db := { s.db with commands := rows } }
  | .hold attemptId => { s with db := commit s.db (reconcileHold s.db attemptId) }
  | .request actor epicId executionId key request o =>
    { s with db := commit s.db ((controlRequest s.db s.now actor epicId executionId key request o).map Prod.snd) }
  | .configure actor epicId executionId key request =>
    { s with db := commit s.db (configure s.db s.now actor epicId executionId key request) }
  | .worker i o =>
    let (worker, db) := (s.workers i).turn cfg s.db s.now o
    { s with db := db, workers := Function.update s.workers i worker }
  | .reconcile i newId =>
    let (reconciler, db) := (s.reconcilers i).turn cfg.commands s.db s.now newId
    { s with db := db, reconcilers := Function.update s.reconcilers i reconciler }
  | .crash i => { s with
      workers := Function.update s.workers i .idle, reconcilers := Function.update s.reconcilers i .idle }

/-! ### Launches of a run -/

structure LaunchCall where
  actor : Actor
  epicId : UUID
  key : Str
  request : LaunchRequest
  token : Option UUID
  outside : Outside

def LaunchCall.launch (cfg : Config) (s : System) (call : LaunchCall) : Except Fault (UUID × Attempt) × Db :=
  EpicRun.launch cfg s.db s.now call.actor call.epicId call.key call.request call.token call.outside

/-- The call of a worker that holds a claim. -/
def ClaimedLaunch.call (l : ClaimedLaunch) (o : Outside) : LaunchCall :=
  ⟨l.actor, l.epicId, dispatchKey l.executionId l.itemId, l.request, some l.token, o⟩

/-- The launch an input makes, if it makes one. -/
def callOf (s : System) : Input → Option LaunchCall
  | .launch actor epicId key request o => some ⟨actor, epicId, key, request, none, o⟩
  | .worker i o => match s.workers i with
    | .claimed l => some (l.call o.launch)
    | _ => none
  | _ => none

theorem step_of_call (cfg : Config) (s : System) (i : Input) (call : LaunchCall) (h : callOf s i = some call) :
    (step cfg s i).db = (call.launch cfg s).2 := by
  cases i with
  | launch actor epicId key request o =>
    cases h
    rfl
  | worker j o =>
    simp only [callOf] at h
    split at h
    · next l hl =>
      cases h
      simp only [step, hl, Worker.turn]
      rfl
    · cases h
  | _ => cases h

end ParallelForge.EpicRun
