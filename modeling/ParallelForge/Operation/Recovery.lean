import ParallelForge.Operation.Settlement

/-!
# Executors and recovery (`application/services/recovery.py`)

Each call of `execute`, `execute_admitted`, `invoke_admitted` and `reconcile`
is a process over the shared store. Its program counter stands between two
atomic steps: a store method, or the start or end of an adapter call. A crash,
or a cancellation, can end it at any of them.
-/

namespace ParallelForge.Operation
open Base

variable (red : Durability)

/-- `OperationIntent.to_outcome`; `none` where the outcome's own check refuses it. -/
def toOutcome (r : OperationRow) : Option (OperationOutcome red) :=
  if h : outcomeValid red r.remoteResourceId r.status none (r.outcomeSchemaVersion.getD 1) = true then
    if r.status = .succeeded then
      some ⟨r.remoteResourceId, r.outcome.getD "\x7b\x7d", r.status, none,
        r.outcomeSchemaVersion.getD 1, h⟩
    else none
  else none

/-- Where a call stands. `settles` separates `_invoke_owned` from
`_invoke_owned_unsettled`, `service` the recovery service from the executor;
`renewing` tells whether the background renewal still runs. -/
inductive Pc
  | execute (args : BeginArgs) (owner : String)
  | executeAdmitted (intent : OperationIntent red)
  | invokeAdmitted (intent : OperationIntent red)
  | renewAdmitted (intent : OperationIntent red) (owner : String)
  | invoke (intent : OperationIntent red) (owner : String) (settles : Bool)
  | invoking (intent : OperationIntent red) (owner : String) (settles renewing : Bool)
  | observe (id : UUID) (owner : String)
  | claimObserved (id : UUID) (owner : String)
  | reconcile (id : UUID) (owner : String)
  | claimReconcile (id : UUID) (owner : String)
  | query (intent : OperationIntent red) (owner : String) (service : Bool)
  | querying (intent : OperationIntent red) (owner : String) (service renewing : Bool)
  | storeOutcome (id : UUID) (outcome : OperationOutcome red) (owner : String) (service : Bool)
  | markUnknown (id : UUID) (error : String) (owner : String) (service : Bool)
  | returned (outcome : OperationOutcome red)
  | returnedIntent (intent : OperationIntent red)
  | raised

/-- The call is over. -/
def Pc.finished : Pc red → Bool
  | .returned _ | .returnedIntent _ | .raised => true
  | _ => false

inductive AdapterCall
  | invoke (key : String)
  | query (key : String)
  deriving DecidableEq, Repr

/-- What the adapter call came to: an outcome, or an exception by its text. -/
inductive AdapterReply
  | outcome (o : OperationOutcome red)
  | exception (text : String)

/-- What one step of a process reads from outside: two clock readings, a fresh
identity and owner name, whether the run row loads, the adapter's answer. -/
structure Tick where
  now : ℤ
  checkedAt : ℤ
  freshId : UUID
  freshOwner : String
  runLoads : Bool
  reply : AdapterReply red

/-- A definitely-new intent whose owner is live at `now`. -/
def newlyOwned (intent : OperationIntent red) (now : ℤ) : Option String :=
  if intent.isNew && intent.row.status == .pending
      && intent.row.executionLeaseExpiresAt.any (now < ·) then intent.row.executionOwner
  else none

def returnStored (r : OperationRow) : Pc red :=
  match toOutcome red r with
  | some o => .returned o
  | none => .raised

/-- `outcome.error or default`. -/
def errorOr (error : Option String) (default : String) : String :=
  match error.filter (· != "") with
  | some e => e
  | none => default

def defaultError (service : Bool) : String :=
  if service then "operation could not be reconciled"
  else "operation adapter returned a non-success outcome"

/-- The end of a settlement: the service returns the stored intent, the executor
the outcome it was given. -/
def settled (service : Bool) (outcome : OperationOutcome red) (intent : OperationIntent red) :
    Pc red :=
  if service then .returnedIntent intent else .returned outcome

/-- One step of a call, with the adapter call it makes. -/
def procStep (lease : ℤ) (store : Store) (pc : Pc red) (tick : Tick red) :
    Store × Pc red × Option AdapterCall :=
  match pc with
  | .execute args owner =>
    let owned := { args with executionOwner := some owner, executionLease := some lease }
    match beginIntent red store owned tick.freshId tick.runLoads tick.now with
    | .error _ => (store, .raised, none)
    | .ok (store', intent) =>
      if intent.row.status = .succeeded then (store', returnStored red intent.row, none)
      else if intent.isNew = false then (store', .observe intent.row.id owner, none)
      else (store', .invoke intent owner true, none)
  | .executeAdmitted intent =>
    if intent.row.status = .succeeded then (store, returnStored red intent.row, none)
    else if intent.row.status = .failed then (store, .raised, none)
    else match newlyOwned red intent tick.now with
      | some owner => (store, .invoke intent owner true, none)
      | none => (store, .observe intent.row.id tick.freshOwner, none)
  | .invokeAdmitted intent =>
    match newlyOwned red intent tick.now with
    | some owner => (store, .renewAdmitted intent owner, none)
    | none => (store, .raised, none)
  | .renewAdmitted intent owner =>
    match renewExecution red store intent.row.id owner lease tick.now with
    | .error _ => (store, .raised, none)
    | .ok (store', refreshed) =>
      if ownsExecution refreshed.row (some owner) tick.checkedAt then
        (store', .invoke refreshed owner false, none)
      else (store', .raised, none)
  | .invoke intent owner settles =>
    (store, .invoking intent owner settles true, some (.invoke intent.row.idempotencyKey))
  | .invoking intent owner settles _ =>
    match tick.reply with
    | .outcome o =>
      if settles then (store, .storeOutcome intent.row.id o owner false, none)
      else (store, .returned o, none)
    | .exception e =>
      if settles then (store, .markUnknown intent.row.id e owner false, none)
      else (store, .raised, none)
  | .observe id owner =>
    match getIntent red store id with
    | .error _ => (store, .raised, none)
    | .ok current =>
      if current.row.status = .succeeded then (store, returnStored red current.row, none)
      else if current.row.status = .failed then (store, .raised, none)
      else if liveOwner current.row tick.now then (store, .observe id owner, none)
      else (store, .claimObserved id owner, none)
  | .claimObserved id owner =>
    match claimForRecovery red store id owner lease tick.now with
    | .error _ => (store, .raised, none)
    | .ok (store', claim) =>
      if claim.acquired then (store', .query claim.intent owner false, none)
      else (store', .observe id owner, none)
  | .reconcile id owner =>
    match getIntent red store id with
    | .error _ => (store, .raised, none)
    | .ok current =>
      if current.row.status.terminal then (store, .returnedIntent current, none)
      else (store, .claimReconcile id owner, none)
  | .claimReconcile id owner =>
    match claimForRecovery red store id owner lease tick.now with
    | .error _ => (store, .raised, none)
    | .ok (store', claim) =>
      if claim.acquired then (store', .query claim.intent owner true, none)
      else (store', .returnedIntent claim.intent, none)
  | .query intent owner service =>
    (store, .querying intent owner service true, some (.query intent.row.idempotencyKey))
  | .querying intent owner service _ =>
    match tick.reply with
    | .outcome o => (store, .storeOutcome intent.row.id o owner service, none)
    | .exception e => (store, .markUnknown intent.row.id e owner service, none)
  | .storeOutcome id outcome owner service =>
    let res :=
      if outcome.status = .succeeded then
        complete red store id outcome (some owner) tick.checkedAt tick.now
      else
        fail red store id (errorOr outcome.error (defaultError service))
          (outcome.status == .needsReconciliation) (some owner) tick.checkedAt tick.now
    match res with
    | .error _ => (store, .raised, none)
    | .ok (store', intent) => (store', settled red service outcome intent, none)
  | .markUnknown id error owner service =>
    match fail red store id error true (some owner) tick.checkedAt tick.now with
    | .error _ => (store, .raised, none)
    | .ok (store', intent) =>
      (store', if service then .returnedIntent intent else .raised, none)
  | .returned o => (store, .returned o, none)
  | .returnedIntent i => (store, .returnedIntent i, none)
  | .raised => (store, .raised, none)

/-- The background renewal of a process inside an adapter call
(`_renew_until_done`); a refused renewal ends it. -/
def renewStep (lease : ℤ) (store : Store) (pc : Pc red) (now : ℤ) : Store × Pc red :=
  match pc with
  | .invoking intent owner settles true =>
    match renewExecution red store intent.row.id owner lease now with
    | .ok (store', _) => (store', pc)
    | .error _ => (store, .invoking intent owner settles false)
  | .querying intent owner service true =>
    match renewExecution red store intent.row.id owner lease now with
    | .ok (store', _) => (store', pc)
    | .error _ => (store, .querying intent owner service false)
  | _ => (store, pc)

structure Proc where
  lease : ℤ
  pc : Pc red

/-- The store, the calls started so far, the `begin` results callers hold, and
every adapter call made with the process that made it. -/
structure World where
  store : Store
  procs : List (Proc red)
  tickets : List (OperationIntent red)
  log : List (ℕ × AdapterCall)

def World.init : World red := ⟨Table.empty, [], [], []⟩

inductive Action
  | begin (args : BeginArgs) (freshId : UUID) (runLoads : Bool) (now : ℤ)
  | startExecute (lease : ℤ) (args : BeginArgs) (owner : String)
  | startExecuteAdmitted (lease : ℤ) (ticket : ℕ)
  | startInvokeAdmitted (lease : ℤ) (ticket : ℕ)
  | startReconcile (lease : ℤ) (id : UUID) (owner : String)
  | advance (proc : ℕ) (tick : Tick red)
  | renew (proc : ℕ) (now : ℤ)
  | crash (proc : ℕ)
  | settle (op : StoreOp red)

/-- Hands ticket `n` to a new process; a ticket is handed out once. -/
def World.consume (w : World red) (lease : ℤ) (n : ℕ) (start : OperationIntent red → Pc red) :
    World red :=
  match w.tickets[n]? with
  | none => w
  | some intent =>
    { w with procs := w.procs ++ [⟨lease, start intent⟩], tickets := w.tickets.eraseIdx n }

/-- One step of the system: a caller's `begin`, the start of a call, one step,
one renewal or the crash of a process, or a settlement by a caller of
`invoke_admitted`. -/
def World.step (w : World red) : Action red → World red
  | .begin args freshId runLoads now =>
    match beginIntent red w.store args freshId runLoads now with
    | .error _ => w
    | .ok (store', intent) => { w with store := store', tickets := w.tickets ++ [intent] }
  | .startExecute lease args owner => { w with procs := w.procs ++ [⟨lease, .execute args owner⟩] }
  | .startExecuteAdmitted lease n => w.consume red lease n .executeAdmitted
  | .startInvokeAdmitted lease n => w.consume red lease n .invokeAdmitted
  | .startReconcile lease id owner => { w with procs := w.procs ++ [⟨lease, .reconcile id owner⟩] }
  | .advance i tick =>
    match w.procs[i]? with
    | none => w
    | some p =>
      let r := procStep red p.lease w.store p.pc tick
      { w with
        store := r.1
        procs := w.procs.set i ⟨p.lease, r.2.1⟩
        log := w.log ++ (r.2.2.toList.map fun c => (i, c)) }
  | .renew i now =>
    match w.procs[i]? with
    | none => w
    | some p =>
      let r := renewStep red p.lease w.store p.pc now
      { w with store := r.1, procs := w.procs.set i ⟨p.lease, r.2⟩ }
  | .crash i =>
    match w.procs[i]? with
    | none => w
    | some p =>
      if p.pc.finished then w else { w with procs := w.procs.set i ⟨p.lease, .raised⟩ }
  | .settle op => { w with store := storeStep red w.store op }

end ParallelForge.Operation
