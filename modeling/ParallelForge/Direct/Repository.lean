import ParallelForge.Base.Result
import ParallelForge.Base.RowLock
import ParallelForge.Base.Run
import Mathlib.Logic.Function.Basic

/-!
# The repository of direct runs

Four of its methods load one row, assign to its attributes and commit. The
flush before the commit sends an `UPDATE` by identity of the columns whose
value changed since the load, and no statement when none did. `claim_next`
alone locks the row it loads. A method is run statement by statement.
-/

namespace ParallelForge.Direct
open Base

inductive DirectRunState
  | queued | planning | awaitingPlanApproval | running | finalizing | checking | reviewing
  | repairing | publishing | prOpen | done | failed | cancelled | needsDecision
  deriving DecidableEq, Repr

/-- `details` are the columns no method here decides on, by name. -/
structure DirectRunRow where
  state : DirectRunState
  cancelRequested : Bool
  planApproved : Bool
  details : String → Option String

/-- What a method assigns to the loaded row. -/
structure Fields where
  state : Option DirectRunState := none
  cancelRequested : Option Bool := none
  planApproved : Option Bool := none
  details : List (String × Option String) := []

def changed {α : Type} [DecidableEq α] (old : α) (new : Option α) : Option α :=
  new.filter fun a => a ≠ old

/-- The columns of the `UPDATE`. -/
def Fields.dirty (f : Fields) (loaded : DirectRunRow) : Fields where
  state := changed loaded.state f.state
  cancelRequested := changed loaded.cancelRequested f.cancelRequested
  planApproved := changed loaded.planApproved f.planApproved
  details := f.details.filter fun d => loaded.details d.1 ≠ d.2

def Fields.isEmpty (f : Fields) : Bool :=
  f.state.isNone && f.cancelRequested.isNone && f.planApproved.isNone && f.details.isEmpty

def Fields.apply (f : Fields) (row : DirectRunRow) : DirectRunRow where
  state := f.state.getD row.state
  cancelRequested := f.cancelRequested.getD row.cancelRequested
  planApproved := f.planApproved.getD row.planApproved
  details := f.details.foldl (fun m d => Function.update m d.1 d.2) row.details

inductive DirectError
  | value (message : String)
  deriving DecidableEq, Repr

def requestCancel (row : DirectRunRow) : Fields :=
  if row.state ∈ [.queued, .awaitingPlanApproval] then
    { state := some .cancelled, cancelRequested := some true }
  else if row.state ∈ [.planning, .running, .finalizing, .checking, .reviewing, .repairing,
      .publishing, .prOpen] then
    { cancelRequested := some true }
  else {}

def approvePlan (row : DirectRunRow) : Except DirectError Fields := do
  require (row.state = .awaitingPlanApproval) (.value "direct run is not awaiting plan approval")
  return { planApproved := some true, state := some .queued }

def claimNext (row : DirectRunRow) : Fields :=
  if row.cancelRequested then { state := some .cancelled } else { state := some .running }

inductive Call
  | requestCancel
  | approvePlan
  | claimNext
  | updateRun (fields : Fields)

def Call.assign (row : DirectRunRow) : Call → Except DirectError Fields
  | .requestCancel => .ok (Direct.requestCancel row)
  | .approvePlan => Direct.approvePlan row
  | .claimNext => .ok (Direct.claimNext row)
  | .updateRun fields => .ok fields

/-- Where a session is in its call. -/
inductive Session
  | idle
  | loaded (call : Call) (row : DirectRunRow)
  | flushed (call : Call) (row : DirectRunRow)

structure World where
  row : LockedRow DirectRunRow
  session : ℕ → Session

def World.at (w : World) (k : ℕ) (row : LockedRow DirectRunRow) (s : Session) : World :=
  ⟨row, Function.update w.session k s⟩

inductive Statement
  | select (k : ℕ) (call : Call)
  | update (k : ℕ)
  | commit (k : ℕ)
  | abort (k : ℕ)

/-- The load. A method that raises after it leaves its session idle. -/
def World.select (w : World) (k : ℕ) : Call → World
  | .claimNext =>
    if w.row.committed.state = .queued then
      match w.row.claim k with
      | some row => w.at k row (.loaded .claimNext w.row.committed)
      | none => w
    else w
  | call =>
    match call.assign (w.row.read k) with
    | .ok _ => w.at k w.row (.loaded call (w.row.read k))
    | .error _ => w

/-- The flush; it stays where it is while the row is locked by another session. -/
def World.update (w : World) (k : ℕ) (call : Call) (row : DirectRunRow) (f : Fields) : World :=
  if (f.dirty row).isEmpty then w.at k w.row (.flushed call row)
  else match w.row.write k (f.dirty row).apply with
    | some r => w.at k r (.flushed call row)
    | none => w

def World.step (w : World) : Statement → World
  | .select k call =>
    match w.session k with
    | .idle => w.select k call
    | _ => w
  | .update k =>
    match w.session k with
    | .loaded call row =>
      match call.assign row with
      | .ok f => w.update k call row f
      | .error _ => w
    | _ => w
  | .commit k =>
    match w.session k with
    | .flushed _ _ => w.at k (w.row.commit k) .idle
    | _ => w
  | .abort k => w.at k (w.row.rollback k) .idle

def World.init (row : DirectRunRow) : World := ⟨.free row, fun _ => .idle⟩

@[simp] theorem at_row (w : World) (k : ℕ) (row : LockedRow DirectRunRow) (s : Session) :
    (w.at k row s).row = row := rfl

@[simp] theorem at_session (w : World) (k : ℕ) (row : LockedRow DirectRunRow) (s : Session) :
    (w.at k row s).session k = s := by
  simp [World.at]

theorem at_session_other (w : World) (k j : ℕ) (row : LockedRow DirectRunRow) (s : Session)
    (h : j ≠ k) : (w.at k row s).session j = w.session j := by
  simp [World.at, h]

end ParallelForge.Direct
