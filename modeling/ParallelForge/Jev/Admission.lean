import ParallelForge.Base.Result
import ParallelForge.Base.Run
import ParallelForge.Base.Total
import Mathlib.Algebra.GroupWithZero.Nat
import Mathlib.Algebra.Order.Group.Int
import Mathlib.Data.List.Sort
import Mathlib.Data.Rat.Defs

/-!
# Evaluator admissions (`persistence/repositories/jev.py`)

The evaluations of one run, keyed by the digest of their operation key. Every
call holds the run lock, so a call is one transaction; a crash between two
calls leaves the rows as the last one committed them. Instants are microseconds:
`now` is what the call reads from `datetime.now(UTC)`, `createdAt` what the
database stamps on an inserted row. Scores are any type with an empty value.
-/

namespace ParallelForge.Jev
open Base

inductive JevMode
  | off
  | shadow
  | on
  deriving DecidableEq, Repr

inductive JevKind
  | searchRanking
  | semanticSearch
  | reviewFocus
  deriving DecidableEq, Repr

inductive JevStatus
  | off
  | pending
  | unavailable
  | budgetExhausted
  | ranked
  | succeeded
  | cached
  | unknown
  deriving DecidableEq, Repr

/-- `JevPolicy` (`domain/policy.py:290-313`). -/
structure JevPolicy where
  mode : JevMode
  allowRemote : Bool
  model : String
  semanticSearch : Bool
  reviewFocus : Bool
  topK : ℕ
  maxRequestsPerRun : ℕ
  maxInputUnitsPerRun : ℕ
  maxCandidates : ℕ
  maxResultChars : ℕ
  timeoutSeconds : ℚ
  cacheTtlSeconds : ℕ
  deriving DecidableEq

/-- The parts of `JevRequest` the repository reads; the run is the one of the table. -/
structure JevRequest where
  policyVersion : ℕ
  operationKey : String
  kind : JevKind
  worktreeDigest : String
  candidateDigest : Option String
  scopeDigest : Option String
  deriving DecidableEq, Repr

structure JevResult (Scores : Type) where
  status : JevStatus
  answers : Scores
  requestedModel : Option String := none
  actualModel : Option String := none
  inputUnits : ℕ := 0
  outputUnits : ℕ := 0
  durationMs : ℕ := 0
  requestId : Option String := none
  diagnostic : Option String := none
  deriving DecidableEq

structure JevEvaluation (Scores : Type) where
  policyVersion : ℕ
  kind : JevKind
  requestedMode : JevMode
  effectiveMode : JevMode
  requestedModel : String
  actualModel : Option String := none
  worktreeDigest : String
  requestDigest : String
  candidateDigest : Option String
  scopeDigest : Option String
  status : JevStatus
  reservedInputUnits : ℕ
  actualInputUnits : ℕ := 0
  outputUnits : ℕ := 0
  durationMs : ℕ := 0
  cacheHits : ℕ := 0
  requestIdDigest : Option String := none
  cacheSourceDigest : Option String := none
  diagnostic : Option String := none
  scores : Option Scores := none
  createdAt : ℤ
  deriving DecidableEq

abbrev Evaluations (Scores : Type) := Table String (JevEvaluation Scores)

variable {Scores : Type}

/-- `_same_identity` (`jev.py:84-97`). -/
def sameIdentity (row : JevEvaluation Scores) (request : JevRequest) (requestDigest : String)
    (policy : JevPolicy) : Bool :=
  row.requestDigest == requestDigest
    && row.policyVersion == request.policyVersion
    && row.kind == request.kind
    && row.requestedMode == policy.mode
    && row.requestedModel == policy.model
    && row.worktreeDigest == request.worktreeDigest
    && row.candidateDigest == request.candidateDigest
    && row.scopeDigest == request.scopeDigest

/-- `_authorize` (`jev.py:38-43`); `bound` is what `policy_for_run` resolves from the
run's immutable bindings. -/
def authorize (policy : JevPolicy) (bound : Except String (Option JevPolicy)) :
    Except String Unit := do
  let storedJev ← bound
  require (storedJev = some policy ∧ policy.mode ≠ .off) "Jev policy does not authorize this run"

/-- `_record_refusal` (`jev.py:109-141`). -/
def recordRefusal (sha256 : String → String) (rows : Evaluations Scores) (request : JevRequest)
    (requestDigest : String) (policy : JevPolicy) (status : JevStatus) (diagnostic : Option String)
    (createdAt : ℤ) : Except String (Evaluations Scores) :=
  let operationDigest := sha256 request.operationKey
  match rows.get operationDigest with
  | some existing =>
    if sameIdentity existing request requestDigest policy then .ok rows
    else .error "Jev operation replay conflicts"
  | none => .ok <| rows.put operationDigest {
      policyVersion := request.policyVersion
      kind := request.kind
      requestedMode := policy.mode
      effectiveMode := .off
      requestedModel := policy.model
      worktreeDigest := request.worktreeDigest
      requestDigest := requestDigest
      candidateDigest := request.candidateDigest
      scopeDigest := request.scopeDigest
      status := status
      diagnostic := diagnostic
      reservedInputUnits := 0
      createdAt := createdAt }

structure ObserveUnavailable where
  request : JevRequest
  requestDigest : String
  policy : JevPolicy
  diagnostic : Option String
  bound : Except String (Option JevPolicy)
  createdAt : ℤ

/-- `observe_unavailable` (`jev.py:99-107`). -/
def observeUnavailable (sha256 : String → String) (rows : Evaluations Scores)
    (c : ObserveUnavailable) : Except String (Evaluations Scores) := do
  authorize c.policy c.bound
  recordRefusal sha256 rows c.request c.requestDigest c.policy .unavailable c.diagnostic c.createdAt

structure Reserve where
  request : JevRequest
  requestDigest : String
  model : String
  inputUnits : ℕ
  maxRequests : ℕ
  maxInputUnits : ℕ
  mode : JevMode
  policy : JevPolicy
  bound : Except String (Option JevPolicy)
  now : ℤ
  createdAt : ℤ

/-- What makes two reservations ask for the same evaluation, whatever their operation keys. -/
structure RequestIdentity where
  requestDigest : String
  policyVersion : ℕ
  kind : JevKind
  mode : JevMode
  model : String
  worktreeDigest : String
  candidateDigest : Option String
  scopeDigest : Option String
  deriving DecidableEq, Repr

def Reserve.identity (c : Reserve) : RequestIdentity where
  requestDigest := c.requestDigest
  policyVersion := c.request.policyVersion
  kind := c.request.kind
  mode := c.mode
  model := c.model
  worktreeDigest := c.request.worktreeDigest
  candidateDigest := c.request.candidateDigest
  scopeDigest := c.request.scopeDigest

def Reserve.ttl (c : Reserve) : ℤ := (c.policy.cacheTtlSeconds : ℤ) * 1000000

/-- A result that carries no answers. -/
def JevResult.plain [EmptyCollection Scores] (status : JevStatus) (model diagnostic : String) :
    JevResult Scores :=
  { status := status, answers := ∅, requestedModel := some model, diagnostic := some diagnostic }

def JevStatus.answered (s : JevStatus) : Bool := s == .ranked || s == .succeeded

def JevStatus.uncertain (s : JevStatus) : Bool := s == .pending || s == .unknown

/-- The row whose admission produced the scores of `existing`. -/
def sourceOf (rows : Evaluations Scores) (existing : JevEvaluation Scores) :
    Option (JevEvaluation Scores) :=
  match existing.cacheSourceDigest with
  | none => some existing
  | some digest => rows.get digest

/-- The replay of a settled answer, while its source is within the time to live. -/
def replayAnswer [EmptyCollection Scores] (rows : Evaluations Scores) (operationDigest : String)
    (existing : JevEvaluation Scores) (c : Reserve) : Evaluations Scores × JevResult Scores :=
  match sourceOf rows existing with
  | none => (rows, .plain .unknown c.model "stale_operation_evidence")
  | some source =>
    if c.policy.cacheTtlSeconds = 0 ∨ source.createdAt + c.ttl ≤ c.now then
      (rows, .plain .unknown c.model "stale_operation_evidence")
    else
      (rows.put operationDigest { existing with cacheHits := existing.cacheHits + 1 },
        { status := .cached
          answers := existing.scores.getD ∅
          requestedModel := some c.model
          actualModel := existing.actualModel
          inputUnits := existing.actualInputUnits
          outputUnits := existing.outputUnits
          durationMs := existing.durationMs
          diagnostic := some "operation_replay" })

/-- The branch of `reserve` for an operation that has a row (`jev.py:161-206`). -/
def replay [EmptyCollection Scores] (rows : Evaluations Scores) (operationDigest : String)
    (existing : JevEvaluation Scores) (c : Reserve) :
    Except String (Evaluations Scores × JevResult Scores) :=
  if sameIdentity existing c.request c.requestDigest c.policy = false then
    .error "Jev operation replay conflicts"
  else if existing.status = .pending then
    .ok (rows, .plain .unknown c.model "in_flight_or_interrupted")
  else if existing.status.answered then .ok (replayAnswer rows operationDigest existing c)
  else .ok (rows,
    { status := existing.status
      answers := ∅
      requestedModel := some c.model
      actualModel := existing.actualModel
      inputUnits := existing.actualInputUnits
      outputUnits := existing.outputUnits
      durationMs := existing.durationMs
      diagnostic := some "operation_replay" })

/-- `ORDER BY created_at DESC, operation_digest DESC`. -/
def newestFirst (a b : String × JevEvaluation Scores) : Prop :=
  b.2.createdAt < a.2.createdAt ∨ (a.2.createdAt = b.2.createdAt ∧ b.1 ≤ a.1)

instance (a b : String × JevEvaluation Scores) : Decidable (newestFirst a b) :=
  inferInstanceAs (Decidable (_ ∨ _))

/-- The admissions with the same request digest (`jev.py:207-220`). -/
def matchesOf (rows : Evaluations Scores) (requestDigest : String) :
    List (String × JevEvaluation Scores) :=
  (rows.select fun _ row => row.requestDigest == requestDigest && 0 < row.reservedInputUnits &&
    (row.status.uncertain || row.status.answered)).insertionSort newestFirst

def uncertainMatch (rows : Evaluations Scores) (c : Reserve) : Bool :=
  (matchesOf rows c.requestDigest).any fun r =>
    r.2.status.uncertain && sameIdentity r.2 c.request c.requestDigest c.policy

/-- The newest matching answer that is still within the time to live. -/
def cacheSource (rows : Evaluations Scores) (c : Reserve) : Option (String × JevEvaluation Scores) :=
  if 0 < c.policy.cacheTtlSeconds then
    (matchesOf rows c.requestDigest).find? fun r =>
      r.2.status.answered && sameIdentity r.2 c.request c.requestDigest c.policy &&
        decide (c.now < r.2.createdAt + c.ttl)
  else none

def admissions (rows : Evaluations Scores) : List (String × JevEvaluation Scores) :=
  rows.select fun _ row => 0 < row.reservedInputUnits

def calls (rows : Evaluations Scores) : ℕ := (admissions rows).length

def reservedUnits (rows : Evaluations Scores) : ℕ :=
  ((admissions rows).map fun r => r.2.reservedInputUnits).sum

/-- The row of a content-cache hit (`jev.py:247-271`). -/
def cachedRow (c : Reserve) (source : String × JevEvaluation Scores) : JevEvaluation Scores where
  policyVersion := c.request.policyVersion
  kind := c.request.kind
  requestedMode := c.policy.mode
  effectiveMode := source.2.effectiveMode
  requestedModel := c.model
  actualModel := source.2.actualModel
  worktreeDigest := c.request.worktreeDigest
  requestDigest := c.requestDigest
  candidateDigest := c.request.candidateDigest
  scopeDigest := c.request.scopeDigest
  status := source.2.status
  reservedInputUnits := 0
  cacheHits := 1
  scores := source.2.scores
  cacheSourceDigest := some source.1
  createdAt := c.createdAt

/-- The row of an admission (`jev.py:291-310`). -/
def admittedRow (c : Reserve) : JevEvaluation Scores where
  policyVersion := c.request.policyVersion
  kind := c.request.kind
  requestedMode := c.mode
  effectiveMode := c.mode
  requestedModel := c.model
  worktreeDigest := c.request.worktreeDigest
  requestDigest := c.requestDigest
  candidateDigest := c.request.candidateDigest
  scopeDigest := c.request.scopeDigest
  status := .pending
  reservedInputUnits := c.inputUnits
  createdAt := c.createdAt

/-- The branch of `reserve` for an operation without a row. -/
def reserveNew [EmptyCollection Scores] (sha256 : String → String) (rows : Evaluations Scores)
    (c : Reserve) : Except String (Evaluations Scores × Option (JevResult Scores)) :=
  let operationDigest := sha256 c.request.operationKey
  if uncertainMatch rows c then
    .ok (rows, some (.plain .unknown c.model "matching_admission_uncertain"))
  else match cacheSource rows c with
    | some source =>
      .ok (rows.put operationDigest (cachedRow c source), some
        { status := .cached
          answers := source.2.scores.getD ∅
          requestedModel := some c.model
          actualModel := source.2.actualModel
          diagnostic := some "content_cache" })
    | none =>
      if c.maxRequests ≤ calls rows ∨ c.maxInputUnits < reservedUnits rows + c.inputUnits then do
        let rows' ← recordRefusal sha256 rows c.request c.requestDigest c.policy .budgetExhausted
          (some "budget_exhausted") c.createdAt
        return (rows', some (.plain .budgetExhausted c.model "run_budget_exhausted"))
      else .ok (rows.put operationDigest (admittedRow c), none)

/-- `reserve` (`jev.py:143-311`): no result is the permission to call the network. -/
def reserve [EmptyCollection Scores] (sha256 : String → String) (rows : Evaluations Scores)
    (c : Reserve) : Except String (Evaluations Scores × Option (JevResult Scores)) := do
  authorize c.policy c.bound
  require (c.policy.allowRemote = true) "Jev policy does not authorize this run"
  match rows.get (sha256 c.request.operationKey) with
  | some existing => do
    let (rows', result) ← replay rows (sha256 c.request.operationKey) existing c
    return (rows', some result)
  | none => reserveNew sha256 rows c

/-- What a settlement writes over a pending row. -/
def settledRow (sha256 : String → String) (row : JevEvaluation Scores)
    (response : JevResult Scores) : JevEvaluation Scores :=
  { row with
    status := response.status
    actualModel := response.actualModel
    actualInputUnits := response.inputUnits
    reservedInputUnits := max row.reservedInputUnits response.inputUnits
    outputUnits := response.outputUnits
    durationMs := response.durationMs
    diagnostic := response.diagnostic
    requestIdDigest := (response.requestId.filter (· != "")).map sha256
    scores := if response.status.answered then some response.answers else none }

/-- `settle` (`jev.py:313-333`). -/
def settle (sha256 : String → String) (rows : Evaluations Scores) (request : JevRequest)
    (response : JevResult Scores) : Except String (Evaluations Scores) := do
  let row ← orRaise (rows.get (sha256 request.operationKey)) "Jev operation was not admitted"
  if row.status ≠ .pending then return rows
  require (response.status.answered = true ∨ response.status = .unavailable ∨
    response.status = .unknown) "Jev settlement status is invalid"
  return rows.put (sha256 request.operationKey) (settledRow sha256 row response)

/-! ### Runs -/

inductive Call (Scores : Type)
  | reserve (c : Reserve)
  | settle (request : JevRequest) (response : JevResult Scores)
  | observeUnavailable (c : ObserveUnavailable)

/-- The table, and what was answered and settled so far, newest first. -/
structure System (Scores : Type) where
  rows : Evaluations Scores
  replies : List (Reserve × Except String (Option (JevResult Scores)))
  settlements : List (String × JevResult Scores)

def System.init : System Scores := ⟨Table.empty, [], []⟩

/-- The settlement takes effect. -/
def settles (sha256 : String → String) (rows : Evaluations Scores) (request : JevRequest) : Bool :=
  (rows.get (sha256 request.operationKey)).any fun row => row.status == .pending

def step [EmptyCollection Scores] (sha256 : String → String) (s : System Scores) :
    Call Scores → System Scores
  | .reserve c =>
    match reserve sha256 s.rows c with
    | .ok (rows, reply) => { s with rows := rows, replies := (c, .ok reply) :: s.replies }
    | .error e => { s with replies := (c, .error e) :: s.replies }
  | .settle request response =>
    match settle sha256 s.rows request response with
    | .ok rows =>
      { s with
        rows := rows
        settlements := if settles sha256 s.rows request then
            (sha256 request.operationKey, response) :: s.settlements
          else s.settlements }
    | .error _ => s
  | .observeUnavailable c =>
    match observeUnavailable sha256 s.rows c with
    | .ok rows => { s with rows := rows }
    | .error _ => s

/-- Units of a nonempty request. -/
def Proper : Call Scores → Prop
  | .reserve c => 0 < c.inputUnits
  | _ => True

end ParallelForge.Jev
