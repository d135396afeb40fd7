import ParallelForge.Base.Text
import Mathlib.Algebra.Group.Nat.Defs

/-!
# Usage observations (`domain/task_usage_contract.py`)

An observation reports the token counters of one source at one point of its
stream. A value that is `none` was not measured; zero was measured.
-/

namespace ParallelForge.Usage
open Base

def maxSignedBigint : ℕ := 2 ^ 63 - 1

inductive CounterKind
  | cumulative
  | delta
  deriving DecidableEq, Repr

inductive SubjectKind
  | run
  | authoringJob
  deriving DecidableEq, Repr

structure SubjectKey where
  projectId : UUID
  kind : SubjectKind
  subjectId : UUID
  deriving DecidableEq, Repr

structure RouteMember where
  role : String
  provider : String
  model : String
  ordinal : ℕ
  reasoningEffort : Option String
  deriving DecidableEq, Repr

structure RouteCohort where
  fingerprint : String
  members : List RouteMember
  deriving DecidableEq, Repr

inductive SourceKind
  | agentExecution
  | subscriptionAttempt
  | authoringAttempt
  deriving DecidableEq, Repr

structure SourceBinding where
  kind : SourceKind
  sourceId : UUID
  parentId : Option UUID
  deriving DecidableEq, Repr

structure WorkUnitBinding where
  subject : SubjectKey
  workUnitId : UUID
  admittedPhaseId : String
  configuredRoute : RouteCohort
  effectiveRoute : RouteCohort
  source : SourceBinding
  deriving DecidableEq, Repr

/-- `_DIMENSIONS`. -/
inductive TokenDimension
  | input
  | output
  | cachedInput
  | reasoningOutput
  deriving DecidableEq, Repr

/-- The fields an observation may declare unknown. -/
inductive Dimension
  | tokens (d : TokenDimension)
  | contextOccupied
  | contextCapacity
  | compactionCount
  deriving DecidableEq, Repr

def subsetWithin (subset total : Option ℕ) : Bool :=
  match subset, total with
  | some s, some t => s ≤ t
  | _, _ => true

def measured (v : Option ℕ) : Bool := v.all (· ≤ maxSignedBigint)

/-- `TokenCounts` with its checks: cached and reasoning tokens are subsets. -/
structure TokenCounts where
  inputTokens : Option ℕ
  outputTokens : Option ℕ
  cachedInputTokens : Option ℕ
  reasoningOutputTokens : Option ℕ
  valid : (measured inputTokens && measured outputTokens && measured cachedInputTokens &&
    measured reasoningOutputTokens && subsetWithin cachedInputTokens inputTokens &&
    subsetWithin reasoningOutputTokens outputTokens) = true
  deriving DecidableEq

def TokenCounts.get (t : TokenCounts) : TokenDimension → Option ℕ
  | .input => t.inputTokens
  | .output => t.outputTokens
  | .cachedInput => t.cachedInputTokens
  | .reasoningOutput => t.reasoningOutputTokens

structure ContextWindow where
  occupiedTokens : Option ℕ
  capacityTokens : Option ℕ
  compactionCount : Option ℕ
  valid : (measured occupiedTokens && measured capacityTokens && measured compactionCount &&
    subsetWithin occupiedTokens capacityTokens) = true
  deriving DecidableEq

def measurement (tokens : TokenCounts) (context : Option ContextWindow) : Dimension → Option ℕ
  | .tokens d => tokens.get d
  | .contextOccupied => context.bind (·.occupiedTokens)
  | .contextCapacity => context.bind (·.capacityTokens)
  | .compactionCount => context.bind (·.compactionCount)

/-- Only a final observation has a status and may reconcile another event. -/
def finalShape (final : Bool) (finalStatus reconciles : Option String) : Bool :=
  if final then finalStatus.any (· != "") else finalStatus.isNone && reconciles.isNone

/-- `Observation` with its checks (`task_usage_contract.py:246-313`); `observedAt`
is the instant in microseconds. -/
structure Observation where
  binding : WorkUnitBinding
  eventId : String
  sequence : ℕ
  counterKind : CounterKind
  tokens : TokenCounts
  counterEpoch : String
  observedAt : Option ℤ
  context : Option ContextWindow
  unknownDimensions : List Dimension
  final : Bool
  finalStatus : Option String
  reconcilesEventId : Option String
  identity_ok : (eventId != "" && eventId.length ≤ 256 && 1 ≤ sequence &&
    sequence ≤ maxSignedBigint) = true
  epoch_ok : (strip counterEpoch != "" && counterEpoch.length ≤ 96) = true
  unknown_ok : (unknownDimensions.Nodup ∧
    ∀ d ∈ unknownDimensions, measurement tokens context d = none)
  final_ok : (finalShape final finalStatus reconcilesEventId &&
    reconcilesEventId != some eventId) = true
  deriving DecidableEq

end ParallelForge.Usage
