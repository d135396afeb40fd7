import ParallelForge.Usage.Projection

/-!
# Subject totals (`persistence/queries/task_usage_totals.py`)

The rows of one work unit are observations accepted one after the other. A
settled attempt or a finished execution adds an authoritative record: its exact
values win, its partial ones are lower bounds. The totals add the units up
field by field, and a report checks them once more.
-/

namespace ParallelForge.Usage
open Base

/-- `TokenCounts(...)` and `ContextWindow(...)`: the constructors with their checks. -/
def TokenCounts.make (input output cached reasoning : Option ℕ) : Except String TokenCounts :=
  if h : (measured input && measured output && measured cached && measured reasoning &&
      subsetWithin cached input && subsetWithin reasoning output) = true then
    .ok ⟨input, output, cached, reasoning, h⟩
  else if (measured input && measured output && measured cached && measured reasoning) = true then
    .error "token subset exceeds known total"
  else .error "token counts must be a nonnegative signed-64-bit integer"

def ContextWindow.make (occupied capacity compactions : Option ℕ) : Except String ContextWindow :=
  if h : (measured occupied && measured capacity && measured compactions &&
      subsetWithin occupied capacity) = true then
    .ok ⟨occupied, capacity, compactions, h⟩
  else if (measured occupied && measured capacity && measured compactions) = true then
    .error "context occupancy exceeds capacity"
  else .error "context window must be a nonnegative signed-64-bit integer"

/-- The stored row has the time of the call where the observation has none. -/
def stamp (now : ℤ) (o : Observation) : Observation :=
  { o with observedAt := some (o.observedAt.getD now) }

/-- `append_observation` (`task_usage_observations.py:184-242`) over the rows of the unit. -/
def appendObservation (binding : WorkUnitBinding) (rows : List Observation) (now : ℤ)
    (o : Observation) : Except String (List Observation) :=
  if o.binding ≠ binding then .error "observation binding was not admitted"
  else match rows.find? fun r => r.eventId == o.eventId with
    | some same =>
      let decoded := if o.observedAt = none then { same with observedAt := none } else same
      if decoded ≠ o then .error "observation event replay conflicts" else .ok rows
    | none =>
      if (rows.any fun r => r.sequence == o.sequence) = true then
        .error "observation sequence conflicts"
      else do
        let _usage ← projectSource (bySequence rows ++ [o])
        .ok (rows ++ [stamp now o])

/-- The histories `append_observation` accepts. -/
inductive Accepted (binding : WorkUnitBinding) : List Observation → Prop
  | empty : Accepted binding []
  | append (rows rows' : List Observation) (now : ℤ) (o : Observation) (h : Accepted binding rows)
      (hok : appendObservation binding rows now o = .ok rows') : Accepted binding rows'

/-- A value of the JSON column of a consumption. -/
inductive StoredValue
  | null
  | int (value : ℤ)
  | other
  deriving DecidableEq, Repr

/-- `_measured`. -/
def measuredValue : StoredValue → Except String (Option ℕ)
  | .null => .ok none
  | .int value =>
    if 0 ≤ value ∧ value ≤ maxSignedBigint then .ok (some value.toNat)
    else .error "stored measured usage is malformed"
  | .other => .error "stored measured usage is malformed"

structure Consumption where
  inputTokens : StoredValue
  outputTokens : StoredValue
  cachedInputTokens : StoredValue
  deriving DecidableEq, Repr

structure ModelUsage where
  inputTokens : ℕ
  outputTokens : ℕ
  cachedInputTokens : ℕ
  inputTokensComplete : Option Bool
  outputTokensComplete : Option Bool
  cachedInputTokensComplete : Option Bool
  deriving DecidableEq, Repr

/-- `_sum_known`. -/
def sumKnown (values : List (Option ℕ)) : Option ℕ :=
  if (values.any Option.isSome) = true then
    if (values.map (·.getD 0)).sum ≤ maxSignedBigint then some (values.map (·.getD 0)).sum else none
  else none

/-- `_sum_complete`. -/
def sumComplete (values : List (Option ℕ)) : Option ℕ :=
  if (values.all Option.isSome) = true then sumKnown values else none

/-- What an authoritative record says: exact values, and lower bounds. -/
structure Authority where
  input : Option ℕ
  output : Option ℕ
  cached : Option ℕ
  inputLowerBound : Option ℕ
  outputLowerBound : Option ℕ
  cachedLowerBound : Option ℕ
  deriving DecidableEq, Repr

def consumptionAuthority (c : Consumption) : Except String Authority := do
  let input ← measuredValue c.inputTokens
  let output ← measuredValue c.outputTokens
  let cached ← measuredValue c.cachedInputTokens
  .ok ⟨input, output, cached, none, none, none⟩

/-- `complete_model_usage_tokens` and the lower bounds beside it; in a model row the input
does not count what was read from the cache. -/
def modelAuthority (records : List ModelUsage) : Except String Authority := do
  let counts ← TokenCounts.make
    (sumComplete (records.map fun r =>
      if r.inputTokensComplete = some true then some (r.inputTokens + r.cachedInputTokens) else none))
    (sumComplete (records.map fun r =>
      if r.outputTokensComplete = some true then some r.outputTokens else none))
    (sumComplete (records.map fun r =>
      if r.cachedInputTokensComplete = some true then some r.cachedInputTokens else none)) none
  .ok ⟨counts.inputTokens, counts.outputTokens, counts.cachedInputTokens,
    sumKnown (records.map fun r => some (r.inputTokens + r.cachedInputTokens)),
    sumKnown (records.map fun r => some r.outputTokens),
    sumKnown (records.map fun r => some r.cachedInputTokens)⟩

/-- `resolved`: the exact value, or the largest positive lower bound. -/
def resolved (exact lowerBound liveValue : Option ℕ) : Option ℕ :=
  match exact with
  | some v => some v
  | none => ([lowerBound, liveValue].filterMap fun v => v.filter (0 < ·)).max?

inductive EvidenceKind
  | live
  | observationFinal
  | subscriptionConsumption
  | modelUsage
  deriving DecidableEq, Repr

/-- A work unit with the rows the query reads for it; its observations were appended one
after the other. -/
structure UnitEvidence where
  binding : WorkUnitBinding
  rows : List Observation
  consumption : Option Consumption
  models : List ModelUsage
  accepted : Accepted binding rows

structure FinalizedSourceFact where
  binding : WorkUnitBinding
  usage : SourceUsage
  evidenceKind : EvidenceKind

structure UsageTotals where
  sourceCount : ℕ
  finalSourceCount : ℕ
  inputTokens : Option ℕ
  outputTokens : Option ℕ
  cachedInputTokens : Option ℕ
  reasoningOutputTokens : Option ℕ
  completeness : Completeness
  sourceFacts : List FinalizedSourceFact

/-- The record that settles the unit, by the kind of its source. -/
def UnitEvidence.authority (u : UnitEvidence) : Except String (Option (Authority × EvidenceKind)) :=
  match u.binding.source.kind with
  | .subscriptionAttempt => match u.consumption with
    | some c => do
      let a ← consumptionAuthority c
      .ok (some (a, .subscriptionConsumption))
    | none => .ok none
  | .agentExecution =>
    if u.models.isEmpty then .ok none
    else do
      let a ← modelAuthority u.models
      .ok (some (a, .modelUsage))
  | .authoringAttempt => .ok none

/-- `_finalized`. -/
def FinalizedSourceFact.finalized (f : FinalizedSourceFact) : Bool :=
  f.evidenceKind == .subscriptionConsumption || f.evidenceKind == .modelUsage ||
    (f.binding.source.kind == .authoringAttempt && f.evidenceKind == .observationFinal)

/-- The sum of the compaction counts when every source has one; unlike the tokens it is
not capped. -/
def compactions (facts : List FinalizedSourceFact) : Option ℕ :=
  if (!facts.isEmpty && facts.all (·.usage.compactionCount.isSome)) = true then
    some (facts.map fun f => f.usage.compactionCount.getD 0).sum
  else none

end ParallelForge.Usage
