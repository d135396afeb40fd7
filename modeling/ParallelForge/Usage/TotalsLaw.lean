import ParallelForge.Usage.SubsetLaw

/-!
# When the facts keep the subset law

A record takes the place of the observations, or adds a lower bound to them.
Where every subset is taken from reports its total is taken from as well, the
fact keeps the law; where no report is counted for the total, the total stays
unknown.
-/

namespace ParallelForge.Usage
open Base

/-- The law itself: where both are known, the subset is not larger. -/
def SourceUsage.Within (u : SourceUsage) : Prop :=
  ∀ sub total, Subset sub total → subsetWithin (u.get sub) (u.get total) = true

/-- The exact value, or the larger of the lower bound and the tokens observed. -/
def taken (exact lowerBound : Option ℕ) (observed : ℕ) : ℕ :=
  exact.getD (max (lowerBound.getD 0) observed)

/-- The exact values are counts of their own. -/
def Authority.Consistent (a : Authority) : Prop :=
  (measured a.input && measured a.output && measured a.cached && subsetWithin a.cached a.input) = true

def Authority.exact (a : Authority) : TokenDimension → Option ℕ
  | .input => a.input
  | .output => a.output
  | .cachedInput => a.cached
  | .reasoningOutput => none

def Authority.lowerBound (a : Authority) : TokenDimension → Option ℕ
  | .input => a.inputLowerBound
  | .output => a.outputLowerBound
  | .cachedInput => a.cachedLowerBound
  | .reasoningOutput => none

inductive Report
  | record (a : Authority)
  | observation (o : Observation)

def Report.tokens : Report → TokenDimension → Option ℕ
  | .record a, d => (a.exact d).or (a.lowerBound d)
  | .observation o, d => o.tokens.get d

/-- The reports of a unit with a record: the record alone where it is exact, else those with tokens.
The reasoning tokens are from none, since they are compared with the exact output before they are kept. -/
def recordCounted (a : Authority) (ordered : List Observation) (d : TokenDimension) : List Report :=
  if d = .reasoningOutput then []
  else if (a.exact d).isSome = true then [.record a]
  else (Report.record a :: (counted d ordered).map .observation).filter fun r => 0 < (r.tokens d).getD 0

/-- What a record with these values satisfies of itself. -/
structure Authority.Bounded (a : Authority) : Prop where
  input : measured a.inputLowerBound = true
  output : measured a.outputLowerBound = true
  cached : measured a.cachedLowerBound = true
  subset : ∀ c i, (Report.record a).tokens .cachedInput = some c →
    (Report.record a).tokens .input = some i → c ≤ i

/-- What a consistent record makes of the projection of the observations. -/
structure Settles (usage : SourceUsage) (a : Authority) (u : SourceUsage) : Prop where
  input : u.inputTokens = resolved a.input a.inputLowerBound usage.inputTokens
  output : u.outputTokens = resolved a.output a.outputLowerBound usage.outputTokens
  cached : u.cachedInputTokens = resolved a.cached a.cachedLowerBound usage.cachedInputTokens
  reasoning : u.reasoningOutputTokens = none ∨
    u.reasoningOutputTokens = usage.reasoningOutputTokens ∧
      ∃ o, a.output = some o ∧ u.reasoningOutputTokens.getD 0 ≤ o
  occupied : u.contextOccupiedTokens = usage.contextOccupiedTokens
  capacity : u.contextCapacityTokens = usage.contextCapacityTokens
  compactionCount : u.compactionCount = usage.compactionCount

/-- The record of a unit can be read, and its exact cached tokens are within its exact input. -/
def UnitEvidence.Readable (u : UnitEvidence) : Prop :=
  match u.authority with
  | .error _ => False
  | .ok none => True
  | .ok (some (a, _)) => a.Consistent

/-- The reports a dimension of the fact is taken from. -/
def UnitEvidence.counted (u : UnitEvidence) (d : TokenDimension) : List Report :=
  match u.authority with
  | .ok (some (a, _)) => recordCounted a (bySequence u.rows) d
  | _ => (Usage.counted d (bySequence u.rows)).map .observation

end ParallelForge.Usage
