import ParallelForge.Scheduling.Contract
import Mathlib.Algebra.GroupWithZero.Nat
import Mathlib.Algebra.Order.Monoid.WithTop
import Mathlib.Algebra.Order.Group.Nat
import Mathlib.Algebra.Order.Pi

/-!
# Usage amounts (`domain/subscription_budget.py`, `domain/subscription.py:608-728`)

An amount per dimension. `None` is `⊤`, in both of its readings: an unknown
usage absorbs whatever is added to it and fits no finite limit, and a limit
that is not set bounds nothing. With that `fits_within` is the pointwise order.
-/

namespace ParallelForge.Budget
open Base Scheduling

inductive Dimension
  | durationMs
  | toolCalls
  | namedChecks
  | providerAttempts
  | repairs
  | inputTokens
  | outputTokens
  | costMinor
  deriving DecidableEq, Repr

/-- The field order of `UsageAmounts`, in which `values()` lists them. -/
def dimensions : List Dimension :=
  [.durationMs, .toolCalls, .namedChecks, .providerAttempts, .repairs, .inputTokens,
    .outputTokens, .costMinor]

theorem mem_dimensions (d : Dimension) : d ∈ dimensions := by
  cases d <;> decide

abbrev UsageAmounts := Dimension → WithTop ℕ

structure UnknownTelemetryPolicy where
  allowUnknownTokens : Bool := true
  allowUnknownCost : Bool := true
  allowUnknownQuota : Bool := true
  maxUncertainAttempts : ℕ := 1
  deriving DecidableEq, Repr

structure TaskBudget where
  maxDurationSeconds : ℕ := 1800
  maxToolCalls : ℕ := 100
  maxNamedChecks : ℕ := 10
  maxProviderAttempts : ℕ := 3
  maxRepairs : ℕ := 3
  maxInputTokens : WithTop ℕ := ⊤
  maxOutputTokens : WithTop ℕ := ⊤
  maxCostMinor : WithTop ℕ := ⊤
  billingMode : BillingMode := .allowanceOnly
  unknownTelemetryPolicy : UnknownTelemetryPolicy := {}
  deriving DecidableEq

/-- `budget_ceiling`. -/
def budgetCeiling (budget : TaskBudget) : UsageAmounts
  | .durationMs => ((budget.maxDurationSeconds * 1000 : ℕ) : WithTop ℕ)
  | .toolCalls => (budget.maxToolCalls : WithTop ℕ)
  | .namedChecks => (budget.maxNamedChecks : WithTop ℕ)
  | .providerAttempts => (budget.maxProviderAttempts : WithTop ℕ)
  | .repairs => (budget.maxRepairs : WithTop ℕ)
  | .inputTokens => budget.maxInputTokens
  | .outputTokens => budget.maxOutputTokens
  | .costMinor => budget.maxCostMinor

/-- `fits_within`: unknown reservations cannot fit a finite limit. -/
def fitsWithin (amounts : UsageAmounts) (budget : TaskBudget) : Bool :=
  dimensions.all fun d => budgetCeiling budget d = ⊤ ||
    (amounts d ≠ ⊤ && amounts d ≤ budgetCeiling budget d)

theorem fitsWithin_iff (amounts : UsageAmounts) (budget : TaskBudget) :
    fitsWithin amounts budget = true ↔ amounts ≤ budgetCeiling budget := by
  simp only [fitsWithin, List.all_eq_true, Bool.or_eq_true, Bool.and_eq_true, decide_eq_true_eq]
  constructor
  · intro h d
    rcases h d (mem_dimensions d) with hlimit | ⟨-, hle⟩
    · rw [hlimit]
      exact le_top
    · exact hle
  · intro h d _
    by_cases hlimit : budgetCeiling budget d = ⊤
    · exact Or.inl hlimit
    · refine Or.inr ⟨?_, h d⟩
      intro htop
      have hle := h d
      rw [htop, top_le_iff] at hle
      exact hlimit hle

/-- A reservation binds one attempt and no repair unit. -/
def oneAttempt (budget : TaskBudget) : Bool :=
  budget.maxProviderAttempts == 1 && budget.maxRepairs == 0

theorem oneAttempt_iff (budget : TaskBudget) :
    oneAttempt budget = true ↔ budget.maxProviderAttempts = 1 ∧ budget.maxRepairs = 0 := by
  simp [oneAttempt]

inductive QuotaStatus
  | ok
  | exhausted
  | unknown
  deriving DecidableEq, Repr

/-- `AttemptTelemetry`, without the fields no budget reads (`cached_input_tokens`,
`currency`, `subscription_allowance_charge`, `unknown_telemetry_reasons`). -/
structure AttemptTelemetry where
  inputTokens : WithTop ℕ := ⊤
  outputTokens : WithTop ℕ := ⊤
  durationMs : ℕ := 0
  toolCallCount : ℕ := 0
  namedCheckCount : ℕ := 0
  estimatedApiCostMinor : WithTop ℕ := ⊤
  quotaStatus : QuotaStatus := .unknown
  deriving DecidableEq

def AttemptTelemetry.isTokenTelemetryKnown (t : AttemptTelemetry) : Bool :=
  t.inputTokens ≠ ⊤ && t.outputTokens ≠ ⊤

def AttemptTelemetry.isCostKnown (t : AttemptTelemetry) : Bool := t.estimatedApiCostMinor ≠ ⊤

def AttemptTelemetry.isQuotaKnown (t : AttemptTelemetry) : Bool := t.quotaStatus ≠ .unknown

/-- `validate_telemetry` raises or not. -/
def UnknownTelemetryPolicy.acceptsTelemetry (policy : UnknownTelemetryPolicy)
    (telemetry : AttemptTelemetry) (billingMode : BillingMode) : Bool :=
  !(billingMode == .paidOptIn && !telemetry.isCostKnown) &&
    (policy.allowUnknownTokens || telemetry.isTokenTelemetryKnown) &&
    (policy.allowUnknownCost || telemetry.isCostKnown) &&
    (policy.allowUnknownQuota || telemetry.isQuotaKnown)

/-- What an attempt measured; it is one provider attempt whatever it reports. -/
def observedUsage (telemetry : Option AttemptTelemetry) (repair : Bool) : UsageAmounts
  | .durationMs => telemetry.elim ⊤ fun t => (t.durationMs : WithTop ℕ)
  | .toolCalls => telemetry.elim ⊤ fun t => (t.toolCallCount : WithTop ℕ)
  | .namedChecks => telemetry.elim ⊤ fun t => (t.namedCheckCount : WithTop ℕ)
  | .providerAttempts => 1
  | .repairs => if repair then 1 else 0
  | .inputTokens => telemetry.elim ⊤ (·.inputTokens)
  | .outputTokens => telemetry.elim ⊤ (·.outputTokens)
  | .costMinor => telemetry.elim ⊤ (·.estimatedApiCostMinor)

/-- The charge of an attempt. Whatever was measured, it is one provider attempt. -/
structure AttemptCharge where
  observed : UsageAmounts
  charged : UsageAmounts
  unknownFields : List Dimension
  exceededFields : List Dimension
  one_attempt : charged .providerAttempts = 1

/-- The charge itself, once the units of the reservation are checked. -/
def chargeOf (reservation : TaskBudget) (telemetry : Option AttemptTelemetry) (repair : Bool) :
    AttemptCharge where
  observed := observedUsage telemetry repair
  charged := fun d =>
    if observedUsage telemetry repair d = ⊤ then budgetCeiling reservation d
    else observedUsage telemetry repair d
  unknownFields := dimensions.filter fun d => observedUsage telemetry repair d = ⊤
  exceededFields := dimensions.filter fun d =>
    observedUsage telemetry repair d ≠ ⊤ && budgetCeiling reservation d ≠ ⊤ &&
      decide (budgetCeiling reservation d < observedUsage telemetry repair d)
  one_attempt := if_neg WithTop.one_ne_top

/-- `project_attempt_charge` (`subscription_budget.py:75-114`). -/
def projectAttemptCharge (reservation : TaskBudget) (telemetry : Option AttemptTelemetry)
    (repair : Bool) : Except String AttemptCharge := do
  require (reservation.maxProviderAttempts = 1 ∧
      reservation.maxRepairs = if repair then 1 else 0)
    "an attempt reservation must bind one attempt and its repair unit"
  .ok (chargeOf reservation telemetry repair)

section charge
variable (reservation : TaskBudget) (telemetry : Option AttemptTelemetry) (repair : Bool)

/-- A dimension that is not reported as exceeded is charged within its ceiling. -/
theorem charged_le_ceiling (d : Dimension)
    (h : d ∉ (chargeOf reservation telemetry repair).exceededFields) :
    (chargeOf reservation telemetry repair).charged d ≤ budgetCeiling reservation d := by
  show (if observedUsage telemetry repair d = ⊤ then budgetCeiling reservation d
    else observedUsage telemetry repair d) ≤ _
  split
  · exact le_rfl
  · next hknown =>
    by_contra hgt
    apply h
    have hlimit : budgetCeiling reservation d ≠ ⊤ := by
      intro htop
      exact hgt (htop ▸ le_top)
    simp [chargeOf, mem_dimensions, hknown, hlimit, lt_of_not_ge hgt]

/- What is measured within the reservation is not exceeded. -/
theorem not_exceeded (d : Dimension)
    (h : observedUsage telemetry repair d ≤ budgetCeiling reservation d) :
    d ∉ (chargeOf reservation telemetry repair).exceededFields := by
  simp [chargeOf, not_lt_of_ge h]

end charge

end ParallelForge.Budget
