import ParallelForge.Base.Result
import ParallelForge.Budget.Amounts

/-!
# Delegated authority (`domain/subscription_delegation.py:46-100`)

A whole task contract: the parts the scheduler reads, the budget, the named
checks and the typed acceptance. `validate_child_authority` bounds a child by
its parent and by the frozen envelope of the run, one check after the other.
-/

namespace ParallelForge.Delegation
open Base Scheduling Budget

structure AcceptanceCriterion where
  criterionId : String
  description : String
  requiredCheckNames : List String
  deriving DecidableEq, Repr

structure TaskContract extends LogicalTaskContract where
  budget : TaskBudget
  namedChecks : List String
  typedAcceptance : List AcceptanceCriterion
  acceptanceIds_eq : acceptanceIds = typedAcceptance.map (·.criterionId)

/-- The budget fields in the order of the loop; `None` is `⊤`. -/
def budgetFields : List (TaskBudget → WithTop ℕ) :=
  [fun b => (b.maxDurationSeconds : ℕ), fun b => (b.maxToolCalls : ℕ),
    fun b => (b.maxNamedChecks : ℕ), fun b => (b.maxProviderAttempts : ℕ),
    fun b => (b.maxRepairs : ℕ), (·.maxInputTokens), (·.maxOutputTokens), (·.maxCostMinor)]

def telemetryFlags : List (UnknownTelemetryPolicy → Bool) :=
  [(·.allowUnknownTokens), (·.allowUnknownCost), (·.allowUnknownQuota)]

def isSubset (l m : List String) : Bool := l.all m.contains

def validateChildAuthority (parent child : TaskContract) (envelope : ExecutionEnvelope) :
    Except String Unit := do
  require (parent.purpose = .primary ∧ child.purpose ≠ .primary ∧ child.runId = parent.runId ∧
      child.parentTaskId = some parent.taskId ∧ parent.taskId ∉ child.dependencyTaskIds)
    "child authority differs from frozen primary contract"
  let binding ← orRaise (envelope.routeFor child.purpose) "no route bound"
  require (child.route = binding ∧ child.budget.billingMode = child.route.effective.billingMode)
    "child authority differs from frozen primary contract"
  require (∀ field ∈ budgetFields, field child.budget ≤ field parent.budget)
    "child budget exceeds parent"
  require (child.maxRepairs ≤ parent.maxRepairs ∧ child.maxRepairs ≤ child.budget.maxRepairs)
    "child repair limit exceeds parent"
  require (isSubset child.namedChecks parent.namedChecks = true) "child checks exceed parent"
  require (∀ item ∈ child.typedAcceptance, isSubset item.requiredCheckNames child.namedChecks = true)
    "acceptance check is absent from child contract"
  require (∀ flag ∈ telemetryFlags, flag child.budget.unknownTelemetryPolicy = true →
      flag parent.budget.unknownTelemetryPolicy = true)
    "child telemetry policy exceeds parent"
  require (child.budget.unknownTelemetryPolicy.maxUncertainAttempts ≤
      parent.budget.unknownTelemetryPolicy.maxUncertainAttempts)
    "child uncertainty limit exceeds parent"

/-- A child in the bounds of its parent. -/
structure Bounded (parent child : TaskContract) (envelope : ExecutionEnvelope) : Prop where
  parentPurpose : parent.purpose = .primary
  childPurpose : child.purpose ≠ .primary
  runId : child.runId = parent.runId
  parentTaskId : child.parentTaskId = some parent.taskId
  independent : parent.taskId ∉ child.dependencyTaskIds
  route : envelope.routeFor child.purpose = some child.route
  billing : child.budget.billingMode = child.route.effective.billingMode
  budget : ∀ field ∈ budgetFields, field child.budget ≤ field parent.budget
  repairs : child.maxRepairs ≤ parent.maxRepairs ∧ child.maxRepairs ≤ child.budget.maxRepairs
  checks : ∀ check ∈ child.namedChecks, check ∈ parent.namedChecks
  acceptance : ∀ item ∈ child.typedAcceptance, ∀ check ∈ item.requiredCheckNames,
    check ∈ child.namedChecks
  telemetry : ∀ flag ∈ telemetryFlags, flag child.budget.unknownTelemetryPolicy = true →
    flag parent.budget.unknownTelemetryPolicy = true
  uncertain : child.budget.unknownTelemetryPolicy.maxUncertainAttempts ≤
    parent.budget.unknownTelemetryPolicy.maxUncertainAttempts

theorem isSubset_iff (l m : List String) : isSubset l m = true ↔ ∀ x ∈ l, x ∈ m := by
  simp only [isSubset, List.all_eq_true, List.contains_iff_mem]

theorem validateChildAuthority_eq_ok (parent child : TaskContract) (envelope : ExecutionEnvelope) :
    validateChildAuthority parent child envelope = .ok () ↔ Bounded parent child envelope := by
  simp only [validateChildAuthority, bind_eq_ok, require_eq_ok, orRaise_eq_ok, exists_const,
    isSubset_iff]
  constructor
  · rintro ⟨⟨hparent, hchild, hrun, hlink, hdeps⟩, binding, hroute, ⟨hbinding, hbilling⟩, hbudget,
      hrepairs, hchecks, hacceptance, htelemetry, huncertain⟩
    rw [← hbinding] at hroute
    exact ⟨hparent, hchild, hrun, hlink, hdeps, hroute, hbilling, hbudget, hrepairs, hchecks,
      hacceptance, htelemetry, huncertain⟩
  · intro h
    exact ⟨⟨h.parentPurpose, h.childPurpose, h.runId, h.parentTaskId, h.independent⟩, child.route,
      h.route, ⟨rfl, h.billing⟩, h.budget, h.repairs, h.checks, h.acceptance, h.telemetry,
      h.uncertain⟩

end ParallelForge.Delegation
