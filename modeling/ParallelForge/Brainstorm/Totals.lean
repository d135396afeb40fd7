import ParallelForge.Brainstorm.Money
import ParallelForge.Budget.Amounts

/-!
# Epic totals (`persistence/repositories/epic_budget.py:65-380`)

What an epic has used and holds: its authoring attempts, and the runs bound to
its items. The rows of a run are a parameter; a payload that does not decode is
absent.
-/

namespace ParallelForge.Brainstorm
open Base Quota Scheduling Budget
open Value hiding none

/-- A limit that is not set. -/
def limitOf (limit : WithTop ℕ) : Option ℤ := if limit = ⊤ then none else some (limit.untopD 0 : ℕ)

/-- `budget_amounts`. -/
def budgetAmounts (budget : TaskBudget) : EpicDimension → Option ℤ
  | .durationMs => some (budget.maxDurationSeconds * 1000)
  | .toolCallCount => some budget.maxToolCalls
  | .inputTokens => limitOf budget.maxInputTokens
  | .outputTokens => limitOf budget.maxOutputTokens
  | .estimatedApiCostMinor => limitOf budget.maxCostMinor
  | .providerAttempts => some budget.maxProviderAttempts

/-- `_CHILD_KEYS`. -/
def EpicDimension.childKey : EpicDimension → String
  | .durationMs => "duration_ms"
  | .toolCallCount => "tool_calls"
  | .inputTokens => "input_tokens"
  | .outputTokens => "output_tokens"
  | .estimatedApiCostMinor => "cost_minor"
  | .providerAttempts => "provider_attempts"

/-- `_amount`. -/
def amountOf (value : Value) : Option ℤ := (intOf value).filter fun z => 0 ≤ z

structure EpicHold where
  budget : Option TaskBudget
  effectsSettled : Bool

structure AgentExecution where
  id : UUID
  provider : String
  model : String
  terminal : Bool

structure ModelUsage where
  agentExecutionId : UUID
  provider : String
  model : String
  durationMs : ℕ
  toolCallCount : ℕ
  inputTokens : ℕ
  outputTokens : ℕ
  estimatedCostMinor : Option ℕ
  currency : String

structure ChildTelemetry where
  estimatedApiCostMinor : Option ℤ
  currency : Value

structure ChildConsumption where
  observed : Dict
  telemetry : Option ChildTelemetry

structure ChildAttempt where
  reservation : Option (Option TaskBudget)
  consumption : Option ChildConsumption
  route : Option RouteSpec
  admission : Option QuotaPoolKey

/-- A run bound to an item, with its rows. -/
structure Child where
  runId : UUID
  hold : Option EpicHold
  executions : List AgentExecution
  observations : List ModelUsage
  attempts : List ChildAttempt

/-- What the loops of `totals` accumulate. -/
structure Sums where
  known : EpicDimension → ℤ := fun _ => 0
  held : EpicDimension → ℤ := fun _ => 0
  moneyUnproved : Bool := false
  warnings : List String := []
  currencies : List String := []
  isUnknown : Bool := false

def Sums.add (s t : Sums) : Sums where
  known key := s.known key + t.known key
  held key := s.held key + t.held key
  moneyUnproved := s.moneyUnproved || t.moneyUnproved
  warnings := s.warnings ++ t.warnings
  currencies := s.currencies ++ t.currencies
  isUnknown := s.isUnknown || t.isUnknown

/-- Something that is not proved, and what it holds. -/
def unproved (warning : String) (held : EpicDimension → ℤ) : Sums where
  held := held
  moneyUnproved := true
  warnings := [warning]
  isUnknown := true

/-! ### Authoring -/

/-- The cost of one attempt is proved by its own evidence. -/
def provedCost (a : Attempt) (scope : Option MoneyScope) : Bool :=
  let evidence := moneyEvidence [(a, scope)]
  evidence.unit.isSome && !evidence.isUnsafe && !evidence.unknownHold && a.processSettled &&
    a.usageKnown == some true

/-- One authoring attempt. A cost that is not proved is held instead. -/
def attemptSums (a : Attempt) (scope : Option MoneyScope) : Sums :=
  let cost := (a.charge .estimatedApiCostMinor).charged
  let evidence := moneyEvidence [(a, scope)]
  let moved := 0 < cost && !provedCost a scope
  { known := fun key => match key with
      | .estimatedApiCostMinor => if moved then 0 else cost
      | .providerAttempts => if a.processStarted || a.processSettled then 1 else 0
      | key => (a.charge key).charged
    held := fun key => match key with
      | .estimatedApiCostMinor =>
        (a.charge .estimatedApiCostMinor).held + if moved then cost else 0
      | .providerAttempts => if a.processStarted || a.processSettled then 0 else 1
      | key => (a.charge key).held
    moneyUnproved := moved
    warnings := if moved then
        "authoring_cost_lineage_unproved" ::
          if evidence.isUnsafe || evidence.unit.isNone then
            ["authoring_positive_cost_lineage_unproved"]
          else []
      else []
    currencies := if 0 < cost && provedCost a scope then evidence.unit.toList else []
    isUnknown := moved }

def authoringSums (prior : List (Attempt × Option MoneyScope)) : Sums :=
  let isUnknown := 0 < unknownAttempts (prior.map Prod.fst)
  let evidence := moneyEvidence prior
  let lineage := evidence.hasMoney && (evidence.isUnsafe || evidence.unknownHold)
  (prior.map fun p => attemptSums p.1 p.2).foldl Sums.add
    { moneyUnproved := lineage
      warnings := (if isUnknown then ["authoring_usage_unknown"] else []) ++
        if lineage then ["authoring_cost_lineage_unproved"] else []
      isUnknown := isUnknown || lineage }

/-! ### Children -/

section child
variable (floor : EpicDimension → Option ℤ)

def floorAmount (key : EpicDimension) : ℤ := (floor key).getD 0

/-- One observation of an execution. -/
def observationSums (executions : List AgentExecution) (observation : ModelUsage) : Sums :=
  match executions.find? fun e => e.id == observation.agentExecutionId with
  | none => unproved "child_usage_lineage_unproved" fun _ => 0
  | some execution =>
    if execution.provider ≠ observation.provider ∨ execution.model ≠ observation.model then
      unproved "child_usage_lineage_unproved" fun _ => 0
    else
      let known (cost : ℤ) (key : EpicDimension) : ℤ := match key with
        | .durationMs => observation.durationMs
        | .toolCallCount => observation.toolCallCount
        | .inputTokens => observation.inputTokens
        | .outputTokens => observation.outputTokens
        | .estimatedApiCostMinor => cost
        | .providerAttempts => 0
      match observation.estimatedCostMinor with
      | none =>
        { known := known 0
          held := fun key => if key = .estimatedApiCostMinor then floorAmount floor key else 0
          moneyUnproved := true
          warnings := ["child_cost_unknown"]
          isUnknown := true }
      | some cost =>
        { known := known cost
          currencies := if 0 < cost then [observation.currency] else [] }

/-- `ordinary_observed`. -/
def ordinaryObserved (executions : List AgentExecution) (observations : List ModelUsage) : Bool :=
  !executions.isEmpty && executions.all fun e => e.terminal &&
    observations.any fun o => o.agentExecutionId == e.id && o.provider == e.provider &&
      o.model == e.model

/-- The cost of a settled attempt is proved by its telemetry and its pool. -/
def provedChildCost (attempt : ChildAttempt) (consumption : ChildConsumption) (cost : ℤ) : Bool :=
  match consumption.telemetry, attempt.route, attempt.admission with
  | some telemetry, some route, some key =>
    validKey key && key.provider == route.provider &&
      telemetry.estimatedApiCostMinor == some cost &&
      !(0 < cost && (currencyOf telemetry.currency).isNone)
  | _, _, _ => false

/-- The currency of a proved cost. -/
def childCurrency (consumption : ChildConsumption) (cost : ℤ) : List String :=
  if 0 < cost then
    (consumption.telemetry.bind fun telemetry => currencyOf telemetry.currency).toList
  else []

/-- A settled attempt: what was not observed is held. -/
def consumedSums (attempt : ChildAttempt) (reserved : EpicDimension → Option ℤ)
    (consumption : ChildConsumption) : Sums :=
  let amount (key : EpicDimension) : Option ℤ := amountOf (get consumption.observed key.childKey)
  let missing (key : EpicDimension) : Bool := (amount key).isNone
  let all : List EpicDimension := [.durationMs, .toolCallCount, .inputTokens, .outputTokens,
    .estimatedApiCostMinor, .providerAttempts]
  let badCost := (amount .estimatedApiCostMinor).any fun cost =>
    !provedChildCost attempt consumption cost
  { known := fun key =>
      if key = .estimatedApiCostMinor ∧ badCost = true then 0 else (amount key).getD 0
    held := fun key =>
      if missing key then (reserved key).getD 0
      else if key = .estimatedApiCostMinor ∧ badCost = true then
        max ((amount key).getD 0) ((reserved key).getD 0)
      else 0
    moneyUnproved := missing .estimatedApiCostMinor || badCost
    warnings := (all.filter missing).map (fun _ => "child_usage_unproved") ++
      if badCost then ["child_cost_lineage_unproved"] else []
    currencies := if badCost then []
      else (amount .estimatedApiCostMinor).elim [] (childCurrency consumption)
    isUnknown := all.any missing || badCost }

/-- One attempt of the run. -/
def childAttemptSums (attempt : ChildAttempt) : Sums :=
  match attempt.reservation with
  | none => unproved "child_reservation_missing" (floorAmount floor)
  | some none => unproved "child_reservation_unproved" (floorAmount floor)
  | some (some budget) =>
    match attempt.consumption with
    | none => unproved "child_consumption_unsettled" fun key => (budgetAmounts budget key).getD 0
    | some consumption => consumedSums attempt (budgetAmounts budget) consumption

end child

/-- One run. Its hold is a floor under what it has used, until its effects have settled. -/
def childSums (legacyHold : TaskBudget) (forInternalRun : Option UUID) (child : Child) : Sums :=
  let proved := child.hold.all fun hold => hold.budget.isSome
  let floorBudget := (child.hold.bind (·.budget)).getD legacyHold
  let floor := budgetAmounts floorBudget
  let observed := ordinaryObserved child.executions child.observations
  let internal := forInternalRun == some child.runId
  let started : Sums :=
    { known := fun key => if key = .providerAttempts then (child.executions.length : ℤ) else 0 }
  let sums := (child.observations.map (observationSums floor child.executions) ++
    child.attempts.map (childAttemptSums floor)).foldl Sums.add started
  let open_ := !internal && (child.hold.all (fun hold => !hold.effectsSettled) ||
    (child.attempts.isEmpty && !observed))
  let held (key : EpicDimension) : ℤ := sums.held key +
    if open_ then max (floorAmount floor key - (sums.known key + sums.held key)) 0 else 0
  let silent := !observed && child.attempts.isEmpty && !internal
  { sums with
    held := held
    moneyUnproved := sums.moneyUnproved || !proved || silent
    warnings := (if proved then [] else ["child_hold_unproved"]) ++ sums.warnings ++
      if silent then ["child_usage_unproved"] else []
    isUnknown := sums.isUnknown || !proved || silent }

structure EpicTotals where
  known : EpicDimension → ℤ
  held : EpicDimension → ℤ
  isUnknown : Bool
  currency : Option String
  warnings : List String

/-- Minor units of different currencies are not added up. -/
def Sums.totals (sums : Sums) : EpicTotals :=
  let currencies := sums.currencies.dedup
  let conflict := 1 < currencies.length
  { known := fun key => if conflict ∧ key = .estimatedApiCostMinor then 0 else sums.known key
    held := fun key => if conflict ∧ key = .estimatedApiCostMinor then 0 else sums.held key
    isUnknown := sums.isUnknown || conflict
    currency := match currencies with
      | [unit] => if sums.moneyUnproved then none else some unit
      | _ => none
    warnings := (sums.warnings ++ if conflict then ["epic_cost_currency_conflict"] else []).dedup }

/-- `totals`. -/
def epicTotals (legacyHold : TaskBudget) (forInternalRun : Option UUID)
    (prior : List (Attempt × Option MoneyScope)) (children : List Child) : EpicTotals :=
  ((children.map (childSums legacyHold forInternalRun)).foldl Sums.add (authoringSums prior)).totals

/-- `shared_unknown`. -/
def EpicTotals.sharedUnknown (t : EpicTotals) : Bool :=
  t.warnings.any fun warning => warning.startsWith "child_" ||
    warning == "authoring_positive_cost_lineage_unproved" ||
    warning == "epic_cost_currency_conflict"

/-! ### Totals are not negative -/

def Sums.Nonneg (s : Sums) : Prop := ∀ key, 0 ≤ s.known key ∧ 0 ≤ s.held key

theorem limitOf_nonneg (limit : WithTop ℕ) (z : ℤ) (h : limitOf limit = some z) : 0 ≤ z := by
  unfold limitOf at h
  split at h
  · cases h
  · cases h
    exact Int.natCast_nonneg _

theorem budgetAmounts_nonneg (budget : TaskBudget) (key : EpicDimension) (z : ℤ)
    (h : budgetAmounts budget key = some z) : 0 ≤ z := by
  cases key with
  | durationMs =>
    cases h
    have hs : (0 : ℤ) ≤ budget.maxDurationSeconds := Int.natCast_nonneg _
    omega
  | toolCallCount =>
    cases h
    exact Int.natCast_nonneg _
  | inputTokens => exact limitOf_nonneg _ z h
  | outputTokens => exact limitOf_nonneg _ z h
  | estimatedApiCostMinor => exact limitOf_nonneg _ z h
  | providerAttempts =>
    cases h
    exact Int.natCast_nonneg _

/- What a missing amount counts for. -/
theorem getD_nonneg (o : Option ℤ) (h : ∀ z, o = some z → 0 ≤ z) : 0 ≤ o.getD 0 := by
  cases o with
  | none => exact le_rfl
  | some z => exact h z rfl

theorem budget_getD_nonneg (budget : TaskBudget) (key : EpicDimension) :
    0 ≤ (budgetAmounts budget key).getD 0 := getD_nonneg _ (budgetAmounts_nonneg budget key)

theorem add_nonneg_sums (s t : Sums) (hs : s.Nonneg) (ht : t.Nonneg) : (s.add t).Nonneg :=
  fun key => ⟨add_nonneg (hs key).1 (ht key).1, add_nonneg (hs key).2 (ht key).2⟩

theorem foldl_add_nonneg (l : List Sums) (s : Sums) (hs : s.Nonneg) (hl : ∀ t ∈ l, t.Nonneg) :
    (l.foldl Sums.add s).Nonneg := by
  induction l generalizing s with
  | nil => exact hs
  | cons t l ih =>
    have ht := hl t (List.mem_cons_self ..)
    exact ih (s.add t) (add_nonneg_sums s t hs ht) fun u hu => hl u (List.mem_cons_of_mem _ hu)

theorem unproved_nonneg (warning : String) (held : EpicDimension → ℤ) (h : ∀ key, 0 ≤ held key) :
    (unproved warning held).Nonneg := fun key => ⟨le_rfl, h key⟩

theorem attemptSums_nonneg (a : Attempt) (scope : Option MoneyScope) (ha : a.Reserved) :
    (attemptSums a scope).Nonneg := by
  intro key
  have hcharge := charge_nonneg a ha key
  cases key with
  | durationMs => exact hcharge
  | toolCallCount => exact hcharge
  | inputTokens => exact hcharge
  | outputTokens => exact hcharge
  | estimatedApiCostMinor =>
    -- The cost is either known or held.
    simp only [attemptSums]
    split
    · exact ⟨le_rfl, add_nonneg hcharge.2 hcharge.1⟩
    · exact ⟨hcharge.1, add_nonneg hcharge.2 le_rfl⟩
  | providerAttempts =>
    simp only [attemptSums]
    split
    · exact ⟨by decide, le_rfl⟩
    · exact ⟨le_rfl, by decide⟩

theorem authoringSums_nonneg (prior : List (Attempt × Option MoneyScope))
    (hprior : ∀ p ∈ prior, p.1.Reserved) : (authoringSums prior).Nonneg := by
  refine foldl_add_nonneg _ _ (fun key => ⟨le_rfl, le_rfl⟩) fun t ht => ?_
  obtain ⟨p, hp, rfl⟩ := List.mem_map.mp ht
  exact attemptSums_nonneg p.1 p.2 (hprior p hp)

section floor
variable (floor : EpicDimension → Option ℤ) (hfloor : ∀ key, 0 ≤ floorAmount floor key)
include hfloor

theorem observationSums_nonneg (executions : List AgentExecution) (observation : ModelUsage) :
    (observationSums floor executions observation).Nonneg := by
  unfold observationSums
  split
  · exact unproved_nonneg _ _ fun key => le_rfl
  · split
    · exact unproved_nonneg _ _ fun key => le_rfl
    · simp only
      split
      · intro key
        refine ⟨by cases key <;> exact Int.natCast_nonneg _, ?_⟩
        simp only
        split
        · exact hfloor key
        · exact le_rfl
      · intro key
        exact ⟨by cases key <;> exact Int.natCast_nonneg _, le_rfl⟩

theorem childAttemptSums_nonneg (attempt : ChildAttempt) :
    (childAttemptSums floor attempt).Nonneg := by
  unfold childAttemptSums
  split
  · exact unproved_nonneg _ _ hfloor
  · exact unproved_nonneg _ _ hfloor
  · rename_i budget _
    split
    · exact unproved_nonneg _ _ (budget_getD_nonneg budget)
    · rename_i consumption _
      intro key
      have hamount : 0 ≤ (amountOf (Value.get consumption.observed key.childKey)).getD 0 :=
        getD_nonneg _ fun z hz => of_decide_eq_true (Option.filter_eq_some_iff.mp hz).2
      have hreserved := budget_getD_nonneg budget key
      simp only [consumedSums]
      refine ⟨?_, ?_⟩
      · split
        · exact le_rfl
        · exact hamount
      · split
        · exact hreserved
        · split
          · exact hamount.trans (le_max_left _ _)
          · exact le_rfl

end floor

theorem childSums_nonneg (legacyHold : TaskBudget) (forInternalRun : Option UUID) (child : Child) :
    (childSums legacyHold forInternalRun child).Nonneg := by
  unfold childSums
  simp only
  generalize hfloor : budgetAmounts ((child.hold.bind (·.budget)).getD legacyHold) = floor
  have hpos : ∀ key, 0 ≤ floorAmount floor key := fun key => hfloor ▸ budget_getD_nonneg _ key
  generalize hsums : List.foldl Sums.add _ _ = sums
  have hall : sums.Nonneg := by
    subst hsums
    refine foldl_add_nonneg _ _ (fun key => ⟨?_, le_rfl⟩) fun t ht => ?_
    · simp only
      split
      · exact Int.natCast_nonneg _
      · exact le_rfl
    · rcases List.mem_append.mp ht with h | h
      · obtain ⟨observation, _, rfl⟩ := List.mem_map.mp h
        exact observationSums_nonneg floor hpos _ _
      · obtain ⟨attempt, _, rfl⟩ := List.mem_map.mp h
        exact childAttemptSums_nonneg floor hpos attempt
  intro key
  refine ⟨(hall key).1, add_nonneg (hall key).2 ?_⟩
  split
  · exact le_max_right _ _
  · exact le_rfl

theorem epicTotals_nonneg (legacyHold : TaskBudget) (forInternalRun : Option UUID)
    (prior : List (Attempt × Option MoneyScope)) (children : List Child)
    (hprior : ∀ p ∈ prior, p.1.Reserved) (key : EpicDimension) :
    0 ≤ (epicTotals legacyHold forInternalRun prior children).known key ∧
      0 ≤ (epicTotals legacyHold forInternalRun prior children).held key := by
  have hall : ((children.map (childSums legacyHold forInternalRun)).foldl Sums.add
      (authoringSums prior)).Nonneg := by
    refine foldl_add_nonneg _ _ (authoringSums_nonneg prior hprior) fun t ht => ?_
    obtain ⟨child, _, rfl⟩ := List.mem_map.mp ht
    exact childSums_nonneg legacyHold forInternalRun child
  unfold epicTotals Sums.totals
  simp only
  split
  · exact ⟨le_rfl, le_rfl⟩
  · exact hall key

/-! ### One more attempt -/

theorem foldl_known (l : List Sums) (s : Sums) (key : EpicDimension) :
    (l.foldl Sums.add s).known key = s.known key + (l.map (·.known key)).sum := by
  induction l generalizing s with
  | nil => simp
  | cons t l ih =>
    rw [List.foldl_cons, ih, List.map_cons, List.sum_cons]
    show s.known key + t.known key + _ = _
    omega

theorem foldl_held (l : List Sums) (s : Sums) (key : EpicDimension) :
    (l.foldl Sums.add s).held key = s.held key + (l.map (·.held key)).sum := by
  induction l generalizing s with
  | nil => simp
  | cons t l ih =>
    rw [List.foldl_cons, ih, List.map_cons, List.sum_cons]
    show s.held key + t.held key + _ = _
    omega

theorem foldl_currencies (l : List Sums) (s : Sums) :
    (l.foldl Sums.add s).currencies = s.currencies ++ l.flatMap (·.currencies) := by
  induction l generalizing s with
  | nil => simp
  | cons t l ih =>
    rw [List.foldl_cons, ih, List.flatMap_cons, ← List.append_assoc]
    rfl

/-- What a fresh attempt holds. -/
def freshHold (reservation : EpicDimension → Option ℤ) (key : EpicDimension) : ℤ :=
  if key = .providerAttempts then 1 else (reservation key).getD 0

section fresh
variable (legacyHold : TaskBudget) (forInternalRun : Option UUID)
  (prior : List (Attempt × Option MoneyScope)) (children : List Child)
  (jobId : UUID) (number : ℕ) (reservation : EpicDimension → Option ℤ)
  (scope : Option MoneyScope)

theorem attemptSums_fresh (hpos : ∀ key z, reservation key = some z → 0 ≤ z)
    (key : EpicDimension) :
    (attemptSums (freshAttempt jobId number reservation) scope).known key = 0 ∧
      (attemptSums (freshAttempt jobId number reservation) scope).held key =
        freshHold reservation key := by
  have hcharge := charge_fresh jobId number reservation hpos key
  cases key with
  | durationMs => simp [attemptSums, freshHold, hcharge]
  | toolCallCount => simp [attemptSums, freshHold, hcharge]
  | inputTokens => simp [attemptSums, freshHold, hcharge]
  | outputTokens => simp [attemptSums, freshHold, hcharge]
  | estimatedApiCostMinor => simp [attemptSums, freshHold, hcharge]
  | providerAttempts => exact ⟨rfl, rfl⟩

theorem currencies_fresh (hpos : ∀ key z, reservation key = some z → 0 ≤ z) :
    (attemptSums (freshAttempt jobId number reservation) scope).currencies = [] := by
  have hcharge := charge_fresh jobId number reservation hpos .estimatedApiCostMinor (by decide)
  simp [attemptSums, hcharge]

theorem authoringSums_known (key : EpicDimension) :
    (authoringSums prior).known key = (prior.map fun p => (attemptSums p.1 p.2).known key).sum := by
  simp [authoringSums, foldl_known, Function.comp_def]

theorem authoringSums_held (key : EpicDimension) :
    (authoringSums prior).held key = (prior.map fun p => (attemptSums p.1 p.2).held key).sum := by
  simp [authoringSums, foldl_held, Function.comp_def]

theorem authoringSums_currencies :
    (authoringSums prior).currencies = prior.flatMap fun p => (attemptSums p.1 p.2).currencies := by
  simp [authoringSums, foldl_currencies, List.flatMap_map]

/-- A fresh attempt adds its reservation and one provider attempt, and nothing else. -/
theorem epicTotals_fresh (hpos : ∀ key z, reservation key = some z → 0 ≤ z) (key : EpicDimension) :
    let before := epicTotals legacyHold forInternalRun prior children
    let after := epicTotals legacyHold forInternalRun
      (prior ++ [(freshAttempt jobId number reservation, scope)]) children
    after.known key + after.held key ≤
      before.known key + before.held key + freshHold reservation key := by
  obtain ⟨hknown, hheld⟩ := attemptSums_fresh jobId number reservation scope hpos key
  have hcurrencies := currencies_fresh jobId number reservation scope hpos
  have hhold : 0 ≤ freshHold reservation key := by
    unfold freshHold
    split
    · decide
    · exact getD_nonneg _ (hpos key)
  intro before after
  simp only [before, after, epicTotals, Sums.totals, foldl_known, foldl_held, foldl_currencies,
    authoringSums_known, authoringSums_held, authoringSums_currencies, List.map_append,
    List.map_cons, List.map_nil, List.sum_append, List.sum_cons, List.sum_nil,
    List.flatMap_append, List.flatMap_cons, List.flatMap_nil, hcurrencies, List.append_nil,
    hknown, hheld]
  split
  · simpa using hhold
  · omega

end fresh

end ParallelForge.Brainstorm
