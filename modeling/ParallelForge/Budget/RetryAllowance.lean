import ParallelForge.Budget.Conservation

/-!
# The retry allowance (`repositories/subscription_retry_allowance.py`)

An owner may let a root task that used up its counts try once more. `propose`
raises the count limits of each scope to one slot above what is charged, and
refuses where that takes more than one; `apply` writes the limits back. The
events and contract revisions it records are left out.
-/

namespace ParallelForge.Budget
open Base Scheduling

/-- What the allowance reads of a contract that accounting does not. -/
structure TaskTerms where
  parentTaskId : Option UUID
  maxRepairs : ℕ
  deriving DecidableEq, Repr

structure ScheduledRepairs where
  maxRepairs : ℕ
  repairs : ℕ
  deriving DecidableEq, Repr

/-- The ledger with the rows of the scheduler. A task is created under `validate_task_dag`, which
refuses worker roots, with its contract's parent. -/
structure RetryState where
  ledger : Ledger
  terms : UUID → TaskTerms
  scheduled : UUID → ScheduledRepairs
  roots_primary : ∀ id row contract, ledger.controls.tasks.get id = some row →
    row.contract = some contract → row.parentTaskId = (terms id).parentTaskId ∧
      ((terms id).parentTaskId = none → contract.purpose = .primary)

structure Counts where
  providerAttempts : ℕ
  repairs : ℕ
  uncertainAttempts : ℕ
  deriving DecidableEq, Repr

/-- `_counts`. -/
def counts (budget : TaskBudget) : Counts :=
  ⟨budget.maxProviderAttempts, budget.maxRepairs,
    budget.unknownTelemetryPolicy.maxUncertainAttempts⟩

/-- `replace(budget, ...)` with other counts. -/
def withCounts (budget : TaskBudget) (c : Counts) : TaskBudget :=
  { budget with
    maxRepairs := c.repairs
    maxProviderAttempts := c.providerAttempts
    unknownTelemetryPolicy :=
      { budget.unknownTelemetryPolicy with maxUncertainAttempts := c.uncertainAttempts } }

def Counts.max (c c' : Counts) : Counts :=
  ⟨Max.max c.providerAttempts c'.providerAttempts, Max.max c.repairs c'.repairs,
    Max.max c.uncertainAttempts c'.uncertainAttempts⟩

/-- No count is more than one above. -/
def Counts.atMostOneMore (c c' : Counts) : Bool :=
  c'.providerAttempts ≤ c.providerAttempts + 1 && c'.repairs ≤ c.repairs + 1 &&
    c'.uncertainAttempts ≤ c.uncertainAttempts + 1

/-- One second, one repair and the provider attempt it takes. -/
def slotUnits : UsageAmounts := Pi.single .durationMs ((1000 : ℕ) : WithTop ℕ) + repairUnits

/-- One slot above what is charged. -/
def neededCounts (budget : TaskBudget) (usage : SubscriptionUsage) : Counts :=
  let used := usage.consumed + usage.outstanding
  ⟨(used .providerAttempts).untopD 0 + 1, (used .repairs).untopD 0 + 1,
    if usage.uncertainAttempts ≠ 0 then usage.uncertainAttempts + 1
    else (counts budget).uncertainAttempts⟩

def raisedCounts (budget : TaskBudget) (usage : SubscriptionUsage) : Counts :=
  (counts budget).max (neededCounts budget usage)

/-- One turn of the loop over the scopes. -/
def proposeScope (budget : TaskBudget) (usage : SubscriptionUsage) : Option TaskBudget :=
  let used := usage.consumed + usage.outstanding
  let after := raisedCounts budget usage
  if usage.policyViolations ≠ [] then none
  else if used .repairs = ⊤ ∨ used .providerAttempts = ⊤ then none
  else if (counts budget).atMostOneMore after = false then none
  else if fitsWithin (used + slotUnits) (withCounts budget after) = true then
    some (withCounts budget after)
  else none

/-- The scopes repair admission checks. -/
def Ledger.scopesOf (L : Ledger) (runId taskId : UUID) : Except String (List BudgetScope) := do
  let (contract, primary, _) ← L.controls.taskContracts runId taskId
  L.controls.budgetScopes runId taskId contract primary

structure ScopeEvidence where
  name : String
  before : TaskBudget
  after : TaskBudget
  usage : SubscriptionUsage

/-- `RetryAllowance`: the revised contract's budget and repairs, the pools' budgets, and the limit
of the schedule. The lines shown to the owner are rendered from the evidence. -/
structure RetryAllowance where
  budget : TaskBudget
  contractRepairs : ℕ
  pools : List ((UUID × Option UUID) × TaskBudget)
  maxRepairs : ℕ
  evidence : List ScopeEvidence

/-- `proposals[name]`. -/
def proposalFor (proposals : List (BudgetScope × TaskBudget)) (name : String) :
    Except String TaskBudget :=
  orRaise ((proposals.find? fun p => p.1.name == name).map Prod.snd) name

/-- The budgets of the pools that exist. -/
def poolPayloads (c : Controls) (runId taskId : UUID)
    (proposals : List (BudgetScope × TaskBudget)) :
    Except String (List ((UUID × Option UUID) × TaskBudget)) := do
  let run ← if (c.pools.get (runId, none)).isNone then .ok []
    else do
      let budget ← proposalFor proposals "run"
      .ok [((runId, none), budget)]
  let taskPool ← if (c.pools.get (runId, some taskId)).isNone then .ok []
    else do
      let budget ← proposalFor proposals "task_pool"
      .ok [((runId, some taskId), budget)]
  .ok (run ++ taskPool)

/-- The scopes with their proposals, when every scope has one. -/
def proposals (L : Ledger) (runId : UUID) (scopes : List BudgetScope) :
    Option (List (BudgetScope × TaskBudget)) :=
  scopes.mapM fun s => (proposeScope s.budget (L.usage runId s.taskId)).map fun b => (s, b)

/-- `propose`. -/
def RetryState.propose (S : RetryState) (runId taskId : UUID) :
    Except String (Option RetryAllowance) :=
  match (S.ledger.controls.tasks.get taskId).bind (·.contract) with
  | none => .ok none
  | some contract => do
    let terms := S.terms taskId
    let scheduled := S.scheduled taskId
    if terms.parentTaskId ≠ none ∨ scheduled.maxRepairs ≠ terms.maxRepairs then return none
    else do
      let scopes ← S.ledger.scopesOf runId taskId
      match proposals S.ledger runId scopes with
      | none => return none
      | some proposals => do
        let limit := Max.max scheduled.maxRepairs (scheduled.repairs + 1)
        if scheduled.maxRepairs + 1 < limit then return none
        else do
          let task ← proposalFor proposals "task"
          let run ← proposalFor proposals "run"
          let shared := (S.ledger.controls.pools.get (runId, none)).isNone
          let updated := if shared then withCounts task ((counts task).max (counts run)) else task
          let final := proposals.map fun p =>
            (p.1, if shared ∧ (p.1.name = "task" ∨ p.1.name = "run") then updated else p.2)
          let pools ← poolPayloads S.ledger.controls runId taskId final
          let allowance : RetryAllowance :=
            { budget := updated
              contractRepairs := Max.max terms.maxRepairs limit
              pools := pools
              maxRepairs := limit
              evidence := final.map fun p =>
                ⟨p.1.name, p.1.budget, p.2, S.ledger.usage runId p.1.taskId⟩ }
          if updated = contract.budget ∧ Max.max terms.maxRepairs limit = terms.maxRepairs ∧
              (pools.all fun q => S.ledger.controls.pools.get q.1 == some (some q.2)) = true ∧
              limit = scheduled.maxRepairs then return none
          else return some allowance

/-- The pools with the granted budgets. -/
def writePools (pools : Table (UUID × Option UUID) (Option TaskBudget))
    (granted : List ((UUID × Option UUID) × TaskBudget)) :
    Table (UUID × Option UUID) (Option TaskBudget) :=
  granted.foldl (fun pools q => pools.modify q.1 fun _ => some q.2) pools

/-- What `apply` writes to the rows of the ledger. -/
def Controls.grant (c : Controls) (taskId : UUID) (p : RetryAllowance) : Controls :=
  { c with
    tasks := c.tasks.modify taskId fun row =>
      { row with contract := row.contract.map fun contract =>
          { contract with budget := p.budget } }
    pools := writePools c.pools p.pools }

/-- `apply`. -/
def RetryState.apply (S : RetryState) (taskId : UUID) (p : RetryAllowance) : RetryState where
  ledger := { S.ledger with controls := S.ledger.controls.grant taskId p }
  terms := Function.update S.terms taskId
    { S.terms taskId with maxRepairs := p.contractRepairs }
  scheduled := Function.update S.scheduled taskId
    { S.scheduled taskId with maxRepairs := p.maxRepairs }
  roots_primary := by
    intro id row contract hrow hcontract
    have hterms : (Function.update S.terms taskId
        { S.terms taskId with maxRepairs := p.contractRepairs } id).parentTaskId =
          (S.terms id).parentTaskId := by
      by_cases hid : id = taskId
      · rw [hid, Function.update_self]
      · rw [Function.update_of_ne hid]
    rw [hterms]
    simp only [Controls.grant, Table.get_modify] at hrow
    by_cases hid : id = taskId
    · rw [if_pos hid, Option.map_eq_some_iff] at hrow
      obtain ⟨row₀, hrow₀, rfl⟩ := hrow
      obtain ⟨contract₀, hcontract₀, rfl⟩ := Option.map_eq_some_iff.mp hcontract
      exact S.roots_primary id row₀ contract₀ hrow₀ hcontract₀
    · rw [if_neg hid] at hrow
      exact S.roots_primary id row contract hrow hcontract

/-! ### Counts -/

/-- The counts may rise by one, and nothing else changes. -/
structure OneSlot (before after : TaskBudget) : Prop where
  others : after = withCounts before (counts after)
  providerAttempts : before.maxProviderAttempts ≤ after.maxProviderAttempts ∧
    after.maxProviderAttempts ≤ before.maxProviderAttempts + 1
  repairs : before.maxRepairs ≤ after.maxRepairs ∧ after.maxRepairs ≤ before.maxRepairs + 1
  uncertainAttempts : before.unknownTelemetryPolicy.maxUncertainAttempts ≤
      after.unknownTelemetryPolicy.maxUncertainAttempts ∧
    after.unknownTelemetryPolicy.maxUncertainAttempts ≤
      before.unknownTelemetryPolicy.maxUncertainAttempts + 1

/-- A repair is admitted on top of a usage. -/
def AdmitsRepair (usage : SubscriptionUsage) (budget : TaskBudget) : Prop :=
  scopeClosed usage budget = false ∧
    fitsWithin (usage.consumed + usage.outstanding + repairUnits) budget = true

theorem budgetCeiling_withCounts_le (b : TaskBudget) (c c' : Counts)
    (hattempts : c.providerAttempts ≤ c'.providerAttempts) (hrepairs : c.repairs ≤ c'.repairs) :
    budgetCeiling (withCounts b c) ≤ budgetCeiling (withCounts b c') := by
  intro d
  cases d with
  | providerAttempts => exact WithTop.coe_le_coe.mpr hattempts
  | repairs => exact WithTop.coe_le_coe.mpr hrepairs
  | _ => exact le_rfl

/- The uncertain attempts leave room for one more. -/
theorem scopeClosed_eq_false (usage : SubscriptionUsage) (budget : TaskBudget) :
    scopeClosed usage budget = false ↔ usage.policyViolations = [] ∧
      (usage.uncertainAttempts = 0 ∨
        usage.uncertainAttempts < budget.unknownTelemetryPolicy.maxUncertainAttempts) := by
  simp only [scopeClosed, bne, Bool.or_eq_false_iff, Bool.not_eq_false', beq_iff_eq,
    Bool.and_eq_false_iff, decide_eq_false_iff_not, not_le, ge_iff_le]

/- Higher counts admit what lower ones do. -/
theorem admitsRepair_mono (usage : SubscriptionUsage) (b : TaskBudget) (c c' : Counts)
    (hattempts : c.providerAttempts ≤ c'.providerAttempts) (hrepairs : c.repairs ≤ c'.repairs)
    (huncertain : c.uncertainAttempts ≤ c'.uncertainAttempts)
    (h : AdmitsRepair usage (withCounts b c)) : AdmitsRepair usage (withCounts b c') := by
  obtain ⟨hopen, hfits⟩ := h
  have hle := budgetCeiling_withCounts_le b c c' hattempts hrepairs
  rw [scopeClosed_eq_false] at hopen
  rw [fitsWithin_iff] at hfits
  refine ⟨(scopeClosed_eq_false _ _).mpr ⟨hopen.1, ?_⟩, (fitsWithin_iff _ _).mpr (hfits.trans hle)⟩
  exact hopen.2.imp_right fun hless => hless.trans_le huncertain

theorem repairUnits_le_slotUnits : repairUnits ≤ slotUnits := by
  unfold slotUnits
  exact le_add_self

/- What a scope is proposed is one slot more, and enough for a repair. -/
theorem proposeScope_spec (budget after : TaskBudget) (usage : SubscriptionUsage)
    (h : proposeScope budget usage = some after) :
    OneSlot budget after ∧ AdmitsRepair usage after := by
  unfold proposeScope at h
  simp only at h
  split at h
  · cases h
  · rename_i hviolations
    split at h
    · cases h
    · split at h
      · cases h
      · rename_i hone
        split at h
        · rename_i hfits
          cases h
          simp only [Counts.atMostOneMore, Bool.not_eq_false, Bool.and_eq_true,
            decide_eq_true_eq] at hone
          have hnone : usage.policyViolations = [] := not_not.mp hviolations
          have huncertain : usage.uncertainAttempts = 0 ∨
              usage.uncertainAttempts < (raisedCounts budget usage).uncertainAttempts := by
            by_cases hzero : usage.uncertainAttempts = 0
            · exact .inl hzero
            · refine .inr (lt_of_lt_of_le ?_ (le_max_right _ _))
              simp [neededCounts, hzero]
          rw [fitsWithin_iff] at hfits
          refine ⟨⟨rfl, ⟨le_max_left _ _, hone.1.1⟩, ⟨le_max_left _ _, hone.1.2⟩,
            ⟨le_max_left _ _, hone.2⟩⟩, (scopeClosed_eq_false _ _).mpr ⟨hnone, huncertain⟩, ?_⟩
          rw [fitsWithin_iff]
          exact le_trans (add_le_add_right repairUnits_le_slotUnits _) hfits
        · cases h

/- Two proposals from the same budget: the larger counts are one slot more too. -/
theorem oneSlot_max (b b₁ b₂ : TaskBudget) (h₁ : OneSlot b b₁) (h₂ : OneSlot b b₂) :
    OneSlot b (withCounts b₁ ((counts b₁).max (counts b₂))) := by
  have hothers : withCounts b₁ ((counts b₁).max (counts b₂)) =
      withCounts b ((counts b₁).max (counts b₂)) := by
    conv_lhs => rw [h₁.others]
    rfl
  have h₁p := h₁.providerAttempts
  have h₁r := h₁.repairs
  have h₁u := h₁.uncertainAttempts
  have h₂p := h₂.providerAttempts
  have h₂r := h₂.repairs
  have h₂u := h₂.uncertainAttempts
  rw [hothers]
  refine ⟨rfl, ⟨?_, ?_⟩, ⟨?_, ?_⟩, ⟨?_, ?_⟩⟩ <;> simp only [withCounts, Counts.max, counts] <;> omega

theorem admitsRepair_max (usage : SubscriptionUsage) (b b₁ b₂ : TaskBudget) (h₁ : OneSlot b b₁)
    (h₂ : OneSlot b b₂) (h : AdmitsRepair usage b₁ ∨ AdmitsRepair usage b₂) :
    AdmitsRepair usage (withCounts b₁ ((counts b₁).max (counts b₂))) := by
  have hothers : withCounts b₁ ((counts b₁).max (counts b₂)) =
      withCounts b ((counts b₁).max (counts b₂)) := by
    conv_lhs => rw [h₁.others]
    rfl
  rw [hothers]
  rcases h with h | h
  · rw [h₁.others] at h
    exact admitsRepair_mono usage b _ _ (le_max_left _ _) (le_max_left _ _) (le_max_left _ _) h
  · rw [h₂.others] at h
    exact admitsRepair_mono usage b _ _ (le_max_right _ _) (le_max_right _ _) (le_max_right _ _) h

/-! ### Scopes -/

def scopeList (taskId : UUID) (task : TaskBudget) (taskPool : Option TaskBudget)
    (run : TaskBudget) : List BudgetScope :=
  ⟨some taskId, "task", task⟩ :: (taskPool.map (taskPoolScope taskId)).toList ++
    [⟨none, "run", run⟩]

theorem budgetScopes_iff (c : Controls) (runId taskId : UUID) (contract primary : TaskContract)
    (scopes : List BudgetScope) :
    c.budgetScopes runId taskId contract primary = .ok scopes ↔ ∃ runPool taskPool : Option TaskBudget,
      c.pools.get (runId, none) = runPool.map some ∧
      c.pools.get (runId, some taskId) = taskPool.map some ∧
      scopes = scopeList taskId contract.budget taskPool (runPool.getD primary.budget) := by
  unfold Controls.budgetScopes
  cases hrun : c.pools.get (runId, none) with
  | none =>
    cases htask : c.pools.get (runId, some taskId) with
    | none => simp [scopeList, bind, Except.bind, eq_comm]
    | some pool =>
      cases pool with
      | none => simp [decode, orRaise, Except.map, bind, Except.bind]
      | some b => simp [decode, orRaise, Except.map, bind, Except.bind, scopeList, eq_comm]
  | some run =>
    cases run with
    | none => simp [decode, orRaise, bind, Except.bind]
    | some r =>
      cases htask : c.pools.get (runId, some taskId) with
      | none => simp [decode, orRaise, bind, Except.bind, scopeList, eq_comm]
      | some pool =>
        cases pool with
        | none => simp [decode, orRaise, Except.map, bind, Except.bind]
        | some b => simp [decode, orRaise, Except.map, bind, Except.bind, scopeList, eq_comm]

/- The proposals of a scope list. -/
theorem proposals_eq_some (L : Ledger) (runId taskId : UUID) (task run : TaskBudget)
    (taskPool : Option TaskBudget) (props : List (BudgetScope × TaskBudget))
    (h : proposals L runId (scopeList taskId task taskPool run) = some props) :
    ∃ (task' run' : TaskBudget) (taskPool' : Option TaskBudget),
      proposeScope task (L.usage runId (some taskId)) = some task' ∧
      proposeScope run (L.usage runId none) = some run' ∧
      Option.Rel (fun b b' => proposeScope b (L.usage runId (some taskId)) = some b')
        taskPool taskPool' ∧
      props = (scopeList taskId task taskPool run).zip (task' :: taskPool'.toList ++ [run']) := by
  unfold proposals scopeList at h
  cases taskPool with
  | none =>
    simp only [Option.map_none, Option.toList_none, List.nil_append, List.cons_append, List.mapM_cons,
      List.mapM_nil, Option.bind_eq_bind, Option.pure_def, Option.bind_eq_some_iff,
      Option.map_eq_some_iff, Option.some.injEq] at h
    obtain ⟨_, ⟨task', htask, rfl⟩, _, ⟨_, ⟨run', hrun, rfl⟩, _, rfl, rfl⟩, rfl⟩ := h
    exact ⟨task', run', none, htask, hrun, .none, rfl⟩
  | some b =>
    simp only [Option.map_some, Option.toList_some, List.cons_append, List.nil_append, List.mapM_cons,
      List.mapM_nil, Option.bind_eq_bind, Option.pure_def, Option.bind_eq_some_iff,
      Option.map_eq_some_iff, Option.some.injEq] at h
    obtain ⟨_, ⟨task', htask, rfl⟩, _, ⟨_, ⟨b', hb, rfl⟩, _, ⟨_, ⟨run', hrun, rfl⟩, _, rfl, rfl⟩,
      rfl⟩, rfl⟩ := h
    exact ⟨task', run', some b', htask, hrun, .some hb, rfl⟩

/-- The task's new ceiling: merged with the run's when the run has no pool of its own. -/
def updatedTask (shared : Bool) (task run : TaskBudget) : TaskBudget :=
  if shared then withCounts task ((counts task).max (counts run)) else task

/-- What a proposal is made of. -/
structure Proposed (S : RetryState) (runId taskId : UUID) (p : RetryAllowance)
    (contract primary : TaskContract) (row : TaskRow) (runPool taskPool : Option TaskBudget)
    (task run : TaskBudget) (taskPool' : Option TaskBudget) : Prop where
  task_row : S.ledger.controls.tasks.get taskId = some row
  task_contract : row.contract = some contract
  root : (S.terms taskId).parentTaskId = none
  contracts : S.ledger.controls.taskContracts runId taskId = .ok (contract, primary, row)
  run_pool : S.ledger.controls.pools.get (runId, none) = runPool.map some
  task_pool : S.ledger.controls.pools.get (runId, some taskId) = taskPool.map some
  task_proposal : proposeScope contract.budget (S.ledger.usage runId (some taskId)) = some task
  run_proposal : proposeScope (runPool.getD primary.budget) (S.ledger.usage runId none) = some run
  pool_proposal : Option.Rel
    (fun b b' => proposeScope b (S.ledger.usage runId (some taskId)) = some b') taskPool taskPool'
  budget : p.budget = updatedTask runPool.isNone task run
  pools : p.pools = (runPool.map fun _ => ((runId, none), run)).toList ++
    (taskPool'.map fun b => ((runId, some taskId), b)).toList
  limit : p.maxRepairs = Max.max (S.scheduled taskId).maxRepairs ((S.scheduled taskId).repairs + 1)
  limit_le : p.maxRepairs ≤ (S.scheduled taskId).maxRepairs + 1

theorem allowance_of_ok (c : Prop) [Decidable c] (a p : RetryAllowance)
    (h : (if c then .ok none else .ok (some a) : Except String (Option RetryAllowance)) =
      .ok (some p)) : a = p := by
  split at h
  · cases h
  · exact Option.some.inj (Except.ok.inj h)

theorem propose_eq_ok (S : RetryState) (runId taskId : UUID) (p : RetryAllowance)
    (h : S.propose runId taskId = .ok (some p)) :
    ∃ contract primary row runPool taskPool task run taskPool',
      Proposed S runId taskId p contract primary row runPool taskPool task run taskPool' := by
  unfold RetryState.propose at h
  split at h
  · cases h
  · rename_i contract hcontract
    simp only at h
    split at h
    · cases h
    · rename_i hterms
      simp only [not_or, not_not] at hterms
      rw [bind_eq_ok] at h
      obtain ⟨scopes, hscopes, h⟩ := h
      unfold Ledger.scopesOf at hscopes
      rw [bind_eq_ok] at hscopes
      obtain ⟨⟨contract', primary, row⟩, hcontracts, hscopes⟩ := hscopes
      obtain ⟨_, hrow, _, hrowContract, _⟩ := taskContracts_eq_ok.mp hcontracts
      have hsame : contract' = contract := by
        rw [hrow, Option.bind_some, hrowContract] at hcontract
        exact Option.some.inj hcontract
      subst hsame
      obtain ⟨runPool, taskPool, hrunPool, htaskPool, rfl⟩ := (budgetScopes_iff _ _ _ _ _ _).mp hscopes
      split at h
      · cases h
      · rename_i props hprops
        obtain ⟨task, run, taskPool', htask, hrun, hpool, rfl⟩ :=
          proposals_eq_some _ _ _ _ _ _ _ hprops
        split at h
        · cases h
        · rename_i hlimit
          have hle := not_lt.mp hlimit
          refine ⟨contract', primary, row, runPool, taskPool, task, run, taskPool', ?_⟩
          -- with the pools known, the names are looked up in a given list
          have hfound : p.budget = updatedTask runPool.isNone task run ∧
              p.pools = (runPool.map fun _ => ((runId, none), run)).toList ++
                (taskPool'.map fun b => ((runId, some taskId), b)).toList ∧
              p.maxRepairs =
                Max.max (S.scheduled taskId).maxRepairs ((S.scheduled taskId).repairs + 1) := by
            cases hpool <;> cases runPool <;>
              simp only [scopeList, proposalFor, poolPayloads, hrunPool, htaskPool, bind,
                Except.bind, orRaise, pure, Except.pure] at h <;>
              rw [← allowance_of_ok _ _ _ h] <;>
              exact ⟨rfl, rfl, rfl⟩
          obtain ⟨hbudget, hpools, hmax⟩ := hfound
          exact ⟨hrow, hrowContract, hterms.1, hcontracts, hrunPool, htaskPool, htask, hrun, hpool,
            hbudget, hpools, hmax, hmax.trans_le hle⟩

/-! ### After the grant -/

/- The only root of a run whose budgets decode is its primary. -/
theorem only_root (S : RetryState) (runId taskId : UUID) (contract primary : TaskContract)
    (row : TaskRow)
    (h : S.ledger.controls.taskContracts runId taskId = .ok (contract, primary, row))
    (hroot : (S.terms taskId).parentTaskId = none) :
    primary = contract ∧ row.parentTaskId = none ∧ ∀ id t,
      S.ledger.controls.tasks.get id = some t → (t.runId == runId && t.parentTaskId.isNone) = true →
        id = taskId := by
  obtain ⟨_, hrow, hrunId, hcontract, ⟨roots, hroots, honly⟩, _⟩ :=
    taskContracts_eq_ok.mp h
  obtain ⟨hparent, _⟩ := S.roots_primary taskId row contract hrow hcontract
  have hnone : row.parentTaskId = none := hparent.trans hroot
  unfold Controls.roots at hroots
  have hprimary : ∀ value ∈ roots, value.purpose = .primary := by
    intro value hvalue
    obtain ⟨r, hr, hdecoded⟩ := mem_of_mapM_eq_ok _ _ _ hroots value hvalue
    obtain ⟨hget, hselected⟩ := (Table.mem_select_iff _ _ r.1 r.2).mp hr
    rw [Bool.and_eq_true, Option.isNone_iff_eq_none] at hselected
    have hvalue := (orRaise_eq_ok _ _ _).mp hdecoded
    obtain ⟨hparent', hpurpose⟩ := S.roots_primary r.1 r.2 value hget hvalue
    exact hpurpose (hparent'.symm.trans hselected.2)
  have hall : (roots.filter fun value => value.purpose == .primary) = roots :=
    List.filter_eq_self.mpr fun value hvalue => by rw [hprimary value hvalue]; rfl
  rw [hall] at honly
  rw [mapM_eq_ok, honly] at hroots
  obtain ⟨r, hselect, hdecoded⟩ : ∃ r, (S.ledger.controls.tasks.select fun _ t =>
      t.runId == runId && t.parentTaskId.isNone) = [r] ∧ decode r.2.contract = .ok primary := by
    cases hl : S.ledger.controls.tasks.select fun _ t => t.runId == runId && t.parentTaskId.isNone with
    | nil =>
      rw [hl] at hroots
      cases hroots
    | cons r rest =>
      rw [hl] at hroots
      cases hroots with
      | cons hr hrest =>
        cases hrest
        exact ⟨r, rfl, hr⟩
  have hmem : (taskId, row) ∈ S.ledger.controls.tasks.select fun _ t =>
      t.runId == runId && t.parentTaskId.isNone :=
    (Table.mem_select_iff _ _ _ _).mpr ⟨hrow, by simp [hrunId, hnone]⟩
  rw [hselect, List.mem_singleton] at hmem
  rw [← hmem] at hdecoded hselect
  have hprim := (orRaise_eq_ok _ _ _).mp hdecoded
  rw [hcontract] at hprim
  refine ⟨(Option.some.inj hprim).symm, hnone, fun id t hget hselected => ?_⟩
  have hin : (id, t) ∈ S.ledger.controls.tasks.select fun _ t =>
      t.runId == runId && t.parentTaskId.isNone :=
    (Table.mem_select_iff _ _ _ _).mpr ⟨hget, hselected⟩
  rw [hselect, List.mem_singleton] at hin
  exact congrArg Prod.fst hin

section granted
variable (S : RetryState) (runId taskId : UUID) (p : RetryAllowance) {contract primary : TaskContract}
  {row : TaskRow} {runPool taskPool : Option TaskBudget} {task run : TaskBudget}
  {taskPool' : Option TaskBudget}

theorem usage_apply (scope : Option UUID) :
    (S.apply taskId p).ledger.usage runId scope = S.ledger.usage runId scope := rfl

/- The contracts the accounting finds afterwards. -/
theorem taskContracts_apply
    (h : Proposed S runId taskId p contract primary row runPool taskPool task run taskPool') :
    (S.apply taskId p).ledger.controls.taskContracts runId taskId =
      .ok ({ contract with budget := p.budget }, { contract with budget := p.budget },
        { row with contract := some { contract with budget := p.budget } }) := by
  obtain ⟨⟨run₀, hrun⟩, hrow, hrunId, hcontract, _, hid, htid⟩ :=
    taskContracts_eq_ok.mp h.contracts
  obtain ⟨hprimary, hnone, hsingle⟩ := only_root S runId taskId contract primary row h.contracts h.root
  subst hprimary
  have hpurpose : primary.purpose = .primary :=
    (S.roots_primary taskId row primary hrow hcontract).2 h.root
  have htasks : (S.apply taskId p).ledger.controls.tasks.get taskId =
      some { row with contract := some { primary with budget := p.budget } } := by
    show (S.ledger.controls.tasks.modify taskId _).get taskId = _
    rw [Table.get_modify, if_pos rfl, hrow, Option.map_some, hcontract, Option.map_some]
  have hselect : (S.apply taskId p).ledger.controls.tasks.select (fun _ t =>
      t.runId == runId && t.parentTaskId.isNone) =
        [(taskId, { row with contract := some { primary with budget := p.budget } })] := by
    refine Table.select_eq_singleton _ _ _ _ htasks (by simp [hrunId, hnone]) ?_
    intro id t hget hselected
    by_contra hne
    have hget' : S.ledger.controls.tasks.get id = some t := by
      change (S.ledger.controls.tasks.modify taskId _).get id = some t at hget
      rwa [Table.get_modify, if_neg hne] at hget
    exact hne (hsingle id t hget' hselected)
  have hroots' : (S.apply taskId p).ledger.controls.roots runId =
      .ok [{ primary with budget := p.budget }] := by
    unfold Controls.roots
    rw [hselect]
    rfl
  have hrun' : (S.apply taskId p).ledger.controls.runs.get runId = some run₀ := hrun
  unfold Controls.taskContracts
  simp only [hrun', htasks, hrunId, hroots', hpurpose, hid, htid, orRaise, decode, require, bind,
    Except.bind, List.filter_cons, List.filter_nil, beq_self_eq_true, if_true, and_self]

/- The pools keep their places and have the proposed budgets. -/
theorem pools_apply
    (h : Proposed S runId taskId p contract primary row runPool taskPool task run taskPool') :
    (S.apply taskId p).ledger.controls.pools.get (runId, none) =
        (runPool.map fun _ => run).map some ∧
      (S.apply taskId p).ledger.controls.pools.get (runId, some taskId) = taskPool'.map some ∧
      ∀ key, key ≠ (runId, none) → key ≠ (runId, some taskId) →
        (S.apply taskId p).ledger.controls.pools.get key = S.ledger.controls.pools.get key := by
  have hrun := h.run_pool
  have htask := h.task_pool
  have hkeys : ((runId, none) : UUID × Option UUID) ≠ (runId, some taskId) := nofun
  have hpools : (S.apply taskId p).ledger.controls.pools =
      writePools S.ledger.controls.pools p.pools := rfl
  rw [hpools, h.pools]
  cases h.pool_proposal with
  | none =>
    cases runPool with
    | none => exact ⟨hrun, htask, fun _ _ _ => rfl⟩
    | some r =>
      refine ⟨?_, ?_, fun key hne _ => ?_⟩ <;> simp [writePools, Table.get_modify, *]
  | some hb =>
    cases runPool with
    | none =>
      refine ⟨?_, ?_, fun key _ hne => ?_⟩ <;> simp [writePools, Table.get_modify, *]
    | some r =>
      refine ⟨?_, ?_, fun key hne hne' => ?_⟩ <;> simp [writePools, Table.get_modify, *]

/- The scopes admission checks afterwards. -/
theorem scopesOf_apply
    (h : Proposed S runId taskId p contract primary row runPool taskPool task run taskPool') :
    (S.apply taskId p).ledger.scopesOf runId taskId =
      .ok (scopeList taskId p.budget taskPool' ((runPool.map fun _ => run).getD p.budget)) := by
  obtain ⟨hrun, htask, _⟩ := pools_apply S runId taskId p h
  have hscopes := (budgetScopes_iff (S.apply taskId p).ledger.controls runId taskId
    { contract with budget := p.budget } { contract with budget := p.budget } _).mpr
    ⟨runPool.map fun _ => run, taskPool', hrun, htask, rfl⟩
  unfold Ledger.scopesOf
  rw [taskContracts_apply S runId taskId p h]
  exact hscopes

end granted

/-- A scope before and after the grant: one slot more, and a repair admitted on the same usage. -/
structure Granted (L L' : Ledger) (runId : UUID) (s s' : BudgetScope) : Prop where
  scope : s'.taskId = s.taskId
  name : s'.name = s.name
  budget : OneSlot s.budget s'.budget
  usage : L'.usage runId s'.taskId = L.usage runId s.taskId
  admits : L'.admitsRepair runId s' = true

theorem granted_of_admits (S : RetryState) (runId taskId : UUID) (p : RetryAllowance)
    (scope : Option UUID) (name : String) (b b' : TaskBudget) (hslot : OneSlot b b')
    (hadmits : AdmitsRepair (S.ledger.usage runId scope) b') :
    Granted S.ledger (S.apply taskId p).ledger runId ⟨scope, name, b⟩ ⟨scope, name, b'⟩ where
  scope := rfl
  name := rfl
  budget := hslot
  usage := rfl
  admits := by
    unfold Ledger.admitsRepair
    rw [usage_apply, Bool.and_eq_true, Bool.not_eq_true']
    exact hadmits

/- The scopes of a proposal and the scopes after it. -/
theorem granted_scopes (S : RetryState) (runId taskId : UUID) (p : RetryAllowance)
    {contract primary : TaskContract} {row : TaskRow} {runPool taskPool : Option TaskBudget}
    {task run : TaskBudget} {taskPool' : Option TaskBudget}
    (h : Proposed S runId taskId p contract primary row runPool taskPool task run taskPool') :
    List.Forall₂ (Granted S.ledger (S.apply taskId p).ledger runId)
      (scopeList taskId contract.budget taskPool (runPool.getD primary.budget))
      (scopeList taskId p.budget taskPool' ((runPool.map fun _ => run).getD p.budget)) := by
  obtain ⟨htask, htaskAdmits⟩ := proposeScope_spec _ _ _ h.task_proposal
  obtain ⟨hrun, hrunAdmits⟩ := proposeScope_spec _ _ _ h.run_proposal
  have hprimary := (only_root S runId taskId contract primary row h.contracts h.root).1
  have hpool : List.Forall₂ (Granted S.ledger (S.apply taskId p).ledger runId)
      (taskPool.map (taskPoolScope taskId)).toList (taskPool'.map (taskPoolScope taskId)).toList := by
    cases h.pool_proposal with
    | none => exact .nil
    | some hb =>
      obtain ⟨hslot, hadmits⟩ := proposeScope_spec _ _ _ hb
      exact .cons (granted_of_admits S runId taskId p _ _ _ _ hslot hadmits) .nil
  have hends : Granted S.ledger (S.apply taskId p).ledger runId
        ⟨some taskId, "task", contract.budget⟩ ⟨some taskId, "task", p.budget⟩ ∧
      Granted S.ledger (S.apply taskId p).ledger runId
        ⟨none, "run", runPool.getD primary.budget⟩
        ⟨none, "run", (runPool.map fun _ => run).getD p.budget⟩ := by
    cases runPool with
    | some r =>
      have hbudget : p.budget = task := h.budget
      rw [hbudget]
      exact ⟨granted_of_admits S runId taskId p _ _ _ _ htask htaskAdmits,
        granted_of_admits S runId taskId p _ _ _ _ hrun hrunAdmits⟩
    | none =>
      -- the task and the run share one ceiling
      have hbudget : p.budget = withCounts task ((counts task).max (counts run)) := h.budget
      have hrun' : OneSlot contract.budget run := hprimary ▸ hrun
      rw [hbudget, hprimary]
      exact ⟨granted_of_admits S runId taskId p _ _ _ _ (oneSlot_max _ _ _ htask hrun')
          (admitsRepair_max _ _ _ _ htask hrun' (.inl htaskAdmits)),
        granted_of_admits S runId taskId p _ _ _ _ (oneSlot_max _ _ _ htask hrun')
          (admitsRepair_max _ _ _ _ htask hrun' (.inr hrunAdmits))⟩
  exact .cons hends.1 (List.rel_append hpool (.cons hends.2 .nil))

/- A settled attempt may be repaired when every scope admits it. -/
theorem canDebitRepair_of_scopes (L : Ledger) (runId taskId attemptId : UUID) (attempt : Attempt)
    (scopes : List BudgetScope) (hscopes : L.scopesOf runId taskId = .ok scopes)
    (hadmits : ∀ s ∈ scopes, L.admitsRepair runId s = true)
    (hattempt : L.controls.attempts.get attemptId = some attempt) (hrun : attempt.runId = runId)
    (htask : attempt.taskRowId = taskId) (hsettled : (L.consumptions.get attemptId).isSome = true) :
    L.canDebitRepair runId taskId attemptId = .ok true := by
  unfold Ledger.scopesOf at hscopes
  rw [bind_eq_ok] at hscopes
  obtain ⟨⟨contract, primary, row⟩, hcontracts, hscopes⟩ := hscopes
  have hcontracts' : L.controls.contracts runId taskId attemptId =
      .ok (contract, primary, row, attempt) := by
    unfold Controls.contracts
    simp only [hcontracts, hattempt, hrun, htask, orRaise, require, bind, Except.bind, and_self,
      if_true]
  unfold Ledger.canDebitRepair
  rw [bind_eq_ok]
  refine ⟨_, hcontracts', ?_⟩
  by_cases hdebited : (L.debits.get attemptId).isSome = true
  · simp only [if_pos hdebited]
  · simp only [if_neg hdebited, bind_eq_ok, require_eq_ok]
    have hall : scopes.all (L.admitsRepair runId) = true := List.all_eq_true.mpr hadmits
    exact ⟨(), hsettled, scopes, hscopes, congrArg Except.ok hall⟩

/-- A proposal that is applied is one slot: each count limit of each scope rises by at most one,
no other ceiling changes, and on the same usage every scope admits a repair, so that a settled
attempt of the task may be debited, within the schedule's new limit. -/
theorem retry_allowance_one_slot (S : RetryState) (runId taskId : UUID) (p : RetryAllowance)
    (h : S.propose runId taskId = .ok (some p)) :
    (∃ scopes scopes', S.ledger.scopesOf runId taskId = .ok scopes ∧
      (S.apply taskId p).ledger.scopesOf runId taskId = .ok scopes' ∧
      List.Forall₂ (Granted S.ledger (S.apply taskId p).ledger runId) scopes scopes') ∧
    (∀ attemptId attempt, S.ledger.controls.attempts.get attemptId = some attempt →
      attempt.runId = runId → attempt.taskRowId = taskId →
      (S.ledger.consumptions.get attemptId).isSome = true →
      (S.apply taskId p).ledger.canDebitRepair runId taskId attemptId = .ok true) ∧
    ((S.apply taskId p).scheduled taskId).repairs < ((S.apply taskId p).scheduled taskId).maxRepairs ∧
    ((S.apply taskId p).scheduled taskId).repairs = (S.scheduled taskId).repairs ∧
    (S.scheduled taskId).maxRepairs ≤ ((S.apply taskId p).scheduled taskId).maxRepairs ∧
    ((S.apply taskId p).scheduled taskId).maxRepairs ≤ (S.scheduled taskId).maxRepairs + 1 ∧
    (∀ id, id ≠ taskId →
      (S.apply taskId p).ledger.controls.tasks.get id = S.ledger.controls.tasks.get id) ∧
    ∀ key, key ≠ (runId, none) → key ≠ (runId, some taskId) →
      (S.apply taskId p).ledger.controls.pools.get key = S.ledger.controls.pools.get key := by
  obtain ⟨contract, primary, row, runPool, taskPool, task, run, taskPool', hp⟩ :=
    propose_eq_ok S runId taskId p h
  have hbefore : S.ledger.scopesOf runId taskId =
      .ok (scopeList taskId contract.budget taskPool (runPool.getD primary.budget)) := by
    unfold Ledger.scopesOf
    rw [hp.contracts]
    exact (budgetScopes_iff _ _ _ _ _ _).mpr ⟨runPool, taskPool, hp.run_pool, hp.task_pool, rfl⟩
  have hafter := scopesOf_apply S runId taskId p hp
  have hgranted := granted_scopes S runId taskId p hp
  have hadmits : ∀ s ∈ scopeList taskId p.budget taskPool' ((runPool.map fun _ => run).getD p.budget),
      (S.apply taskId p).ledger.admitsRepair runId s = true := by
    intro s hs
    obtain ⟨s₀, _, hs₀⟩ := forall₂_exists hgranted s hs
    exact hs₀.admits
  have hscheduled : (S.apply taskId p).scheduled taskId =
      { S.scheduled taskId with maxRepairs := p.maxRepairs } := Function.update_self ..
  have hlimit := hp.limit
  have hle := hp.limit_le
  refine ⟨⟨_, _, hbefore, hafter, hgranted⟩, ?_, ?_, ?_, ?_, ?_, ?_, (pools_apply S runId taskId p hp).2.2⟩
  · intro attemptId attempt hattempt hrun htask hsettled
    exact canDebitRepair_of_scopes _ runId taskId attemptId attempt _ hafter hadmits hattempt hrun
      htask hsettled
  · rw [hscheduled]
    simp only
    omega
  · rw [hscheduled]
  · rw [hscheduled]
    simp only
    omega
  · rw [hscheduled]
    exact hle
  · intro id hid
    show (S.ledger.controls.tasks.modify taskId _).get id = _
    rw [Table.get_modify, if_neg hid]

/-- A primary whose only provider attempt failed, and that has no attempt left. -/
def exhausted : RetryState where
  ledger :=
    { controls := { sampleControls with
        tasks := Table.empty.put 10
          ⟨1, none, .blocked, false, false, some ⟨1, 10, .primary, { maxProviderAttempts := 1 }⟩⟩ }
      reservations := Table.empty.put 100 ⟨1, 10, "attempt:100", sampleCeiling, sampleCeiling_units⟩
      consumptions := Table.empty.put 100
        ⟨some sampleTelemetry, chargeOf sampleCeiling (some sampleTelemetry) false, [], false⟩
      debits := Table.empty }
  terms := fun _ => ⟨none, 3⟩
  scheduled := fun _ => ⟨3, 0⟩
  roots_primary := by
    intro id row contract hrow hcontract
    rw [Table.get_put] at hrow
    split at hrow
    · cases hrow
      cases hcontract
      exact ⟨rfl, fun _ => rfl⟩
    · cases hrow

theorem retry_allowance_one_slot_exhausted :
    exhausted.ledger.canDebitRepair 1 10 100 = .ok false ∧
      ∃ p, exhausted.propose 1 10 = .ok (some p) ∧ p.budget.maxProviderAttempts = 2 ∧
        (exhausted.apply 10 p).ledger.canDebitRepair 1 10 100 = .ok true := by
  refine ⟨rfl, _, rfl, rfl, ?_⟩
  exact (retry_allowance_one_slot exhausted 1 10 _ rfl).2.1 100 _ rfl rfl rfl rfl

end ParallelForge.Budget
