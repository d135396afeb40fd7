import ParallelForge.Budget.Usage
import Mathlib.Algebra.Order.Sub.Basic
import Mathlib.Algebra.Order.Sub.WithTop
import Mathlib.Data.Nat.Cast.Order.Basic
import Mathlib.Order.Lattice.Nat

/-!
# Fitting a reservation (`subscription_budget.py:110-198`)

`fit_reservation` bounds one attempt by what the frozen budgets have left.
Below a scope that is not overdrawn, what remains is the adjoint of what is
used: an amount is below the tightened proposal exactly when it is below the
proposal and still fits on top of the usage. So the loop over the scopes ends
at the largest reservation that `reserve_attempt` admits.
-/

namespace ParallelForge.Budget
open Base Scheduling

/-- `limit` is set and `used` is unknown or above it. -/
def exceedsLimit (used limit : WithTop ℕ) : Bool := limit ≠ ⊤ && (used = ⊤ || limit < used)

/-- What one scope leaves of a proposed amount. -/
def tighten (prior used limit : WithTop ℕ) : WithTop ℕ :=
  if limit = ⊤ then prior else min prior (limit - used)

theorem le_tighten_iff (x prior used limit : WithTop ℕ) (h : exceedsLimit used limit = false) :
    x ≤ tighten prior used limit ↔ x ≤ prior ∧ used + x ≤ limit := by
  unfold tighten
  split
  · next htop => simp [htop]
  · next hlimit =>
    have hwithin : used ≠ ⊤ ∧ used ≤ limit := by
      simpa [exceedsLimit, hlimit] using h
    have hcancel : AddLECancellable used := WithTop.addLECancellable_of_ne_top hwithin.1
    rw [le_min_iff, hcancel.le_tsub_iff_left hwithin.2]

theorem not_add_le_of_exceedsLimit (x used limit : WithTop ℕ) (h : exceedsLimit used limit = true) :
    ¬ used + x ≤ limit := by
  intro hle
  simp only [exceedsLimit, ne_eq, decide_not, Bool.and_eq_true, Bool.not_eq_true',
    decide_eq_false_iff_not, Bool.or_eq_true, decide_eq_true_eq] at h
  have hused : used ≤ limit := le_trans le_self_add hle
  rcases h.2 with htop | hlt
  · rw [htop, top_le_iff] at hused
    exact h.1 hused
  · exact not_lt_of_ge hused hlt

structure Proposal where
  amounts : UsageAmounts
  policy : UnknownTelemetryPolicy

/-- The policy both allow. -/
def UnknownTelemetryPolicy.both (p q : UnknownTelemetryPolicy) : UnknownTelemetryPolicy where
  allowUnknownTokens := p.allowUnknownTokens && q.allowUnknownTokens
  allowUnknownCost := p.allowUnknownCost && q.allowUnknownCost
  allowUnknownQuota := p.allowUnknownQuota && q.allowUnknownQuota
  maxUncertainAttempts := min p.maxUncertainAttempts q.maxUncertainAttempts

/-- The task's own repair slot is about to be transferred and is not counted twice. -/
def withoutPending (used : UsageAmounts) (pending : ℕ) : Except String UsageAmounts := do
  require (used .providerAttempts ≠ ⊤ ∧ (pending : WithTop ℕ) ≤ used .providerAttempts)
    "pending repair accounting conflicts"
  .ok (Function.update used .providerAttempts (used .providerAttempts - pending))

/-- One turn of the loop over the scopes; `none` is the early return. -/
def fitScope (ceiling : TaskBudget) (pending : ℕ) (current : SubscriptionUsage)
    (budget : TaskBudget) (proposed : Proposal) : Except String (Option Proposal) :=
  if (ceiling.billingMode != budget.billingMode || scopeClosed current budget) = true then .ok none
  else do
    let used ← withoutPending (current.consumed + current.outstanding) pending
    if (dimensions.any fun d => exceedsLimit (used d) (budgetCeiling budget d)) = true then .ok none
    else .ok (some
      { amounts := fun d => tighten (proposed.amounts d) (used d) (budgetCeiling budget d)
        policy := proposed.policy.both budget.unknownTelemetryPolicy })

def Ledger.fitScopes (L : Ledger) (runId : UUID) (ceiling : TaskBudget) (pending : ℕ) :
    List BudgetScope → Proposal → Except String (Option Proposal)
  | [], proposed => .ok (some proposed)
  | scope :: scopes, proposed => do
    match ← fitScope ceiling pending (L.usage runId scope.taskId) scope.budget proposed with
    | none => .ok none
    | some tightened => L.fitScopes runId ceiling pending scopes tightened

/-- The budget of a proposal, if it holds one attempt of at least a second. -/
def Proposal.budget (ceiling : TaskBudget) (p : Proposal) : Option TaskBudget :=
  if p.amounts .durationMs = ⊤ ∨ p.amounts .durationMs < 1000 ∨ p.amounts .providerAttempts ≠ 1 then
    none
  else some
    { ceiling with
      maxDurationSeconds := (p.amounts .durationMs).untopD 0 / 1000
      maxToolCalls := (p.amounts .toolCalls).untopD 0
      maxNamedChecks := (p.amounts .namedChecks).untopD 0
      maxInputTokens := p.amounts .inputTokens
      maxOutputTokens := p.amounts .outputTokens
      maxCostMinor := p.amounts .costMinor
      unknownTelemetryPolicy := p.policy }

/-- `fit_reservation`. -/
def Ledger.fitReservation (L : Ledger) (runId taskId : UUID) (ceiling : TaskBudget) :
    Except String (Option TaskBudget) := do
  require (oneAttempt ceiling = true) "fit one attempt and no repair unit"
  let (contract, primary, _) ← L.controls.taskContracts runId taskId
  if L.controls.legacyOpen runId = true then .ok none
  else do
    let pending := (L.pendingRepairs runId taskId).length
    require (pending = 0 ∨ pending = 1) "ambiguous pending repair slot"
    let scopes ← L.controls.budgetScopes runId taskId contract primary
    let fitted ← L.fitScopes runId ceiling pending scopes
      ⟨budgetCeiling ceiling, ceiling.unknownTelemetryPolicy⟩
    .ok (fitted.bind (Proposal.budget ceiling))

section scopes
variable {L L' : Ledger} {runId taskId attemptId : UUID} {ceiling reservation : TaskBudget}
  {pending : ℕ}

theorem admits_iff (scope : BudgetScope) :
    L.admits runId reservation scope = true ↔
      reservation.billingMode = scope.budget.billingMode ∧
      scopeClosed (L.usage runId scope.taskId) scope.budget = false ∧
      L.used runId scope.taskId + budgetCeiling reservation ≤ budgetCeiling scope.budget := by
  unfold Ledger.admits
  simp only [Bool.and_eq_true, beq_iff_eq, Bool.not_eq_true', fitsWithin_iff, and_assoc]
  rfl

/-- The ledger after the transfer, seen from a scope before it: the usage without the pending
slot, closed or not as before. -/
def Freed (L L' : Ledger) (runId : UUID) (pending : ℕ) (scope : BudgetScope) : Prop :=
  withoutPending (L.used runId scope.taskId) pending = .ok (L'.used runId scope.taskId) ∧
    scopeClosed (L'.usage runId scope.taskId) scope.budget =
      scopeClosed (L.usage runId scope.taskId) scope.budget

/-- What a turn of the loop does, in terms of what the scope admits after the transfer. -/
theorem fitScope_spec (scope : BudgetScope) (proposed : Proposal)
    (h : Freed L L' runId pending scope) :
    (fitScope ceiling pending (L.usage runId scope.taskId) scope.budget proposed = .ok none ∧
      ∀ r : TaskBudget, r.billingMode = ceiling.billingMode → L'.admits runId r scope = false) ∨
    ∃ p, fitScope ceiling pending (L.usage runId scope.taskId) scope.budget proposed = .ok (some p) ∧
      (∀ x, x ≤ p.amounts ↔ x ≤ proposed.amounts ∧
        L'.used runId scope.taskId + x ≤ budgetCeiling scope.budget) ∧
      ∀ r : TaskBudget, r.billingMode = ceiling.billingMode →
        (L'.admits runId r scope = true ↔
          L'.used runId scope.taskId + budgetCeiling r ≤ budgetCeiling scope.budget) := by
  obtain ⟨hfree, hclosed⟩ := h
  have hused : withoutPending ((L.usage runId scope.taskId).consumed +
      (L.usage runId scope.taskId).outstanding) pending = .ok (L'.used runId scope.taskId) := hfree
  unfold fitScope
  split
  · -- another billing mode, or a closed scope
    next hstop =>
    refine Or.inl ⟨rfl, ?_⟩
    intro r hr
    rw [Bool.eq_false_iff]
    intro hadmits
    obtain ⟨hmode, hopen, -⟩ := (admits_iff scope).mp hadmits
    simp only [Bool.or_eq_true, bne_iff_ne, ne_eq] at hstop
    rcases hstop with hne | hcl
    · exact hne (hr.symm.trans hmode)
    · rw [hclosed, hcl] at hopen
      cases hopen
  · next hgo =>
    simp only [Bool.or_eq_true, bne_iff_ne, ne_eq, not_or, not_not, Bool.not_eq_true] at hgo
    rw [hused]
    simp only [bind, Except.bind]
    split
    · -- some dimension is overdrawn, so nothing fits on top of it
      next hany =>
      refine Or.inl ⟨rfl, ?_⟩
      intro r _
      rw [Bool.eq_false_iff]
      intro hadmits
      obtain ⟨-, -, hle⟩ := (admits_iff scope).mp hadmits
      obtain ⟨d, -, hd⟩ := List.any_eq_true.mp hany
      exact not_add_le_of_exceedsLimit _ _ _ hd (hle d)
    · next hnone =>
      have hwithin : ∀ d, exceedsLimit (L'.used runId scope.taskId d)
          (budgetCeiling scope.budget d) = false := by
        intro d
        rw [Bool.eq_false_iff]
        intro hd
        exact hnone (List.any_eq_true.mpr ⟨d, mem_dimensions d, hd⟩)
      refine Or.inr ⟨_, rfl, ?_, ?_⟩
      · intro x
        constructor
        · intro hx
          exact ⟨fun d => ((le_tighten_iff _ _ _ _ (hwithin d)).mp (hx d)).1,
            fun d => ((le_tighten_iff _ _ _ _ (hwithin d)).mp (hx d)).2⟩
        · intro hx d
          exact (le_tighten_iff _ _ _ _ (hwithin d)).mpr ⟨hx.1 d, hx.2 d⟩
      · intro r hr
        rw [admits_iff, hclosed]
        exact ⟨fun h => h.2.2, fun h => ⟨hr.trans hgo.1, hgo.2, h⟩⟩

/-- The loop returns early when some scope admits nothing, and otherwise ends at the largest
amounts that are not above the proposal and that every scope admits. -/
theorem fitScopes_spec (scopes : List BudgetScope) (proposed : Proposal)
    (h : ∀ s ∈ scopes, Freed L L' runId pending s) :
    (L.fitScopes runId ceiling pending scopes proposed = .ok none ∧
      ∀ r : TaskBudget, r.billingMode = ceiling.billingMode →
        scopes.all (L'.admits runId r) = false) ∨
    ∃ p, L.fitScopes runId ceiling pending scopes proposed = .ok (some p) ∧
      p.amounts ≤ proposed.amounts ∧
      ∀ r : TaskBudget, r.billingMode = ceiling.billingMode →
        budgetCeiling r ≤ proposed.amounts →
        (scopes.all (L'.admits runId r) = true ↔ budgetCeiling r ≤ p.amounts) := by
  induction scopes generalizing proposed with
  | nil => exact Or.inr ⟨proposed, rfl, le_rfl, fun r _ hle => by simp [hle]⟩
  | cons s scopes ih =>
    have hs := h s (List.mem_cons_self ..)
    have hrest := fun p => ih p fun t ht => h t (List.mem_cons_of_mem _ ht)
    unfold Ledger.fitScopes
    have hturn := @fitScope_spec L L' runId ceiling pending s proposed hs
    rcases hturn with ⟨hstop, hnone⟩ | ⟨p, hgo, hp, had⟩
    · refine Or.inl ⟨by rw [hstop]; rfl, ?_⟩
      intro r hr
      simp [hnone r hr]
    · have hle : p.amounts ≤ proposed.amounts := ((hp p.amounts).mp le_rfl).1
      rw [hgo]
      rcases hrest p with ⟨hstop, hnone⟩ | ⟨q, hq, hqp, hall⟩
      · refine Or.inl ⟨hstop, ?_⟩
        intro r hr
        simp [hnone r hr]
      · refine Or.inr ⟨q, hq, hqp.trans hle, ?_⟩
        intro r hr hbelow
        rw [List.all_cons, Bool.and_eq_true, had r hr]
        constructor
        · intro hx
          have hrp : budgetCeiling r ≤ p.amounts := (hp _).mpr ⟨hbelow, hx.1⟩
          exact (hall r hr hrp).mp hx.2
        · intro hrq
          have hrp : budgetCeiling r ≤ p.amounts := hrq.trans hqp
          exact ⟨((hp _).mp hrp).2, (hall r hr hrp).mpr hrq⟩

end scopes

theorem natCast_untopD (x : WithTop ℕ) (h : x ≠ ⊤) : ((x.untopD 0 : ℕ) : WithTop ℕ) = x := by
  obtain ⟨n, rfl⟩ := WithTop.ne_top_iff_exists.mp h
  rfl

section budget
variable {ceiling b r : TaskBudget} {p : Proposal}

/- A fitted budget is the proposal, with its duration in whole seconds. -/
theorem budget_eq_some (h : p.budget ceiling = some b) (hunits : oneAttempt ceiling = true)
    (hle : p.amounts ≤ budgetCeiling ceiling) :
    oneAttempt b = true ∧ b.billingMode = ceiling.billingMode ∧ 1 ≤ b.maxDurationSeconds ∧
      budgetCeiling b ≤ p.amounts ∧
      ∀ r, oneAttempt r = true → budgetCeiling r ≤ p.amounts → budgetCeiling r ≤ budgetCeiling b := by
  unfold Proposal.budget at h
  split at h
  · cases h
  · next hx =>
    simp only [not_or, not_not, not_lt] at hx
    obtain ⟨hknown, hsecond, hattempt⟩ := hx
    have htools : p.amounts .toolCalls ≠ ⊤ := ne_top_of_le_ne_top (WithTop.natCast_ne_top _) (hle .toolCalls)
    have hchecks : p.amounts .namedChecks ≠ ⊤ :=
      ne_top_of_le_ne_top (WithTop.natCast_ne_top _) (hle .namedChecks)
    obtain ⟨D, hD⟩ := WithTop.ne_top_iff_exists.mp hknown
    replace hD : p.amounts .durationMs = (D : WithTop ℕ) := hD.symm
    have hD1000 : 1000 ≤ D := by
      rw [hD] at hsecond
      exact_mod_cast hsecond
    have hsec : (p.amounts .durationMs).untopD 0 = D := by rw [hD]; rfl
    cases h
    refine ⟨hunits, rfl, ?_, ?_, ?_⟩
    · show 1 ≤ (p.amounts .durationMs).untopD 0 / 1000
      rw [hsec]
      omega
    · intro d
      cases d with
      | durationMs =>
        have hfloor : D / 1000 * 1000 ≤ D := Nat.div_mul_le_self D 1000
        simp only [budgetCeiling, hsec]
        rw [hD]
        exact_mod_cast hfloor
      | toolCalls => exact (natCast_untopD _ htools).le
      | namedChecks => exact (natCast_untopD _ hchecks).le
      | providerAttempts =>
        have hone := ((oneAttempt_iff ceiling).mp hunits).1
        simp [budgetCeiling, hone, hattempt]
      | repairs =>
        have hnone := ((oneAttempt_iff ceiling).mp hunits).2
        simp [budgetCeiling, hnone]
      | inputTokens => exact le_rfl
      | outputTokens => exact le_rfl
      | costMinor => exact le_rfl
    · intro r hr hrp d
      obtain ⟨hone, hnone⟩ := (oneAttempt_iff r).mp hr
      obtain ⟨hone', hnone'⟩ := (oneAttempt_iff ceiling).mp hunits
      cases d with
      | durationMs =>
        have hd := hrp .durationMs
        rw [hD] at hd
        simp only [budgetCeiling, hsec] at hd ⊢
        have hd' : r.maxDurationSeconds * 1000 ≤ D := by exact_mod_cast hd
        have hq : r.maxDurationSeconds * 1000 ≤ D / 1000 * 1000 := by omega
        exact_mod_cast hq
      | toolCalls => exact (hrp .toolCalls).trans (natCast_untopD _ htools).ge
      | namedChecks => exact (hrp .namedChecks).trans (natCast_untopD _ hchecks).ge
      | providerAttempts => simp [budgetCeiling, hone, hone']
      | repairs => simp [budgetCeiling, hnone]
      | inputTokens => exact hrp .inputTokens
      | outputTokens => exact hrp .outputTokens
      | costMinor => exact hrp .costMinor

theorem budget_eq_none (h : p.budget ceiling = none) (hunits : oneAttempt ceiling = true)
    (hle : p.amounts ≤ budgetCeiling ceiling) (hr : oneAttempt r = true)
    (hsecond : 1 ≤ r.maxDurationSeconds) : ¬ budgetCeiling r ≤ p.amounts := by
  intro hrp
  unfold Proposal.budget at h
  split at h
  · next hx =>
    rcases hx with htop | hshort | hattempt
    · have hd := hle .durationMs
      rw [htop, top_le_iff] at hd
      exact WithTop.natCast_ne_top _ hd
    · have hd : ((r.maxDurationSeconds * 1000 : ℕ) : WithTop ℕ) < 1000 :=
        lt_of_le_of_lt (hrp .durationMs) hshort
      have hd' : r.maxDurationSeconds * 1000 < 1000 := by exact_mod_cast hd
      omega
    · apply hattempt
      have hlo := hrp .providerAttempts
      have hhi := hle .providerAttempts
      simp only [budgetCeiling, ((oneAttempt_iff r).mp hr).1, Nat.cast_one] at hlo
      simp only [budgetCeiling, ((oneAttempt_iff ceiling).mp hunits).1, Nat.cast_one] at hhi
      exact le_antisymm hhi hlo
  · cases h

end budget

section agreement
variable (L : Ledger) (runId taskId attemptId : UUID) (idempotencyKey : String)

/-- The checks of `reserve_attempt` that are not about amounts: the key, the lineage, no
reservation yet, run and attempt open for admission, and a repair slot that this attempt may take. -/
def Ledger.Eligible : Prop :=
  (idempotencyKey ≠ "" ∧ idempotencyKey.length ≤ 255) ∧
  L.reservations.get attemptId = none ∧ L.duplicateKey runId idempotencyKey = false ∧
  ∃ contract primary task attempt,
    L.controls.contracts runId taskId attemptId = .ok (contract, primary, task, attempt) ∧
    L.eligible runId taskId task attempt = .ok () ∧
    (∃ L', L.transferRepair runId taskId attemptId attempt = .ok L') ∧
    ∃ scopes, L.controls.budgetScopes runId taskId contract primary = .ok scopes

/-- `reserve_attempt` succeeds. -/
def Ledger.Reserves (reservation : TaskBudget) : Prop :=
  ∃ L', L.reserveAttempt runId taskId attemptId reservation idempotencyKey = .ok L'

/-- A reservation not above the ceiling, in its billing mode and for at least a second. -/
def Within (ceiling r : TaskBudget) : Prop :=
  r.billingMode = ceiling.billingMode ∧ 1 ≤ r.maxDurationSeconds ∧
    budgetCeiling r ≤ budgetCeiling ceiling

variable {L runId taskId attemptId idempotencyKey}

/- For an eligible attempt only the units, the legacy accounting and the scopes are left. -/
theorem reserves_iff {L' : Ledger} {contract primary : TaskContract} {task : TaskRow}
    {attempt : Attempt} {scopes : List BudgetScope} (reservation : TaskBudget)
    (hkey : idempotencyKey ≠ "" ∧ idempotencyKey.length ≤ 255)
    (hnone : L.reservations.get attemptId = none)
    (hdup : L.duplicateKey runId idempotencyKey = false)
    (hcon : L.controls.contracts runId taskId attemptId = .ok (contract, primary, task, attempt))
    (hel : L.eligible runId taskId task attempt = .ok ())
    (htr : L.transferRepair runId taskId attemptId attempt = .ok L')
    (hsc : L.controls.budgetScopes runId taskId contract primary = .ok scopes) :
    L.Reserves runId taskId attemptId idempotencyKey reservation ↔
      oneAttempt reservation = true ∧ L.controls.legacyOpen runId = false ∧
        scopes.all (L'.admits runId reservation) = true := by
  have hsame := (Ledger.transferRepair_controls htr).1
  unfold Ledger.Reserves Ledger.reserveAttempt
  split
  · next hunits =>
    simp only [bind_eq_ok, require_eq_ok, hcon, hnone, hel, htr, hsame, hsc, hdup,
      Except.ok.injEq, exists_eq_left', exists_const, true_and, Bool.false_or]
    constructor
    · intro hx
      obtain ⟨_, _, hlegacy, hall, -⟩ := hx
      exact ⟨hunits, hlegacy, hall⟩
    · intro hx
      exact ⟨_, hkey, hx.2.1, hx.2.2, rfl⟩
  · next hunits => simp [hunits]

theorem budgetScopes_eq_ok {contract primary : TaskContract} {scopes : List BudgetScope}
    {c : Controls} (h : c.budgetScopes runId taskId contract primary = .ok scopes) :
    ∃ runBudget taskPool, ((c.pools.get (runId, none)).map decode).getD (.ok primary.budget)
        = .ok runBudget ∧
      scopes = ⟨some taskId, "task", contract.budget⟩ :: taskPool ++ [⟨none, "run", runBudget⟩] ∧
      ∀ s ∈ taskPool, s.taskId = some taskId := by
  unfold Controls.budgetScopes at h
  simp only [bind_eq_ok, Except.ok.injEq] at h
  obtain ⟨runBudget, hrun, taskPool, hpool, rfl⟩ := h
  refine ⟨runBudget, taskPool, hrun, rfl, ?_⟩
  intro s hs
  cases hp : c.pools.get (runId, some taskId) with
  | none =>
    simp only [hp, Option.map_none, Option.getD_none, Except.ok.injEq] at hpool
    simp [← hpool] at hs
  | some pool =>
    simp only [hp, Option.map_some, Option.getD_some, map_eq_ok] at hpool
    obtain ⟨budget, -, rfl⟩ := hpool
    rw [List.mem_singleton] at hs
    rw [hs]
    rfl

theorem mem_budgetScopes {contract primary : TaskContract} {scopes : List BudgetScope}
    {c : Controls} (h : c.budgetScopes runId taskId contract primary = .ok scopes)
    (s : BudgetScope) (hs : s ∈ scopes) : s.taskId = some taskId ∨ s.taskId = none := by
  obtain ⟨runBudget, taskPool, -, rfl, hpool⟩ := budgetScopes_eq_ok h
  simp only [List.cons_append, List.mem_cons, List.mem_append, List.not_mem_nil, or_false] at hs
  rcases hs with rfl | hs | rfl
  · exact Or.inl rfl
  · exact Or.inl (hpool s hs)
  · exact Or.inr rfl

theorem freed_of_transfer {L' : Ledger} {attempt : Attempt} (s : BudgetScope)
    (hs : s.taskId = some taskId ∨ s.taskId = none)
    (h : L.transferRepair runId taskId attemptId attempt = .ok L') :
    Freed L L' runId (L.pendingRepairs runId taskId).length s := by
  refine ⟨?_, Ledger.transferRepair_closed s.taskId s.budget h⟩
  have hused := Ledger.transferRepair_used s.taskId hs h
  obtain ⟨n, hn⟩ := L'.used_providerAttempts runId s.taskId
  generalize hk : (L.pendingRepairs runId taskId).length = k at hused
  have hattempts : L.used runId s.taskId .providerAttempts
      = L'.used runId s.taskId .providerAttempts + (k : WithTop ℕ) := by
    rw [hused]
    simp
  have hfinite : L'.used runId s.taskId .providerAttempts ≠ ⊤ := by
    rw [hn]
    exact WithTop.natCast_ne_top _
  have hcancel : AddLECancellable (k : WithTop ℕ) :=
    WithTop.addLECancellable_of_ne_top (WithTop.natCast_ne_top k)
  unfold withoutPending
  rw [bind_unit_eq_ok, require_eq_ok]
  refine ⟨⟨?_, ?_⟩, ?_⟩
  · rw [hattempts]
    exact WithTop.add_ne_top.mpr ⟨hfinite, WithTop.natCast_ne_top k⟩
  · rw [hattempts]
    exact le_add_self
  · rw [hattempts, hcancel.add_tsub_cancel_right]
    congr 1
    funext d
    by_cases hd : d = .providerAttempts
    · subst hd
      simp
    · rw [Function.update_of_ne hd, hused]
      simp [Pi.single_eq_of_ne hd]

theorem taskContracts_of_contracts {c : Controls} {contract primary : TaskContract} {task : TaskRow}
    {attempt : Attempt}
    (h : c.contracts runId taskId attemptId = .ok (contract, primary, task, attempt)) :
    c.taskContracts runId taskId = .ok (contract, primary, task) ∧
      c.attempts.get attemptId = some attempt ∧
      attempt.runId = runId ∧ attempt.taskRowId = taskId := by
  unfold Controls.contracts at h
  simp only [bind_eq_ok, orRaise_eq_ok, require_eq_ok, exists_const, Except.ok.injEq] at h
  obtain ⟨⟨contract', primary', task'⟩, htask, attempt', hget, hlineage, heq⟩ := h
  simp only [Prod.mk.injEq] at heq
  obtain ⟨rfl, rfl, rfl, rfl⟩ := heq
  exact ⟨htask, hget, hlineage.1, hlineage.2⟩

/- What is left of `fit_reservation` where the lineage and the pending slot are in order. -/
theorem fitReservation_eq {contract primary : TaskContract} {task : TaskRow}
    {scopes : List BudgetScope} (ceiling : TaskBudget)
    (htask : L.controls.taskContracts runId taskId = .ok (contract, primary, task))
    (hpending : (L.pendingRepairs runId taskId).length = 0 ∨
      (L.pendingRepairs runId taskId).length = 1)
    (hsc : L.controls.budgetScopes runId taskId contract primary = .ok scopes) :
    L.fitReservation runId taskId ceiling =
      if oneAttempt ceiling = true then
        if L.controls.legacyOpen runId = true then .ok none
        else (L.fitScopes runId ceiling (L.pendingRepairs runId taskId).length scopes
          ⟨budgetCeiling ceiling, ceiling.unknownTelemetryPolicy⟩).map
            fun fitted => fitted.bind (Proposal.budget ceiling)
      else .error "fit one attempt and no repair unit" := by
  unfold Ledger.fitReservation require
  rw [htask]
  by_cases hunits : oneAttempt ceiling = true
  · by_cases hlegacy : L.controls.legacyOpen runId = true
    · simp [hunits, hlegacy, bind, Except.bind]
    · simp only [hunits, hlegacy, if_true, hpending, hsc, bind, Except.bind, Except.map]
  · simp [hunits, bind, Except.bind]

/-- Fitting agrees with reserving. For an attempt that passes the checks on everything but
amounts: a fitted budget is reserved, it is the largest of the reservations not above the ceiling
that are, nothing is fitted exactly when none of them is, and only a ceiling in other units raises. -/
theorem fit_agrees_with_reserve (L : Ledger) (runId taskId attemptId : UUID)
    (idempotencyKey : String) (ceiling : TaskBudget)
    (h : L.Eligible runId taskId attemptId idempotencyKey) :
    (∀ b, L.fitReservation runId taskId ceiling = .ok (some b) →
      Within ceiling b ∧ L.Reserves runId taskId attemptId idempotencyKey b ∧
      ∀ r, Within ceiling r → L.Reserves runId taskId attemptId idempotencyKey r →
        budgetCeiling r ≤ budgetCeiling b) ∧
    (L.fitReservation runId taskId ceiling = .ok none ↔ oneAttempt ceiling = true ∧
      ∀ r, Within ceiling r → ¬ L.Reserves runId taskId attemptId idempotencyKey r) ∧
    ((∃ e, L.fitReservation runId taskId ceiling = .error e) ↔ oneAttempt ceiling = false) := by
  obtain ⟨hkey, hnone, hdup, contract, primary, task, attempt, hcon, hel, ⟨L', htr⟩, scopes, hsc⟩ := h
  have hreserves := fun r => reserves_iff r hkey hnone hdup hcon hel htr hsc
  have hpending : (L.pendingRepairs runId taskId).length = 0 ∨
      (L.pendingRepairs runId taskId).length = 1 := by
    rcases Ledger.transferRepair_eq_ok.mp htr with ⟨hnil, -⟩ | ⟨_, _, _, hone, -⟩
    · simp [hnil]
    · simp [hone]
  rw [fitReservation_eq ceiling (taskContracts_of_contracts hcon).1 hpending hsc]
  by_cases hunits : oneAttempt ceiling = true
  · by_cases hlegacy : L.controls.legacyOpen runId = true
    · -- unresolved legacy accounting stops both
      simp [hunits, hlegacy, hreserves]
    · rw [if_pos hunits, if_neg hlegacy]
      rw [Bool.not_eq_true] at hlegacy
      have hspec := @fitScopes_spec L L' runId ceiling _ scopes
        ⟨budgetCeiling ceiling, ceiling.unknownTelemetryPolicy⟩
        fun s hs => freed_of_transfer s (mem_budgetScopes hsc s hs) htr
      rcases hspec with ⟨hstop, hall⟩ | ⟨p, hgo, hle, hall⟩
      · rw [hstop]
        refine ⟨fun b hb => by simp [Except.map] at hb, ?_, by simp [Except.map, hunits]⟩
        refine iff_of_true rfl ⟨hunits, ?_⟩
        intro r hr hres
        have hscopes := ((hreserves r).mp hres).2.2
        rw [hall r hr.1] at hscopes
        cases hscopes
      · rw [hgo]
        -- a reservation below the ceiling is admitted exactly when it is below the proposal
        have hbelow : ∀ r, Within ceiling r →
            (L.Reserves runId taskId attemptId idempotencyKey r ↔
              oneAttempt r = true ∧ budgetCeiling r ≤ p.amounts) := by
          intro r hr
          rw [hreserves r, hall r hr.1 hr.2.2]
          simp [hlegacy]
        cases hb : p.budget ceiling with
        | none =>
          refine ⟨fun b hx => by simp [Except.map, hb] at hx, ?_, by simp [Except.map, hunits]⟩
          refine iff_of_true (by simp [Except.map, hb]) ⟨hunits, ?_⟩
          intro r hr hres
          have hr' := (hbelow r hr).mp hres
          exact budget_eq_none hb hunits hle hr'.1 hr.2.1 hr'.2
        | some b =>
          obtain ⟨hone, hmode, hsecond, hbp, hgreatest⟩ := budget_eq_some hb hunits hle
          have hwithin : Within ceiling b := ⟨hmode, hsecond, hbp.trans hle⟩
          have hres := (hbelow b hwithin).mpr ⟨hone, hbp⟩
          refine ⟨?_, ?_, by simp [Except.map, hunits]⟩
          · intro b' hb'
            simp only [Except.map, Option.bind_some, hb, Except.ok.injEq, Option.some.injEq] at hb'
            subst hb'
            refine ⟨hwithin, hres, ?_⟩
            intro r hr hr'
            exact hgreatest r ((hbelow r hr).mp hr').1 ((hbelow r hr).mp hr').2
          · refine iff_of_false (by simp [Except.map, hb]) ?_
            intro hx
            exact hx.2 b hwithin hres
  · simp [hunits]

/-- A primary whose first attempt is settled and debited for repair, and whose second attempt
is to be reserved. -/
def sampleControls : Controls where
  runs := Table.empty.put 1 ⟨.implementing, none⟩
  tasks := Table.empty.put 10 ⟨1, none, .running, false, false, some ⟨1, 10, .primary, {}⟩⟩
  attempts := (Table.empty.put 100 ⟨1, 10, 1, .terminal⟩).put 101 ⟨1, 10, 2, .queued⟩
  pools := Table.empty
  legacy := Table.empty

def sampleCeiling : TaskBudget := { maxProviderAttempts := 1, maxRepairs := 0 }

def sampleTelemetry : AttemptTelemetry :=
  { inputTokens := 5, outputTokens := 5, durationMs := 600500, toolCallCount := 40,
    estimatedApiCostMinor := 0, quotaStatus := .ok }

theorem sampleCeiling_units : oneAttempt sampleCeiling = true := rfl

def sampleLedger : Ledger where
  controls := sampleControls
  reservations := Table.empty.put 100 ⟨1, 10, "attempt:100", sampleCeiling, sampleCeiling_units⟩
  consumptions := Table.empty.put 100
    ⟨some sampleTelemetry, chargeOf sampleCeiling (some sampleTelemetry) false, [], false⟩
  debits := Table.empty.put 100 none

theorem fit_agrees_after_repair :
    sampleLedger.Eligible 1 10 101 "attempt:101" ∧
      sampleLedger.fitReservation 1 10 sampleCeiling =
        .ok (some { sampleCeiling with maxDurationSeconds := 1199, maxToolCalls := 60 }) ∧
      sampleLedger.Reserves 1 10 101 "attempt:101"
        { sampleCeiling with maxDurationSeconds := 1199, maxToolCalls := 60 } := by
  have he : sampleLedger.Eligible 1 10 101 "attempt:101" :=
    ⟨by decide, rfl, rfl, _, _, _, _, rfl, rfl, ⟨_, rfl⟩, _, rfl⟩
  have hfit : sampleLedger.fitReservation 1 10 sampleCeiling =
      .ok (some { sampleCeiling with maxDurationSeconds := 1199, maxToolCalls := 60 }) := by
    rfl
  exact ⟨he, hfit, ((fit_agrees_with_reserve _ _ _ _ _ _ he).1 _ hfit).2.1⟩

end agreement

end ParallelForge.Budget
