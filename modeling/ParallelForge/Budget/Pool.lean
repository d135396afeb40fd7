import ParallelForge.Base.Result
import ParallelForge.Budget.Amounts
import Mathlib.Algebra.BigOperators.Group.List.Basic
import Mathlib.Algebra.BigOperators.Pi
import Mathlib.Algebra.Ring.Int.Defs
import Mathlib.Data.List.Perm.Basic

/-!
# The budget pool (`domain/subscription.py:731-827`)

A pool counts what is reserved of a total, in the units of the budget itself.
It only ever compares one request with what is left; over any order of
requests that agrees with comparing their sum with the total.
-/

namespace ParallelForge.Budget
open Base

/-- A limit of a budget, with the duration in seconds. -/
def maximum (budget : TaskBudget) : Dimension → WithTop ℕ
  | .durationMs => (budget.maxDurationSeconds : WithTop ℕ)
  | .toolCalls => (budget.maxToolCalls : WithTop ℕ)
  | .namedChecks => (budget.maxNamedChecks : WithTop ℕ)
  | .providerAttempts => (budget.maxProviderAttempts : WithTop ℕ)
  | .repairs => (budget.maxRepairs : WithTop ℕ)
  | .inputTokens => budget.maxInputTokens
  | .outputTokens => budget.maxOutputTokens
  | .costMinor => budget.maxCostMinor

/-- `limit or 0`. -/
def amount (budget : TaskBudget) (d : Dimension) : ℤ := ((maximum budget d).untopD 0 : ℕ)

def reservedName : Dimension → String
  | .durationMs => "reserved_duration_seconds"
  | .toolCalls => "reserved_tool_calls"
  | .namedChecks => "reserved_named_checks"
  | .providerAttempts => "reserved_provider_attempts"
  | .repairs => "reserved_repairs"
  | .inputTokens => "reserved_input_tokens"
  | .outputTokens => "reserved_output_tokens"
  | .costMinor => "reserved_cost_minor"

structure BudgetPool where
  totalBudget : TaskBudget
  reserved : Dimension → ℤ
  nonnegative : ∀ d ∈ dimensions, 0 ≤ reserved d

/-- `BudgetPool(...)` with its checks. -/
def BudgetPool.build (totalBudget : TaskBudget) (reserved : Dimension → ℤ) :
    Except String BudgetPool :=
  if h : ∀ d ∈ dimensions, 0 ≤ reserved d then .ok ⟨totalBudget, reserved, h⟩
  else
    let first := dimensions.find? fun d => reserved d < 0
    .error ((first.map reservedName).getD "" ++ " must be a nonnegative integer")

/-- `BudgetPool(total_budget=...)`. -/
def BudgetPool.empty (totalBudget : TaskBudget) : BudgetPool :=
  ⟨totalBudget, fun _ => 0, fun _ _ => le_rfl⟩

/-- One comparison of `can_reserve`; the four limits that are always set have no `None` case. -/
def fitsLimit (total : WithTop ℕ) (reserved : ℤ) (requested : WithTop ℕ) : Bool :=
  match total, requested with
  | none, _ => true
  | some _, none => false
  | some total, some requested => reserved + (requested : ℤ) ≤ (total : ℤ)

namespace BudgetPool
variable (pool : BudgetPool)

/-- `can_reserve`. -/
def canReserve (requested : TaskBudget) : Bool :=
  dimensions.all fun d =>
    fitsLimit (maximum pool.totalBudget d) (pool.reserved d) (maximum requested d)

/-- `reserve`. -/
def reserve (requested : TaskBudget) : Except String BudgetPool := do
  require (pool.canReserve requested = true) "requested budget exceeds available capacity"
  build pool.totalBudget fun d => pool.reserved d + amount requested d

/-- `release`. -/
def release (released : TaskBudget) : Except String BudgetPool := do
  require (dimensions.any (fun d => decide (pool.reserved d < amount released d)) = false)
    "cannot release an unreserved budget"
  build pool.totalBudget fun d => pool.reserved d - amount released d

theorem reserved_nonneg (d : Dimension) : 0 ≤ pool.reserved d :=
  pool.nonnegative d (mem_dimensions d)

end BudgetPool

theorem amount_nonneg (budget : TaskBudget) (d : Dimension) : 0 ≤ amount budget d :=
  Int.natCast_nonneg _

theorem build_eq_ok (totalBudget : TaskBudget) (reserved : Dimension → ℤ) (pool : BudgetPool) :
    BudgetPool.build totalBudget reserved = .ok pool ↔
      pool.totalBudget = totalBudget ∧ pool.reserved = reserved := by
  unfold BudgetPool.build
  split
  · next h =>
    rw [Except.ok.injEq]
    constructor
    · intro heq
      subst heq
      exact ⟨rfl, rfl⟩
    · intro heq
      obtain ⟨total, amounts, hn⟩ := pool
      obtain ⟨rfl, rfl⟩ := heq
      rfl
  · next h =>
    constructor
    · intro heq
      cases heq
    · intro heq
      refine absurd (fun d hd => ?_) h
      rw [← heq.2]
      exact pool.nonnegative d hd

theorem natCast_eq_coe (n : ℕ) : (Nat.cast n : WithTop ℕ) = WithTop.some n := rfl

theorem top_or_natCast (x : WithTop ℕ) : x = ⊤ ∨ ∃ n : ℕ, x = WithTop.some n := by
  cases x with
  | top => exact .inl rfl
  | coe n => exact .inr ⟨n, rfl⟩

/- A comparison, as an inequality of amounts where `None` is `⊤`. -/
theorem fitsLimit_iff (total requested : WithTop ℕ) (reserved : ℕ) :
    fitsLimit total reserved requested = true ↔ (reserved : WithTop ℕ) + requested ≤ total := by
  rcases top_or_natCast total with rfl | ⟨total, rfl⟩
  · exact ⟨fun _ => le_top, fun _ => rfl⟩
  · rcases top_or_natCast requested with rfl | ⟨requested, rfl⟩
    · rw [WithTop.add_top, top_le_iff]
      constructor
      · intro h
        cases h
      · intro h
        exact absurd h (WithTop.coe_ne_top)
    · have hint : fitsLimit (WithTop.some total) reserved (WithTop.some requested) = true ↔
          (reserved : ℤ) + (requested : ℤ) ≤ (total : ℤ) := decide_eq_true_iff
      rw [hint, natCast_eq_coe, ← WithTop.coe_add, WithTop.coe_le_coe]
      omega

theorem reserve_eq_ok (pool pool' : BudgetPool) (requested : TaskBudget) :
    pool.reserve requested = .ok pool' ↔ pool.canReserve requested = true ∧
      pool'.totalBudget = pool.totalBudget ∧
      pool'.reserved = fun d => pool.reserved d + amount requested d := by
  simp only [BudgetPool.reserve, require_bind_eq_ok, build_eq_ok]

theorem release_eq_ok (pool pool' : BudgetPool) (released : TaskBudget) :
    pool.release released = .ok pool' ↔
      (∀ d, amount released d ≤ pool.reserved d) ∧ pool'.totalBudget = pool.totalBudget ∧
      pool'.reserved = fun d => pool.reserved d - amount released d := by
  have hchecks : dimensions.any (fun d => decide (pool.reserved d < amount released d)) = false ↔
      ∀ d, amount released d ≤ pool.reserved d := by
    simp only [List.any_eq_false, decide_eq_true_eq, not_lt]
    exact ⟨fun h d => h d (mem_dimensions d), fun h d _ => h d⟩
  simp only [BudgetPool.release, require_bind_eq_ok, build_eq_ok, hchecks]

/- A reservation that fits can be booked. -/
theorem reserve_ok (pool : BudgetPool) (requested : TaskBudget)
    (h : pool.canReserve requested = true) : ∃ pool', pool.reserve requested = .ok pool' := by
  have hnew : ∀ d ∈ dimensions, 0 ≤ pool.reserved d + amount requested d := by
    intro d _
    have hold := pool.reserved_nonneg d
    have hamount := amount_nonneg requested d
    omega
  exact ⟨⟨pool.totalBudget, _, hnew⟩, (reserve_eq_ok _ _ _).mpr ⟨h, rfl, rfl⟩⟩

/-- Releasing what was just reserved gives the pool back. -/
theorem release_reserve (pool pool' : BudgetPool) (requested : TaskBudget)
    (h : pool.reserve requested = .ok pool') : pool'.release requested = .ok pool := by
  obtain ⟨-, htotal, hreserved⟩ := (reserve_eq_ok pool pool' requested).mp h
  refine (release_eq_ok pool' pool requested).mpr ⟨fun d => ?_, htotal.symm, ?_⟩
  · have hold := pool.reserved_nonneg d
    rw [hreserved]
    show amount requested d ≤ pool.reserved d + amount requested d
    omega
  · funext d
    rw [hreserved]
    show pool.reserved d = pool.reserved d + amount requested d - amount requested d
    omega

/-! ## Requests one by one, and their sum -/

/-- What is reserved of a dimension, as an amount. -/
def BudgetPool.held (pool : BudgetPool) (d : Dimension) : ℕ := (pool.reserved d).toNat

theorem held_cast (pool : BudgetPool) (d : Dimension) : (pool.held d : ℤ) = pool.reserved d :=
  Int.toNat_of_nonneg (pool.reserved_nonneg d)

theorem canReserve_iff (pool : BudgetPool) (requested : TaskBudget) :
    pool.canReserve requested = true ↔
      ∀ d, (pool.held d : WithTop ℕ) + maximum requested d ≤ maximum pool.totalBudget d := by
  unfold BudgetPool.canReserve
  rw [List.all_eq_true]
  constructor
  · intro h d
    have hd := h d (mem_dimensions d)
    rw [← held_cast] at hd
    exact (fitsLimit_iff _ _ _).mp hd
  · intro h d _
    rw [← held_cast]
    exact (fitsLimit_iff _ _ _).mpr (h d)

/-- The amounts of the rest of the requests, in one dimension. -/
def wanted (requests : List TaskBudget) (d : Dimension) : WithTop ℕ :=
  (requests.map fun r => maximum r d).sum

theorem held_reserve (pool pool' : BudgetPool) (requested : TaskBudget)
    (h : pool.reserve requested = .ok pool') (d : Dimension) :
    pool'.held d = pool.held d + (maximum requested d).untopD 0 := by
  obtain ⟨-, -, hreserved⟩ := (reserve_eq_ok pool pool' requested).mp h
  have hnew : pool'.reserved d = pool.reserved d + amount requested d := congrFun hreserved d
  have hold := held_cast pool d
  have hcast := held_cast pool' d
  unfold amount at hnew
  omega

/- One dimension of the step: the request and the rest fit exactly if their sum does. -/
theorem fits_step (held : ℕ) (requested rest total : WithTop ℕ) :
    ((held : WithTop ℕ) + requested ≤ total ∧
      ((held + requested.untopD 0 : ℕ) : WithTop ℕ) + rest ≤ total) ↔
    (held : WithTop ℕ) + (requested + rest) ≤ total := by
  rcases top_or_natCast total with rfl | ⟨total, rfl⟩
  · exact ⟨fun _ => le_top, fun _ => ⟨le_top, le_top⟩⟩
  · rcases top_or_natCast requested with rfl | ⟨requested, rfl⟩
    · rw [WithTop.top_add, WithTop.add_top]
      exact ⟨fun h => h.1, fun h => absurd (top_le_iff.mp h) (WithTop.coe_ne_top)⟩
    · have huntop : (WithTop.some requested).untopD 0 = requested := rfl
      rw [huntop, natCast_eq_coe, natCast_eq_coe, WithTop.coe_add, add_assoc,
        and_iff_right_iff_imp]
      intro h
      have hle : WithTop.some held + WithTop.some requested ≤
          WithTop.some held + (WithTop.some requested + rest) := add_le_add le_rfl le_self_add
      exact hle.trans h

theorem foldlM_reserve_iff (requests : List TaskBudget) (pool : BudgetPool)
    (hpool : ∀ d, (pool.held d : WithTop ℕ) ≤ maximum pool.totalBudget d) :
    (∃ pool', requests.foldlM BudgetPool.reserve pool = .ok pool') ↔
      ∀ d, (pool.held d : WithTop ℕ) + wanted requests d ≤ maximum pool.totalBudget d := by
  induction requests generalizing pool with
  | nil =>
    constructor
    · intro _ d
      simpa [wanted] using hpool d
    · intro _
      exact ⟨pool, rfl⟩
  | cons requested requests ih =>
    have hwanted : ∀ d, wanted (requested :: requests) d = maximum requested d + wanted requests d :=
      fun d => List.sum_cons
    have hcons : (∃ pool', (requested :: requests).foldlM BudgetPool.reserve pool = .ok pool') ↔
        ∃ next, pool.reserve requested = .ok next ∧
          ∃ pool', requests.foldlM BudgetPool.reserve next = .ok pool' := by
      simp only [List.foldlM_cons, bind_eq_ok]
      exact ⟨fun ⟨p, n, hn, hp⟩ => ⟨n, hn, p, hp⟩, fun ⟨n, hn, p, hp⟩ => ⟨p, n, hn, hp⟩⟩
    rw [hcons]
    have hstep : ∀ next, pool.reserve requested = .ok next →
        ((∃ pool', requests.foldlM BudgetPool.reserve next = .ok pool') ↔
          ∀ d, ((pool.held d + (maximum requested d).untopD 0 : ℕ) : WithTop ℕ) +
            wanted requests d ≤ maximum pool.totalBudget d) := by
      intro next hnext
      have htotal := ((reserve_eq_ok pool next requested).mp hnext).2.1
      have hfit := (canReserve_iff pool requested).mp ((reserve_eq_ok pool next requested).mp hnext).1
      have hheld := held_reserve pool next requested hnext
      have hnextPool : ∀ d, (next.held d : WithTop ℕ) ≤ maximum next.totalBudget d := by
        intro d
        rw [hheld d, htotal]
        have hone := (fits_step (pool.held d) (maximum requested d) 0 _).mpr
          ((add_zero (maximum requested d)).symm ▸ hfit d)
        rw [add_zero] at hone
        exact hone.2
      rw [ih next hnextPool]
      simp only [hheld, htotal]
    constructor
    · intro ⟨next, hnext, hrest⟩ d
      have hfit := (canReserve_iff pool requested).mp ((reserve_eq_ok pool next requested).mp hnext).1
      rw [hwanted d]
      exact (fits_step _ _ _ _).mp ⟨hfit d, (hstep next hnext).mp hrest d⟩
    · intro hall
      have hparts := fun d => (fits_step (pool.held d) (maximum requested d) (wanted requests d)
        (maximum pool.totalBudget d)).mpr (hwanted d ▸ hall d)
      obtain ⟨next, hnext⟩ := reserve_ok pool requested
        ((canReserve_iff pool requested).mpr fun d => (hparts d).1)
      exact ⟨next, hnext, (hstep next hnext).mpr fun d => (hparts d).2⟩

/- The sum of the ceilings, one dimension at a time. -/
theorem sum_ceilings (requests : List TaskBudget) (d : Dimension) :
    (requests.map budgetCeiling).sum d = (requests.map fun r => budgetCeiling r d).sum := by
  induction requests with
  | nil => rfl
  | cons r requests ih =>
    rw [List.map_cons, List.sum_cons, List.map_cons, List.sum_cons, Pi.add_apply, ih]

theorem sum_seconds (requests : List TaskBudget) :
    wanted requests .durationMs =
      WithTop.some ((requests.map fun r => r.maxDurationSeconds).sum) ∧
    (requests.map fun r => budgetCeiling r .durationMs).sum =
      WithTop.some ((requests.map fun r => r.maxDurationSeconds).sum * 1000) := by
  induction requests with
  | nil => exact ⟨rfl, rfl⟩
  | cons r requests ih =>
    obtain ⟨hwanted, hceiling⟩ := ih
    have hhead : wanted (r :: requests) .durationMs =
        WithTop.some r.maxDurationSeconds + wanted requests .durationMs := List.sum_cons
    refine ⟨?_, ?_⟩
    · rw [hhead, hwanted, ← WithTop.coe_add, List.map_cons, List.sum_cons]
    · rw [List.map_cons, List.sum_cons, hceiling, List.map_cons, List.sum_cons, Nat.add_mul,
        WithTop.coe_add]
      rfl

/- Milliseconds or seconds: the comparison is the same. -/
theorem sum_ceilings_le_iff (requests : List TaskBudget) (total : TaskBudget) (d : Dimension) :
    (requests.map budgetCeiling).sum d ≤ budgetCeiling total d ↔
      wanted requests d ≤ maximum total d := by
  rw [sum_ceilings]
  cases d with
  | durationMs =>
    obtain ⟨hwanted, hceiling⟩ := sum_seconds requests
    have htotal : budgetCeiling total .durationMs = WithTop.some (total.maxDurationSeconds * 1000) :=
      rfl
    have hmaximum : maximum total .durationMs = WithTop.some total.maxDurationSeconds := rfl
    rw [hwanted, hceiling, htotal, hmaximum, WithTop.coe_le_coe, WithTop.coe_le_coe]
    omega
  | _ => exact Iff.rfl

/-! ## Reservations that come and go -/

structure Holding where
  pool : BudgetPool
  outstanding : List TaskBudget

inductive PoolAction
  | reserve (requested : TaskBudget)
  | release (released : TaskBudget)

/-- Only what is outstanding is released. -/
def Holding.step (s : Holding) : PoolAction → Holding
  | .reserve requested => match s.pool.reserve requested with
    | .ok pool => ⟨pool, requested :: s.outstanding⟩
    | .error _ => s
  | .release released =>
    if released ∈ s.outstanding then match s.pool.release released with
      | .ok pool => ⟨pool, s.outstanding.erase released⟩
      | .error _ => s
    else s

def Holding.run (total : TaskBudget) (actions : List PoolAction) : Holding :=
  actions.foldl Holding.step ⟨BudgetPool.empty total, []⟩

structure HoldingInv (total : TaskBudget) (s : Holding) : Prop where
  same : s.pool.totalBudget = total
  booked : ∀ d, s.pool.reserved d = (s.outstanding.map fun b => amount b d).sum
  within : ∀ d (limit : ℕ), maximum total d = WithTop.some limit → s.pool.reserved d ≤ limit

theorem sum_amounts_nonneg (l : List TaskBudget) (d : Dimension) :
    0 ≤ (l.map fun b => amount b d).sum := by
  induction l with
  | nil => exact le_rfl
  | cons b l ih =>
    rw [List.map_cons, List.sum_cons]
    have hamount := amount_nonneg b d
    omega

/- An outstanding reservation is a part of what is reserved. -/
theorem amount_le_booked (total : TaskBudget) (s : Holding) (hi : HoldingInv total s)
    (b : TaskBudget) (hb : b ∈ s.outstanding) (d : Dimension) :
    amount b d ≤ s.pool.reserved d := by
  have hsum := List.sum_map_erase (fun b => amount b d) hb
  have hrest := sum_amounts_nonneg (s.outstanding.erase b) d
  rw [hi.booked d]
  omega

theorem release_outstanding (total : TaskBudget) (s : Holding) (hi : HoldingInv total s)
    (b : TaskBudget) (hb : b ∈ s.outstanding) : ∃ pool, s.pool.release b = .ok pool := by
  have hle := amount_le_booked total s hi b hb
  have hnew : ∀ d ∈ dimensions, 0 ≤ s.pool.reserved d - amount b d := by
    intro d _
    have hd := hle d
    omega
  exact ⟨⟨s.pool.totalBudget, _, hnew⟩, (release_eq_ok _ _ _).mpr ⟨hle, rfl, rfl⟩⟩

/- What fits a limit that is set is not unlimited itself. -/
theorem reserved_within (pool : BudgetPool) (requested : TaskBudget) (d : Dimension) (limit : ℕ)
    (hfit : (pool.held d : WithTop ℕ) + maximum requested d ≤ WithTop.some limit) :
    pool.reserved d + amount requested d ≤ limit := by
  have hheld := held_cast pool d
  unfold amount
  rcases top_or_natCast (maximum requested d) with htop | ⟨n, hn⟩
  · rw [htop, WithTop.add_top, top_le_iff] at hfit
    cases hfit
  · rw [hn, natCast_eq_coe, ← WithTop.coe_add, WithTop.coe_le_coe] at hfit
    have huntop : (WithTop.some n).untopD 0 = n := rfl
    rw [hn, huntop]
    omega

theorem holding_step (total : TaskBudget) (s : Holding) (hi : HoldingInv total s)
    (action : PoolAction) : HoldingInv total (s.step action) := by
  cases action with
  | reserve requested =>
    cases hreserve : s.pool.reserve requested with
    | error e =>
      simp only [Holding.step, hreserve]
      exact hi
    | ok pool =>
      simp only [Holding.step, hreserve]
      obtain ⟨hcan, htotal, hreserved⟩ := (reserve_eq_ok s.pool pool requested).mp hreserve
      have hnew : ∀ d, pool.reserved d = s.pool.reserved d + amount requested d :=
        fun d => congrFun hreserved d
      refine ⟨htotal.trans hi.same, fun d => ?_, fun d limit hlimit => ?_⟩
      · show pool.reserved d = ((requested :: s.outstanding).map fun b => amount b d).sum
        rw [List.map_cons, List.sum_cons, hnew d, hi.booked d, add_comm]
      · have hfit := (canReserve_iff s.pool requested).mp hcan d
        rw [hi.same, hlimit] at hfit
        show pool.reserved d ≤ limit
        rw [hnew d]
        exact reserved_within s.pool requested d limit hfit
  | release released =>
    by_cases hmem : released ∈ s.outstanding
    · simp only [Holding.step, if_pos hmem]
      cases hrelease : s.pool.release released with
      | error e => exact hi
      | ok pool =>
        obtain ⟨-, htotal, hreserved⟩ := (release_eq_ok s.pool pool released).mp hrelease
        have hnew : ∀ d, pool.reserved d = s.pool.reserved d - amount released d :=
          fun d => congrFun hreserved d
        refine ⟨htotal.trans hi.same, fun d => ?_, fun d limit hlimit => ?_⟩
        · show pool.reserved d = ((s.outstanding.erase released).map fun b => amount b d).sum
          have hsum := List.sum_map_erase (fun b => amount b d) hmem
          have hbooked := hi.booked d
          have hd := hnew d
          omega
        · have hold := hi.within d limit hlimit
          have hamount := amount_nonneg released d
          have hd := hnew d
          show pool.reserved d ≤ limit
          omega
    · simp only [Holding.step, if_neg hmem]
      exact hi

theorem holding_run (total : TaskBudget) (actions : List PoolAction) :
    HoldingInv total (Holding.run total actions) := by
  unfold Holding.run
  have hstart : HoldingInv total ⟨BudgetPool.empty total, []⟩ :=
    ⟨rfl, fun _ => rfl, fun _ limit _ => Int.natCast_nonneg limit⟩
  generalize (⟨BudgetPool.empty total, []⟩ : Holding) = s at hstart ⊢
  induction actions generalizing s with
  | nil => exact hstart
  | cons action actions ih => exact ih (s.step action) (holding_step total s hstart action)

/-- What a pool guarantees, whatever the order of requests. -/
structure PoolLaw (total : TaskBudget) : Prop where
  aggregate : ∀ requests : List TaskBudget,
    (∃ pool, requests.foldlM BudgetPool.reserve (BudgetPool.empty total) = .ok pool) ↔
      fitsWithin (requests.map budgetCeiling).sum total = true
  undo : ∀ (pool pool' : BudgetPool) (requested : TaskBudget),
    pool.reserve requested = .ok pool' → pool'.release requested = .ok pool
  bounded : ∀ (actions : List PoolAction) (d : Dimension),
    0 ≤ (Holding.run total actions).pool.reserved d ∧
      ∀ limit : ℕ, maximum total d = WithTop.some limit →
        (Holding.run total actions).pool.reserved d ≤ limit
  releasable : ∀ (actions : List PoolAction), ∀ b ∈ (Holding.run total actions).outstanding,
    ∃ pool, (Holding.run total actions).pool.release b = .ok pool

/-- Reserving one by one is reserving the sum. -/
theorem pool_order_free (total : TaskBudget) : PoolLaw total where
  aggregate requests := by
    have hempty : ∀ d, (BudgetPool.empty total).held d = 0 := fun _ => rfl
    have hstart : ∀ d, ((BudgetPool.empty total).held d : WithTop ℕ) ≤
        maximum (BudgetPool.empty total).totalBudget d := by
      intro d
      rw [hempty d]
      exact zero_le
    have hsum : ∀ d, ((BudgetPool.empty total).held d : WithTop ℕ) + wanted requests d =
        wanted requests d := by
      intro d
      rw [hempty d]
      exact zero_add _
    rw [foldlM_reserve_iff requests (BudgetPool.empty total) hstart, fitsWithin_iff]
    constructor
    · intro h d
      exact (sum_ceilings_le_iff requests total d).mpr (hsum d ▸ h d)
    · intro h d
      rw [hsum d]
      exact (sum_ceilings_le_iff requests total d).mp (h d)
  undo := release_reserve
  bounded actions d :=
    ⟨(Holding.run total actions).pool.reserved_nonneg d, (holding_run total actions).within d⟩
  releasable actions b hb := release_outstanding total _ (holding_run total actions) b hb

end ParallelForge.Budget
