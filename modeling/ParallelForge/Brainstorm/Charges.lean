import ParallelForge.Base.Text
import ParallelForge.Base.Value
import Mathlib.Algebra.BigOperators.Group.List.Basic
import Mathlib.Algebra.Order.BigOperators.Group.List
import Mathlib.Algebra.Order.Group.Int
import Mathlib.Algebra.Ring.Int.Defs

/-!
# Charges of authoring attempts (`persistence/repositories/epic_brainstorm.py:241-329`)

What an attempt has used is charged, and what it may still use is held. A
measurement counts only once the process has settled; until then, and where
nothing was measured, the reservation stays held.
-/

namespace ParallelForge.Brainstorm
open Base
open Value hiding none

/-- `_DIMENSIONS` of `epic_budget.py`; `_charges` knows all but the last. -/
inductive EpicDimension
  | durationMs
  | toolCallCount
  | inputTokens
  | outputTokens
  | estimatedApiCostMinor
  | providerAttempts
  deriving DecidableEq, Repr

def EpicDimension.name : EpicDimension → String
  | .durationMs => "duration_ms"
  | .toolCallCount => "tool_call_count"
  | .inputTokens => "input_tokens"
  | .outputTokens => "output_tokens"
  | .estimatedApiCostMinor => "estimated_api_cost_minor"
  | .providerAttempts => "provider_attempts"

def maxUsage : ℤ := 2 ^ 63 - 1

/-- `type(value) is int`. -/
def intOf : Value → Option ℤ
  | .int z => some z
  | _ => none

/-- `_bounded_measurement`. -/
def boundedMeasurement (value : Value) : Option ℤ :=
  (intOf value).filter fun z => 0 ≤ z && z ≤ maxUsage

def isNone : Value → Bool
  | .none => true
  | _ => false

/-- `_unsafe_usage`. -/
def unsafeUsage (usage : Dict) : Bool :=
  truthy (get usage "tool_call_count_unknown") ||
    ["duration_ms", "duration_lower_bound_ms", "tool_call_count", "input_tokens", "output_tokens",
      "estimated_api_cost_minor"].any fun name =>
        !isNone (get usage name) && (boundedMeasurement (get usage name)).isNone

/-- `duration_floor`. -/
def durationFloor (usage : Dict) : ℤ :=
  (["duration_ms", "duration_lower_bound_ms"].filterMap fun name =>
    boundedMeasurement (get usage name)).foldl max 0

/-- A row of `epic_brainstorm_attempts`, with what admission reads of it. -/
structure Attempt where
  jobId : UUID
  number : ℕ
  processStarted : Bool
  processSettled : Bool
  usage : Option Dict
  reservation : Value
  usageKnown : Option Bool
  toolCallsUsed : ℤ

/-- `attempt.usage or {}`. -/
def Attempt.usageDict (a : Attempt) : Dict := a.usage.getD []

/-- The reservation, when it is a mapping. -/
def Attempt.reservationDict (a : Attempt) : Dict :=
  match a.reservation with
  | .dict d => d
  | _ => []

/-- `reservation.get(key)`, when it is an integer. -/
def Attempt.reserve (a : Attempt) (key : EpicDimension) : Option ℤ :=
  intOf (get a.reservationDict key.name)

structure Charge where
  charged : ℤ
  held : ℤ
  deriving DecidableEq, Repr

/-- The rest of the reservation. -/
def heldRest (reserve : Option ℤ) (value : ℤ) : ℤ :=
  match reserve with
  | some reserve => max (reserve - value) 0
  | none => 0

/-- The bounded measurement of a settled attempt. -/
def Attempt.measured (a : Attempt) (key : EpicDimension) : Option ℤ :=
  if a.processSettled then boundedMeasurement (get a.usageDict key.name) else none

def Attempt.chargeDuration (a : Attempt) : Charge :=
  let lower := durationFloor a.usageDict
  match a.measured .durationMs with
  | some value => if lower ≤ value then ⟨value, 0⟩ else ⟨lower, heldRest (a.reserve .durationMs) lower⟩
  | none => ⟨lower, heldRest (a.reserve .durationMs) lower⟩

/-- The measured value may still grow, or be wrong. -/
def Attempt.stillHeld (a : Attempt) (key : EpicDimension) (value : ℤ) : Bool :=
  !a.processSettled ||
    (key == .toolCallCount && truthy (get a.usageDict "tool_call_count_unknown")) ||
    (key == .estimatedApiCostMinor &&
      (a.usageKnown != some true || (isNone (get a.usageDict "currency") && 0 < value)))

def Attempt.chargeMeasured (a : Attempt) (key : EpicDimension) : Charge :=
  let value := if key = .toolCallCount ∧ a.measured key = none then some a.toolCallsUsed
    else a.measured key
  match value.filter fun v => 0 ≤ v with
  | some value => ⟨value, if a.stillHeld key value then heldRest (a.reserve key) value else 0⟩
  | none => ⟨0, (a.reserve key).getD 0⟩

/-- One turn of the loops of `_charges`. -/
def Attempt.charge (a : Attempt) (key : EpicDimension) : Charge :=
  match key with
  | .durationMs => a.chargeDuration
  | .providerAttempts => ⟨0, 0⟩
  | key => a.chargeMeasured key

/-- The attempt counts as unknown. -/
def Attempt.uncertain (a : Attempt) : Bool := a.usageKnown == some false || unsafeUsage a.usageDict

/-- `_charges`. -/
def charged (attempts : List Attempt) (key : EpicDimension) : ℤ :=
  (attempts.map fun a => (a.charge key).charged).sum

def held (attempts : List Attempt) (key : EpicDimension) : ℤ :=
  (attempts.map fun a => (a.charge key).held).sum

def unknownAttempts (attempts : List Attempt) : ℕ := attempts.countP (·.uncertain)

/-! ### Charges are not negative -/

/-- What a reservation that admission wrote holds. -/
def Attempt.Reserved (a : Attempt) : Prop := ∀ key z, a.reserve key = some z → 0 ≤ z

theorem boundedMeasurement_nonneg (v : Value) (z : ℤ) (h : boundedMeasurement v = some z) : 0 ≤ z := by
  obtain ⟨_, hz⟩ := Option.filter_eq_some_iff.mp h
  rw [Bool.and_eq_true, decide_eq_true_eq] at hz
  exact hz.1

theorem durationFloor_nonneg (usage : Dict) : 0 ≤ durationFloor usage := by
  unfold durationFloor
  generalize ["duration_ms", "duration_lower_bound_ms"].filterMap _ = l
  have hmax : ∀ m : ℤ, m ≤ l.foldl max m := by
    induction l with
    | nil => exact fun m => le_rfl
    | cons z l ih => exact fun m => (le_max_left m z).trans (ih (max m z))
  exact hmax 0

theorem heldRest_nonneg (reserve : Option ℤ) (value : ℤ) : 0 ≤ heldRest reserve value := by
  cases reserve with
  | none => exact le_rfl
  | some reserve => exact le_max_right _ _

theorem chargeDuration_nonneg (a : Attempt) :
    0 ≤ a.chargeDuration.charged ∧ 0 ≤ a.chargeDuration.held := by
  have hlower := durationFloor_nonneg a.usageDict
  have hheld := heldRest_nonneg (a.reserve .durationMs) (durationFloor a.usageDict)
  unfold Attempt.chargeDuration
  simp only
  split
  · split
    · rename_i value _ hle
      exact ⟨hlower.trans hle, le_rfl⟩
    · exact ⟨hlower, hheld⟩
  · exact ⟨hlower, hheld⟩

theorem chargeMeasured_nonneg (a : Attempt) (ha : a.Reserved) (key : EpicDimension) :
    0 ≤ (a.chargeMeasured key).charged ∧ 0 ≤ (a.chargeMeasured key).held := by
  unfold Attempt.chargeMeasured
  simp only
  split
  · rename_i value hvalue
    have hpos : 0 ≤ value := of_decide_eq_true (Option.filter_eq_some_iff.mp hvalue).2
    refine ⟨hpos, ?_⟩
    simp only
    split
    · exact heldRest_nonneg _ _
    · exact le_rfl
  · refine ⟨le_rfl, ?_⟩
    cases hreserve : a.reserve key with
    | none => exact le_rfl
    | some z => exact ha key z hreserve

theorem charge_nonneg (a : Attempt) (ha : a.Reserved) (key : EpicDimension) :
    0 ≤ (a.charge key).charged ∧ 0 ≤ (a.charge key).held := by
  cases key with
  | durationMs => exact chargeDuration_nonneg a
  | providerAttempts => exact ⟨le_rfl, le_rfl⟩
  | toolCallCount => exact chargeMeasured_nonneg a ha _
  | inputTokens => exact chargeMeasured_nonneg a ha _
  | outputTokens => exact chargeMeasured_nonneg a ha _
  | estimatedApiCostMinor => exact chargeMeasured_nonneg a ha _

/-! ### A fresh attempt -/

def amountValue (amount : Option ℤ) : Value :=
  match amount with
  | some z => .int z
  | none => .none

theorem intOf_amountValue (amount : Option ℤ) : intOf (amountValue amount) = amount := by
  cases amount <;> rfl

/-- The amounts of a reservation, in the order `_reservation` lists them. -/
def reservationValue (reservation : EpicDimension → Option ℤ) : Value :=
  .dict ([.durationMs, .toolCallCount, .inputTokens, .outputTokens, .estimatedApiCostMinor].map
    fun key : EpicDimension => (key.name, amountValue (reservation key)))

/-- The row `claim` inserts. -/
def freshAttempt (jobId : UUID) (number : ℕ) (reservation : EpicDimension → Option ℤ) : Attempt where
  jobId := jobId
  number := number
  processStarted := false
  processSettled := false
  usage := none
  reservation := reservationValue reservation
  usageKnown := none
  toolCallsUsed := 0

theorem reserve_fresh (jobId : UUID) (number : ℕ) (reservation : EpicDimension → Option ℤ)
    (key : EpicDimension) : (freshAttempt jobId number reservation).reserve key =
      if key = .providerAttempts then none else reservation key := by
  unfold Attempt.reserve Attempt.reservationDict freshAttempt reservationValue
  cases key <;> simp [Value.get, lookup, EpicDimension.name, intOf_amountValue]
  rfl

/- Nothing is charged yet, and the whole reservation is held. -/
theorem charge_fresh (jobId : UUID) (number : ℕ) (reservation : EpicDimension → Option ℤ)
    (hpos : ∀ key z, reservation key = some z → 0 ≤ z) (key : EpicDimension)
    (hkey : key ≠ .providerAttempts) :
    (freshAttempt jobId number reservation).charge key = ⟨0, (reservation key).getD 0⟩ := by
  have hreserve : (freshAttempt jobId number reservation).reserve key = reservation key := by
    rw [reserve_fresh, if_neg hkey]
  have hheld : heldRest (reservation key) 0 = (reservation key).getD 0 := by
    cases hr : reservation key with
    | none => rfl
    | some z => simpa [heldRest] using hpos key z hr
  cases key with
  | durationMs =>
    show Charge.mk 0 (heldRest _ 0) = _
    rw [hreserve, hheld]
  | toolCallCount =>
    show Charge.mk 0 (heldRest _ 0) = _
    rw [hreserve, hheld]
  | inputTokens =>
    show Charge.mk 0 _ = _
    rw [hreserve]
  | outputTokens =>
    show Charge.mk 0 _ = _
    rw [hreserve]
  | estimatedApiCostMinor =>
    show Charge.mk 0 _ = _
    rw [hreserve]
  | providerAttempts => exact absurd rfl hkey

theorem fresh_reserved (jobId : UUID) (number : ℕ) (reservation : EpicDimension → Option ℤ)
    (hpos : ∀ key z, reservation key = some z → 0 ≤ z) :
    (freshAttempt jobId number reservation).Reserved := by
  intro key z h
  rw [reserve_fresh] at h
  split at h
  · cases h
  · exact hpos key z h

end ParallelForge.Brainstorm
