import ParallelForge.Brainstorm.Charges
import Mathlib.Algebra.GroupWithZero.Nat

/-!
# Charging is conservative

Until a dimension is measured, what is charged and what is held come to the larger of the
reservation and the known usage; from then on the measurement is charged and nothing held.
The tool calls of a settled attempt are counted by the attempt itself where its usage does
not tell them.
-/

namespace ParallelForge.Brainstorm
open Base
open Value hiding none

namespace Attempt
variable (a : Attempt)

/-- The count that is charged: that of the usage, once the process has settled, and for tool calls
else that of the attempt. -/
def counted (key : EpicDimension) : Option ℤ :=
  (if key = .toolCallCount ∧ a.measured key = none then some a.toolCallsUsed else a.measured key).filter
    fun v => 0 ≤ v

/-- The known usage; of a duration at least its lower bound is known. -/
def known (key : EpicDimension) : ℤ :=
  if key = .durationMs then durationFloor a.usageDict else (a.counted key).getD 0

/-- The count of a settled attempt, where nothing speaks against it: a lower bound of the duration,
the mark of unknown tool calls, or an amount of money without its currency. -/
def measurement : EpicDimension → Option ℤ
  | .durationMs => (a.measured .durationMs).filter fun v => durationFloor a.usageDict ≤ v
  | .toolCallCount =>
    if a.processSettled && !truthy (get a.usageDict "tool_call_count_unknown") then a.counted .toolCallCount
    else none
  | .inputTokens => a.measured .inputTokens
  | .outputTokens => a.measured .outputTokens
  | .estimatedApiCostMinor => (a.measured .estimatedApiCostMinor).filter fun v =>
      a.usageKnown == some true && !(isNone (get a.usageDict "currency") && 0 < v)
  | .providerAttempts => none

variable {a}

theorem measured_nonneg {key : EpicDimension} {v : ℤ} (h : a.measured key = some v) : 0 ≤ v := by
  unfold measured at h
  split at h
  · exact boundedMeasurement_nonneg _ _ h
  · cases h

theorem measured_settled {key : EpicDimension} {v : ℤ} (h : a.measured key = some v) : a.processSettled = true := by
  unfold measured at h
  split at h
  · assumption
  · cases h

theorem counted_eq {key : EpicDimension} (hkey : key ≠ .toolCallCount) : a.counted key = a.measured key := by
  rw [counted, if_neg (fun h => hkey h.1)]
  cases hm : a.measured key with
  | none => rfl
  | some v => exact Option.filter_eq_some_iff.mpr ⟨rfl, decide_eq_true (measured_nonneg hm)⟩

theorem counted_nonneg {key : EpicDimension} {v : ℤ} (h : a.counted key = some v) : 0 ≤ v :=
  of_decide_eq_true (Option.filter_eq_some_iff.mp h).2

theorem chargeMeasured_eq (a : Attempt) (key : EpicDimension) : a.chargeMeasured key =
    match a.counted key with
    | some v => ⟨v, if a.stillHeld key v then heldRest (a.reserve key) v else 0⟩
    | none => ⟨0, (a.reserve key).getD 0⟩ := rfl

/- What a reservation and a known amount come to. -/
theorem heldRest_total {reserve : Option ℤ} (h : ∀ z, reserve = some z → 0 ≤ z) {v : ℤ} (hv : 0 ≤ v) :
    v + heldRest reserve v = max (reserve.getD 0) v := by
  cases reserve with
  | none =>
    show v + 0 = max 0 v
    omega
  | some z =>
    show v + max (z - v) 0 = max z v
    omega

/-- A counted dimension is charged by its measurement, or it is still held. -/
structure Counts (a : Attempt) (key : EpicDimension) : Prop where
  held : ∀ v, a.counted key = some v → (a.stillHeld key v = true ↔ a.measurement key = none)
  same : ∀ v, a.measurement key = some v → a.counted key = some v

theorem counts_tools (a : Attempt) : a.Counts .toolCallCount := by
  have hheld : ∀ v, a.stillHeld .toolCallCount v =
      !(a.processSettled && !truthy (get a.usageDict "tool_call_count_unknown")) := by
    intro v
    cases hs : a.processSettled <;> cases ht : truthy (get a.usageDict "tool_call_count_unknown") <;>
      simp [stillHeld, hs, ht]
  refine ⟨?_, ?_⟩
  · intro v hv
    rw [hheld, measurement, hv]
    cases (a.processSettled && !truthy (get a.usageDict "tool_call_count_unknown")) <;> simp
  · intro v hv
    rw [measurement] at hv
    split at hv
    · exact hv
    · cases hv

theorem counts_tokens (a : Attempt) {key : EpicDimension} (hkey : key = .inputTokens ∨ key = .outputTokens) :
    a.Counts key := by
  have hcounted : a.counted key = a.measured key := counted_eq (by rcases hkey with rfl | rfl <;> decide)
  have hmeasurement : a.measurement key = a.measured key := by rcases hkey with rfl | rfl <;> rfl
  refine ⟨?_, ?_⟩
  · intro v hv
    rw [hcounted] at hv
    have hsettled := measured_settled hv
    rw [hmeasurement, hv]
    rcases hkey with rfl | rfl <;> simp [stillHeld, hsettled]
  · intro v hv
    rw [hcounted, ← hmeasurement]
    exact hv

theorem counts_money (a : Attempt) : a.Counts .estimatedApiCostMinor := by
  have hcounted : a.counted .estimatedApiCostMinor = a.measured .estimatedApiCostMinor := counted_eq (by decide)
  refine ⟨?_, ?_⟩
  · intro v hv
    rw [hcounted] at hv
    have hsettled := measured_settled hv
    rw [measurement, hv, Option.filter_some]
    cases hk : (a.usageKnown == some true) <;>
      cases hc : (isNone (get a.usageDict "currency") && decide (0 < v)) <;>
      simp [stillHeld, hsettled, bne, hk, hc]
  · intro v hv
    rw [hcounted]
    exact (Option.filter_eq_some_iff.mp hv).1

end Attempt

/-! ### Each dimension -/

/-- What the charge of a dimension promises. -/
structure Conservative (a : Attempt) (key : EpicDimension) (charge : Charge) : Prop where
  charged : 0 ≤ charge.charged
  held : 0 ≤ charge.held
  unmeasured : a.measurement key = none → charge.charged + charge.held = max ((a.reserve key).getD 0) (a.known key)
  measured : ∀ v, a.measurement key = some v → charge = ⟨v, 0⟩

variable {a : Attempt}

theorem chargeDuration_conservative (h : a.Reserved) : Conservative a .durationMs a.chargeDuration := by
  obtain ⟨hcharged, hheld⟩ := chargeDuration_nonneg a
  have hlower := durationFloor_nonneg a.usageDict
  have htotal := Attempt.heldRest_total (h .durationMs) hlower
  have hmeasurement : a.measurement .durationMs =
      (a.measured .durationMs).filter fun v => durationFloor a.usageDict ≤ v := rfl
  have hknown : a.known .durationMs = durationFloor a.usageDict := rfl
  refine ⟨hcharged, hheld, ?_, ?_⟩
  · intro hnone
    rw [hmeasurement] at hnone
    rw [hknown, ← htotal]
    unfold Attempt.chargeDuration
    cases hm : a.measured .durationMs with
    | none => rfl
    | some v =>
      have hlow : ¬ durationFloor a.usageDict ≤ v := by
        intro hle
        rw [hm, Option.filter_some, if_pos (decide_eq_true hle)] at hnone
        cases hnone
      simp only [if_neg hlow]
  · intro v hv
    rw [hmeasurement, Option.filter_eq_some_iff, decide_eq_true_eq] at hv
    unfold Attempt.chargeDuration
    simp only [hv.1, if_pos hv.2]

theorem chargeMeasured_conservative (h : a.Reserved) {key : EpicDimension} (hkey : key ≠ .durationMs)
    (hcounts : a.Counts key) : Conservative a key (a.chargeMeasured key) := by
  obtain ⟨hcharged, hheld⟩ := chargeMeasured_nonneg a h key
  have hknown : a.known key = (a.counted key).getD 0 := if_neg hkey
  refine ⟨hcharged, hheld, ?_, ?_⟩
  · intro hnone
    rw [hknown, Attempt.chargeMeasured_eq]
    cases hc : a.counted key with
    | none =>
      have hreserve : 0 ≤ (a.reserve key).getD 0 := by
        cases hr : a.reserve key with
        | none => exact le_rfl
        | some z => exact h key z hr
      show 0 + (a.reserve key).getD 0 = max ((a.reserve key).getD 0) 0
      omega
    | some v =>
      have hstill := (hcounts.held v hc).mpr hnone
      simp only [hstill, if_true, Option.getD_some]
      exact Attempt.heldRest_total (h key) (Attempt.counted_nonneg hc)
  · intro v hv
    have hcounted := hcounts.same v hv
    have hstill : ¬ a.stillHeld key v = true := by
      rw [hcounts.held v hcounted, hv]
      exact fun hnone => nomatch hnone
    rw [Attempt.chargeMeasured_eq, hcounted]
    simp only [if_neg hstill]

theorem charge_conservative (h : a.Reserved) {key : EpicDimension} (hkey : key ≠ .providerAttempts) :
    Conservative a key (a.charge key) := by
  cases key with
  | durationMs => exact chargeDuration_conservative h
  | toolCallCount => exact chargeMeasured_conservative h (by decide) a.counts_tools
  | inputTokens => exact chargeMeasured_conservative h (by decide) (a.counts_tokens (Or.inl rfl))
  | outputTokens => exact chargeMeasured_conservative h (by decide) (a.counts_tokens (Or.inr rfl))
  | estimatedApiCostMinor => exact chargeMeasured_conservative h (by decide) a.counts_money
  | providerAttempts => exact absurd rfl hkey

theorem charged_one (a : Attempt) (key : EpicDimension) : charged [a] key = (a.charge key).charged := by
  simp [charged]

theorem held_one (a : Attempt) (key : EpicDimension) : held [a] key = (a.charge key).held := by
  simp [held]

/-- Nothing negative is charged or held; while a dimension is not measured, both come to the larger of the
reservation and the known usage, and a measured one is charged as measured. -/
theorem charges_conservative (a : Attempt) (h : a.Reserved) (key : EpicDimension) (hkey : key ≠ .providerAttempts) :
    0 ≤ charged [a] key ∧ 0 ≤ held [a] key ∧
      (a.measurement key = none → charged [a] key + held [a] key = max ((a.reserve key).getD 0) (a.known key)) ∧
      ∀ v, a.measurement key = some v → charged [a] key = v ∧ held [a] key = 0 := by
  have hcharge := charge_conservative h hkey
  rw [charged_one, held_one]
  refine ⟨hcharge.charged, hcharge.held, hcharge.unmeasured, fun v hv => ?_⟩
  rw [hcharge.measured v hv]
  exact ⟨rfl, rfl⟩

/-- An attempt whose process has settled before its usage was recorded. -/
def settledUnrecorded : Attempt where
  jobId := 1
  number := 1
  processStarted := true
  processSettled := true
  usage := none
  reservation := reservationValue fun _ => some 10
  usageKnown := none
  toolCallsUsed := 3

theorem settledUnrecorded_reserved : settledUnrecorded.Reserved := by
  intro key z hz
  have hten : z = 10 := by
    cases key <;> cases hz <;> rfl
  omega

theorem charges_conservative_unrecorded : settledUnrecorded.measurement .inputTokens = none ∧
    charged [settledUnrecorded] .inputTokens + held [settledUnrecorded] .inputTokens = 10 := by
  have hlaw := charges_conservative settledUnrecorded settledUnrecorded_reserved .inputTokens (by decide)
  exact ⟨by decide, hlaw.2.2.1 (by decide)⟩

/-- Its tool calls are charged by its own count, and the rest of their reservation is not held, although its
usage does not tell them. -/
theorem unrecorded_tools_not_held :
    settledUnrecorded.reserve .toolCallCount = some 10 ∧
      boundedMeasurement (get settledUnrecorded.usageDict "tool_call_count") = none ∧
      charged [settledUnrecorded] .toolCallCount + held [settledUnrecorded] .toolCallCount = 3 := by
  decide

end ParallelForge.Brainstorm
