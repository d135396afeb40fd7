import ParallelForge.Base.Uuid
import ParallelForge.Run.Snapshot
import ParallelForge.Usage.CheckpointMachine
import ParallelForge.Usage.Totals
import Mathlib.Data.Rat.Floor

/-!
# Owner commands on a run checkpoint (`application/services/task_usage_controls.py`)

`continue` moves the next checkpoint one reference past the measured total, and
`evaluate_run_usage` (`domain/task_usage_monitor.py`) compares the totals with
it. What the transaction reads outside the checkpoints is a parameter; the
totals are read twice, for the threshold and for the snapshot.
-/

namespace ParallelForge.Usage
open Base Run

/-- `BaselineReference`, without what no control reads. Its numbers are finite and so rational. -/
structure BaselineReference where
  subject : SubjectKey
  referenceTokens : Option ℚ
  warningThresholdTokens : Option ℚ
  checkpointThresholdTokens : Option ℚ
  nonneg : ∀ r, referenceTokens = some r ∨ warningThresholdTokens = some r ∨
    checkpointThresholdTokens = some r → 0 ≤ r
  ordered : ∀ w c, warningThresholdTokens = some w → checkpointThresholdTokens = some c → w ≤ c

inductive MonitorDecision
  | reportOnly
  | warning
  | checkpoint
  deriving DecidableEq, Repr

def MonitorDecision.level : MonitorDecision → ℕ
  | .reportOnly => 0
  | .warning => 1
  | .checkpoint => 2

/-- `next_checkpoint_threshold_tokens or baseline.checkpoint_threshold_tokens`. -/
def checkpointLimit (baseline : BaselineReference) (nextCheckpointThresholdTokens : Option ℕ) :
    Option ℚ :=
  match nextCheckpointThresholdTokens with
  | some next => if next ≠ 0 then some next else baseline.checkpointThresholdTokens
  | none => baseline.checkpointThresholdTokens

/-- `threshold is not None and measured_tokens >= threshold`. -/
def reaches (threshold : Option ℚ) (measuredTokens : ℤ) : Bool :=
  threshold.any fun t : ℚ => t ≤ (measuredTokens : ℚ)

/-- `evaluate_run_usage`. -/
def evaluateRunUsage (baseline : Option BaselineReference) (policy : MonitoringPolicy)
    (measuredTokens : Option ℤ) (completeness : Completeness)
    (nextCheckpointThresholdTokens : Option ℕ) (usagePausesDisabled : Bool) :
    Except String MonitorDecision :=
  match measuredTokens, baseline with
  | some measuredTokens, some baseline =>
    if completeness = .unknown then .ok .reportOnly
    else do
      require (0 ≤ measuredTokens) "invalid measured usage"
      require (baseline.subject.projectId = policy.projectId)
        "monitor policy differs from subject project"
      if policy.mode = .checkpoint ∧ usagePausesDisabled = false ∧
          reaches (checkpointLimit baseline nextCheckpointThresholdTokens) measuredTokens = true then
        return .checkpoint
      else if (policy.mode = .checkpoint ∨ policy.mode = .warn) ∧
          reaches baseline.warningThresholdTokens measuredTokens = true then
        return .warning
      else return .reportOnly
  | _, _ => .ok .reportOnly

/-- `max(1, ceil(reference.reference_tokens or 0))`. -/
def referenceStep (reference : BaselineReference) : ℕ :=
  max 1 ⌈reference.referenceTokens.getD 0⌉.toNat

/-- `next_threshold`. -/
def nextThreshold (reference : BaselineReference) (measuredTokens : ℕ) : Except String ℕ := do
  require (measuredTokens ≤ maxSignedBigint) "measured usage is invalid"
  let threshold := measuredTokens + referenceStep reference
  require (threshold ≤ maxSignedBigint) "next checkpoint threshold exceeds signed-64-bit range"
  return threshold

/-- `known_total_tokens`. -/
def knownTotalTokens (totals : UsageTotals) : Except String (Option ℕ) := do
  let known := [totals.inputTokens, totals.outputTokens].filterMap id
  if known.isEmpty then return none
  else do
    require (known.sum ≤ maxSignedBigint) "work-unit usage exceeds signed-64-bit range"
    return some known.sum

/-! ### Owner commands -/

/-- `reviewPlanFirst` is absent when the run has no workflow. -/
structure ControlledRun where
  projectId : UUID
  state : RunState
  reviewPlanFirst : Option Bool
  version : ℕ

structure QueuedCommand where
  runId : UUID
  commandType : String
  idempotencyKey : Str
  expectedRunVersion : ℕ
  actorId : UUID

/-- What the transaction finds outside the checkpoints. -/
structure ControlReads where
  run : Option ControlledRun
  quiescent : Bool
  totals : Except String UsageTotals
  snapshotDigest : Except String String
  baseline : UUID → Option BaselineReference
  appendPolicyRevision : MonitoringPolicy → ℤ → Except String Unit
  commandColumn : CommandColumn
  enqueue : QueuedCommand → Except String Unit

/-- What a command asks of its checkpoint, and what it does besides. -/
structure Settlement where
  state : CheckpointState
  nextLimit : Option ℕ := none
  bypass : Option Bool := none
  revision : Option ℕ := none
  queued : List QueuedCommand := []
  admissionClosed : Bool := false

def setPolicySettlement (reads : ControlReads) (subject : SubjectKey) (current : CheckpointRecord)
    (command : OwnerCommand) : Except String Settlement := do
  require (current.state = .paused) "run must settle before changing checkpoint policy"
  let requested ← orRaise command.requestedPolicy ""
  require (requested.projectId = subject.projectId) "policy belongs to another project"
  reads.appendPolicyRevision requested ((requested.revision : ℤ) - 1)
  return { state := current.state, revision := some requested.revision }

def continueSettlement (reads : ControlReads) (run : ControlledRun) (current : CheckpointRecord)
    (command : OwnerCommand) : Except String Settlement := do
  require (current.state = .paused → run.state ∉ [.paused, .cancelled, .failed, .completed])
    "independent run control blocks continuation"
  require (current.state = .paused → reads.quiescent = true) "run process or effect is unsettled"
  if command.continueMode = some .withoutUsagePauses then
    return { state := .resumed, bypass := some true }
  else do
    let totals ← reads.totals
    let known ← knownTotalTokens totals
    let measured ← orRaise known "measured usage is unavailable for next checkpoint"
    let reference ← orRaise (reads.baseline current.baselineBinding.workUnitId)
      "frozen checkpoint reference is missing"
    let nextLimit ← nextThreshold reference measured
    return { state := .resumed, nextLimit := some nextLimit, bypass := some false }

def stopSettlement (reads : ControlReads) (runId : UUID) (run : ControlledRun)
    (current : CheckpointRecord) (command : OwnerCommand) : Except String Settlement := do
  require (current.state = .paused) "run must settle before stop"
  let cancel : QueuedCommand :=
    { runId := runId
      commandType := "cancel"
      idempotencyKey := codes "usage-stop:" ++ uuidText command.checkpointId ++ codes ":" ++
        codes command.idempotencyKey
      expectedRunVersion := run.version
      actorId := command.actorId }
  reads.enqueue cancel
  return { state := .resolved, queued := [cancel], admissionClosed := true }

def settlementOf (reads : ControlReads) (runId : UUID) (run : ControlledRun) (subject : SubjectKey)
    (current : CheckpointRecord) (command : OwnerCommand) : Except String Settlement :=
  match command.action with
  | .setPolicy => setPolicySettlement reads subject current command
  | .continue => continueSettlement reads run current command
  | .stop => stopSettlement reads runId run current command
  | .resume | .resolve | .overrideCheckpoint => .error "unsupported run checkpoint owner action"

/-- `continue_plan` is queued for a run that waits for its plan without an owner's review. -/
def continuedPlan (runId : UUID) (run : ControlledRun) (command : OwnerCommand)
    (receipt : OwnerCommandReceipt) : List QueuedCommand :=
  if command.action = .continue ∧ run.state = .awaitingPlanApproval ∧
      run.reviewPlanFirst = some false then
    [{ runId := runId
       commandType := "continue_plan"
       idempotencyKey := uuidText runId ++ codes ":continue-plan:checkpoint:" ++
         uuidText receipt.commandId
       expectedRunVersion := run.version
       actorId := command.actorId }]
  else []

/-- `PostgresTaskUsageCheckpointRepository.get`. -/
def getCheckpoint (s : CheckpointStore) (id : UUID) : Except String (Option CheckpointRecord) :=
  match s.checkpoints.get id with
  | none => .ok none
  | some row => some <$> record id row

structure ControlEffects where
  store : CheckpointStore
  receipt : OwnerCommandReceipt
  checkpoint : CheckpointRecord
  queued : List QueuedCommand
  admissionClosed : Bool

/-- `RunTaskUsageControls.apply`. -/
def applyControl (s : CheckpointStore) (reads : ControlReads) (runId actorId : UUID)
    (command : OwnerCommand) : Except String ControlEffects := do
  require (actorId = command.actorId) "owner command actor differs from authenticated session"
  let run ← orRaise reads.run "run is missing"
  let subject : SubjectKey := ⟨run.projectId, .run, runId⟩
  let found ← getCheckpoint s command.checkpointId
  let current ← orRaise (found.filter fun c => c.binding.subject = subject)
    "checkpoint does not belong to the authorized run"
  match ← receiptForCommand s command with
  | some replay => return ⟨s, replay, current, [], false⟩
  | none => do
    let latest ← latestForSubject s subject
    require (latest.any (fun l => l.checkpointId == current.checkpointId) = true)
      "checkpoint is no longer the current generation"
    let settlement ← settlementOf reads runId run subject current command
    let snapshot ← reads.snapshotDigest
    let (s', receipt) ← applyOwnerCommand reads.commandColumn s command
      { state := settlement.state
        affectedSnapshot := snapshot
        nextCheckpointThresholdTokens := settlement.nextLimit
        usagePausesDisabled := settlement.bypass
        monitoringPolicyRevision := settlement.revision }
    let continued := continuedPlan runId run command receipt
    continued.forM reads.enqueue
    let found ← getCheckpoint s' current.checkpointId
    let updated ← orRaise found ""
    return ⟨s', receipt, updated, settlement.queued ++ continued, settlement.admissionClosed⟩

/-! ### The decision -/

/-- The policy pauses the run at this total. -/
def Pauses (baseline : BaselineReference) (policy : MonitoringPolicy) (completeness : Completeness)
    (next : Option ℕ) (disabled : Bool) (measured : ℤ) : Prop :=
  completeness ≠ .unknown ∧ policy.mode = .checkpoint ∧ disabled = false ∧
    reaches (checkpointLimit baseline next) measured = true

def Warns (baseline : BaselineReference) (policy : MonitoringPolicy) (completeness : Completeness)
    (measured : ℤ) : Prop :=
  completeness ≠ .unknown ∧ (policy.mode = .checkpoint ∨ policy.mode = .warn) ∧
    reaches baseline.warningThresholdTokens measured = true

instance (baseline : BaselineReference) (policy : MonitoringPolicy) (completeness : Completeness)
    (next : Option ℕ) (disabled : Bool) (measured : ℤ) :
    Decidable (Pauses baseline policy completeness next disabled measured) :=
  inferInstanceAs (Decidable (_ ∧ _))

instance (baseline : BaselineReference) (policy : MonitoringPolicy) (completeness : Completeness)
    (measured : ℤ) : Decidable (Warns baseline policy completeness measured) :=
  inferInstanceAs (Decidable (_ ∧ _))

/- The decision of a known total. -/
theorem evaluateRunUsage_eq_ok (baseline : BaselineReference) (policy : MonitoringPolicy)
    (measured : ℤ) (completeness : Completeness) (next : Option ℕ) (disabled : Bool)
    (decision : MonitorDecision)
    (h : evaluateRunUsage (some baseline) policy (some measured) completeness next disabled =
      .ok decision) :
    decision = if Pauses baseline policy completeness next disabled measured then .checkpoint
      else if Warns baseline policy completeness measured then .warning else .reportOnly := by
  unfold evaluateRunUsage at h
  by_cases hunknown : completeness = .unknown
  · simp only [hunknown, if_true] at h
    cases h
    simp [Pauses, Warns, hunknown]
  · simp only [hunknown, if_false, bind_eq_ok, require_eq_ok] at h
    obtain ⟨_, _, _, _, h⟩ := h
    simp only [Pauses, Warns, ne_eq, hunknown, not_false_eq_true, true_and]
    split at h
    · rename_i hpauses
      cases h
      rw [if_pos hpauses]
    · rename_i hnot
      rw [if_neg hnot]
      split at h
      · rename_i hwarns
        cases h
        rw [if_pos hwarns]
      · rename_i hquiet
        cases h
        rw [if_neg hquiet]

theorem reaches_mono (threshold : Option ℚ) (m m' : ℤ) (h : m ≤ m')
    (hm : reaches threshold m = true) : reaches threshold m' = true := by
  cases threshold with
  | none => cases hm
  | some t =>
    have ht : t ≤ (m : ℚ) := of_decide_eq_true hm
    have hcast : (m : ℚ) ≤ m' := Int.cast_le.mpr h
    exact decide_eq_true (ht.trans hcast)

theorem evaluateRunUsage_mono (baseline : Option BaselineReference) (policy : MonitoringPolicy)
    (measured measured' : ℤ) (hgrows : measured ≤ measured') (completeness : Completeness)
    (next : Option ℕ) (disabled : Bool) (decision decision' : MonitorDecision)
    (h : evaluateRunUsage baseline policy (some measured) completeness next disabled = .ok decision)
    (h' : evaluateRunUsage baseline policy (some measured') completeness next disabled =
      .ok decision') : decision.level ≤ decision'.level := by
  cases baseline with
  | none =>
    cases h
    exact Nat.zero_le _
  | some baseline =>
    have hpauses : Pauses baseline policy completeness next disabled measured →
        Pauses baseline policy completeness next disabled measured' := by
      intro ⟨hknown, hmode, henabled, hreached⟩
      exact ⟨hknown, hmode, henabled, reaches_mono _ _ _ hgrows hreached⟩
    have hwarns : Warns baseline policy completeness measured →
        Warns baseline policy completeness measured' := by
      intro ⟨hknown, hmode, hreached⟩
      exact ⟨hknown, hmode, reaches_mono _ _ _ hgrows hreached⟩
    rw [evaluateRunUsage_eq_ok _ _ _ _ _ _ _ h, evaluateRunUsage_eq_ok _ _ _ _ _ _ _ h']
    by_cases hp' : Pauses baseline policy completeness next disabled measured'
    · rw [if_pos hp']
      split
      · exact le_rfl
      · split
        · exact Nat.le_succ 1
        · exact Nat.zero_le 2
    · have hp : ¬Pauses baseline policy completeness next disabled measured :=
        fun hp => hp' (hpauses hp)
      rw [if_neg hp, if_neg hp']
      by_cases hw : Warns baseline policy completeness measured
      · rw [if_pos hw, if_pos (hwarns hw)]
      · rw [if_neg hw]
        exact Nat.zero_le _

/-! ### Continuing -/

theorem nextThreshold_eq_ok (reference : BaselineReference) (measured next : ℕ)
    (h : nextThreshold reference measured = .ok next) :
    next = measured + referenceStep reference := by
  unfold nextThreshold at h
  simp only [bind_eq_ok, require_eq_ok] at h
  obtain ⟨_, _, _, _, h⟩ := h
  cases h
  rfl

theorem referenceStep_pos (reference : BaselineReference) : 0 < referenceStep reference :=
  lt_of_lt_of_le Nat.zero_lt_one (le_max_left 1 _)

/- A threshold that is set is the limit, and the total reaches it as a number. -/
theorem reaches_checkpointLimit (baseline : BaselineReference) (next : ℕ) (hnext : 0 < next)
    (measured : ℤ) :
    reaches (checkpointLimit baseline (some next)) measured = true ↔ (next : ℤ) ≤ measured := by
  have hne : next ≠ 0 := Nat.pos_iff_ne_zero.mp hnext
  unfold checkpointLimit reaches
  simp only [if_pos hne, Option.any_some, decide_eq_true_eq]
  rw [← Int.cast_natCast next, Int.cast_le]

theorem continueSettlement_eq_ok (reads : ControlReads) (run : ControlledRun)
    (current : CheckpointRecord) (command : OwnerCommand) (settlement : Settlement)
    (hmode : command.continueMode ≠ some .withoutUsagePauses)
    (h : continueSettlement reads run current command = .ok settlement) :
    ∃ totals measured reference, reads.totals = .ok totals ∧
      knownTotalTokens totals = .ok (some measured) ∧
      reads.baseline current.baselineBinding.workUnitId = some reference ∧
      settlement.nextLimit = some (measured + referenceStep reference) ∧
      settlement.bypass = some false := by
  unfold continueSettlement at h
  simp only [bind_eq_ok, require_eq_ok, if_neg hmode, orRaise_eq_ok] at h
  obtain ⟨_, _, _, _, totals, htotals, known, hknown, measured, hmeasured, reference, hreference,
    next, hnext, h⟩ := h
  cases h
  rw [nextThreshold_eq_ok reference measured next hnext]
  exact ⟨totals, measured, reference, htotals, hmeasured ▸ hknown, hreference, rfl, rfl⟩

theorem getCheckpoint_eq_some (s : CheckpointStore) (id : UUID) (r : CheckpointRecord)
    (h : getCheckpoint s id = .ok (some r)) :
    ∃ row, s.checkpoints.get id = some row ∧ r.checkpointId = id ∧
      r.baselineBinding = row.baselineBinding ∧
      r.nextCheckpointThresholdTokens = row.nextCheckpointThresholdTokens ∧
      r.usagePausesDisabled = row.usagePausesDisabled := by
  unfold getCheckpoint at h
  cases hrow : s.checkpoints.get id with
  | none =>
    rw [hrow] at h
    cases h
  | some row =>
    rw [hrow] at h
    change (record id row).map some = .ok (some r) at h
    rw [map_eq_ok] at h
    obtain ⟨r', hr', hsome⟩ := h
    cases hsome
    unfold record at hr'
    rw [bind_eq_ok] at hr'
    obtain ⟨_, _, hr'⟩ := hr'
    cases hr'
    exact ⟨row, rfl, rfl, rfl, rfl, rfl⟩

/- A fresh `continue` to the next checkpoint leaves a threshold one reference past the total. -/
theorem applyControl_continue (s : CheckpointStore) (reads : ControlReads) (runId actorId : UUID)
    (command : OwnerCommand) (effects : ControlEffects)
    (h : applyControl s reads runId actorId command = .ok effects)
    (hcontinue : command.action = .continue)
    (hmode : command.continueMode ≠ some .withoutUsagePauses)
    (hfresh : effects.receipt.replayed = false) :
    ∃ totals measured reference, reads.totals = .ok totals ∧
      knownTotalTokens totals = .ok (some measured) ∧
      reads.baseline effects.checkpoint.baselineBinding.workUnitId = some reference ∧
      effects.checkpoint.nextCheckpointThresholdTokens =
        some (measured + referenceStep reference) ∧
      effects.checkpoint.usagePausesDisabled = false := by
  unfold applyControl at h
  simp only [bind_eq_ok, require_eq_ok, orRaise_eq_ok] at h
  obtain ⟨_, _, run, _, found, hfound, current, hcurrent, prior, hprior, h⟩ := h
  obtain ⟨hcurrent, _⟩ := Option.filter_eq_some_iff.mp hcurrent
  subst hcurrent
  obtain ⟨row, hrow, hid, hbinding, _, _⟩ := getCheckpoint_eq_some _ _ _ hfound
  cases prior with
  | some replay =>
    cases h
    obtain ⟨_, _, _, _, _, hreceipt⟩ := receiptForCommand_eq_some _ _ _ hprior
    rw [hreceipt] at hfresh
    cases hfresh
  | none =>
    simp only [bind_eq_ok, require_eq_ok, orRaise_eq_ok] at h
    obtain ⟨_, _, _, _, settlement, hsettlement, snapshot, _, ⟨s', receipt⟩, happlied, _, _, found',
      hfound', updated, hupdated, h⟩ := h
    cases h
    subst hupdated
    unfold settlementOf at hsettlement
    rw [hcontinue] at hsettlement
    obtain ⟨totals, measured, reference, htotals, hmeasured, hreference, hlimit, hbypass⟩ :=
      continueSettlement_eq_ok _ _ _ _ _ hmode hsettlement
    rcases applyOwnerCommand_cases _ _ _ _ _ _ happlied with ⟨_, hreplay, _⟩ | happlied
    · rw [hprior] at hreplay
      cases hreplay
    · obtain ⟨row₀, hrow₀, _, _, _, _, _, hstore, _⟩ := happlied
      rw [hrow] at hrow₀
      cases hrow₀
      obtain ⟨row', hrow', _, hbinding', hnext', hdisabled'⟩ := getCheckpoint_eq_some _ _ _ hfound'
      rw [hstore, hid] at hrow'
      simp only [Table.get_put_self] at hrow'
      cases hrow'
      refine ⟨totals, measured, reference, htotals, hmeasured, ?_, ?_, ?_⟩
      · rw [hbinding', ← hreference, hbinding]
        rfl
      · rw [hnext']
        simp [commandedRow, hlimit]
      · rw [hdisabled']
        simp [commandedRow, hbypass]

/- With a threshold set, the decision is `checkpoint` only from it on. -/
theorem evaluateRunUsage_checkpoint (baseline : Option BaselineReference)
    (policy : MonitoringPolicy) (measured : Option ℤ) (completeness : Completeness) (next : ℕ)
    (hnext : 0 < next) (decision : MonitorDecision)
    (h : evaluateRunUsage baseline policy measured completeness (some next) false =
      .ok decision) :
    decision = .checkpoint ↔ ∃ m, measured = some m ∧ (next : ℤ) ≤ m ∧ baseline ≠ none ∧
      completeness ≠ .unknown ∧ policy.mode = .checkpoint := by
  cases measured with
  | none =>
    cases h
    simp
  | some m =>
    cases baseline with
    | none =>
      cases h
      simp
    | some baseline =>
      have hdecision := evaluateRunUsage_eq_ok _ _ _ _ _ _ _ h
      have hreaches := reaches_checkpointLimit baseline next hnext m
      rw [hdecision]
      by_cases hp : Pauses baseline policy completeness (some next) false m
      · rw [if_pos hp]
        obtain ⟨hknown, hpolicy, _, hreached⟩ := hp
        exact iff_of_true rfl ⟨m, rfl, hreaches.mp hreached, nofun, hknown, hpolicy⟩
      · rw [if_neg hp]
        refine iff_of_false ?_ ?_
        · split <;> exact nofun
        · intro ⟨m', hm', hreached, _, hknown, hpolicy⟩
          cases hm'
          exact hp ⟨hknown, hpolicy, rfl, hreaches.mpr hreached⟩

/-- After an owner's `continue` to the next checkpoint the run is not paused again, on these totals
or later ones, before it has used `max(1, ceil(reference))` tokens more, and then it is; and the
level only rises with the measured tokens. -/
theorem usage_continuation_progress (s : CheckpointStore) (reads : ControlReads)
    (runId actorId : UUID) (command : OwnerCommand) (effects : ControlEffects)
    (h : applyControl s reads runId actorId command = .ok effects)
    (hcontinue : command.action = .continue)
    (hmode : command.continueMode ≠ some .withoutUsagePauses)
    (hfresh : effects.receipt.replayed = false) :
    ∃ totals measured reference, reads.totals = .ok totals ∧
      knownTotalTokens totals = .ok (some measured) ∧
      reads.baseline effects.checkpoint.baselineBinding.workUnitId = some reference ∧
      0 < referenceStep reference ∧
      (∀ baseline policy later completeness decision,
        evaluateRunUsage baseline policy later completeness
          effects.checkpoint.nextCheckpointThresholdTokens effects.checkpoint.usagePausesDisabled =
            .ok decision →
        (decision = .checkpoint ↔ ∃ m, later = some m ∧ measured + referenceStep reference ≤ m ∧
          baseline ≠ none ∧ completeness ≠ .unknown ∧ policy.mode = .checkpoint)) ∧
      ∀ baseline policy (m m' : ℤ) completeness next disabled decision decision', m ≤ m' →
        evaluateRunUsage baseline policy (some m) completeness next disabled = .ok decision →
        evaluateRunUsage baseline policy (some m') completeness next disabled = .ok decision' →
        decision.level ≤ decision'.level := by
  obtain ⟨totals, measured, reference, htotals, hmeasured, hreference, hnext, hdisabled⟩ :=
    applyControl_continue s reads runId actorId command effects h hcontinue hmode hfresh
  have hstep := referenceStep_pos reference
  refine ⟨totals, measured, reference, htotals, hmeasured, hreference, hstep, ?_, ?_⟩
  · intro baseline policy later completeness decision hdecision
    rw [hnext, hdisabled] at hdecision
    have hpos : 0 < measured + referenceStep reference := by omega
    have hiff := evaluateRunUsage_checkpoint _ _ _ _ _ hpos _ hdecision
    rw [hiff]
    simp only [Nat.cast_add]
  · intro baseline policy m m' completeness next disabled decision decision' hle hm hm'
    exact evaluateRunUsage_mono baseline policy m m' hle completeness next disabled _ _ hm hm'

/-- A run paused at 2100 tokens, with a reference of 1000, that the owner continues. -/
def pausedBinding : WorkUnitBinding where
  subject := ⟨7, .run, 8⟩
  workUnitId := 9
  admittedPhaseId := "implement"
  configuredRoute := ⟨"route", []⟩
  effectiveRoute := ⟨"route", []⟩
  source := ⟨.agentExecution, 10, none⟩

def sampleDigest : String := String.ofList (List.replicate 64 'a')

def pausedStore : CheckpointStore where
  checkpoints := Table.empty.put 1
    { binding := pausedBinding
      baselineBinding := pausedBinding
      state := .paused
      policyRevision := 1
      referenceDigest := sampleDigest
      triggerEventId := "event"
      version := 2
      generation := 1
      processSettled := true
      nextCheckpointThresholdTokens := none
      usagePausesDisabled := false
      monitoringPolicyRevision := none
      createdAt := 0 }
  commands := Table.empty

def continueCommand : OwnerCommand where
  commandId := 2
  checkpointId := 1
  expectedVersion := 2
  idempotencyKey := "key"
  action := .continue
  actorId := 3
  overrideNote := none
  continueMode := some .nextCheckpoint
  requestedPolicy := none

def thousand : BaselineReference where
  subject := ⟨7, .run, 8⟩
  referenceTokens := some 1000
  warningThresholdTokens := none
  checkpointThresholdTokens := none
  nonneg := by simp
  ordered := nofun

def pausedReads : ControlReads where
  run := some ⟨7, .implementing, some false, 4⟩
  quiescent := true
  totals := .ok ⟨1, 0, some 1500, some 600, none, none, .complete, []⟩
  snapshotDigest := .ok sampleDigest
  baseline := fun _ => some thousand
  appendPolicyRevision := fun _ _ => .ok ()
  commandColumn := some
  enqueue := fun _ => .ok ()

theorem usage_continuation_progress_paused :
    ∃ effects, applyControl pausedStore pausedReads 8 3 continueCommand = .ok effects ∧
      ∀ baseline policy later completeness decision,
        evaluateRunUsage baseline policy later completeness
          effects.checkpoint.nextCheckpointThresholdTokens effects.checkpoint.usagePausesDisabled =
            .ok decision →
        decision = .checkpoint → ∃ m, later = some m ∧ 3100 ≤ m := by
  refine ⟨_, rfl, ?_⟩
  intro baseline policy later completeness decision hdecision hcheckpoint
  obtain ⟨totals, measured, reference, htotals, hmeasured, hreference, _, hexact, _⟩ :=
    usage_continuation_progress pausedStore pausedReads 8 3 continueCommand _ rfl rfl nofun rfl
  cases htotals
  cases hmeasured
  cases hreference
  obtain ⟨m, hm, hreached, _⟩ := (hexact _ _ _ _ _ hdecision).mp hcheckpoint
  exact ⟨m, hm, hreached⟩

end ParallelForge.Usage
