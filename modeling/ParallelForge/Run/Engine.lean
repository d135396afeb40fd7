import ParallelForge.Run.Snapshot

/-!
# The state engine (`application/services/state_engine.py`)

Targets are typed `RunState`, so `_coerce_state` is the identity. Every
operation is a guard followed by one `with_state`.
-/

namespace ParallelForge.Run
open Base RunState

inductive EngineError
  | invalidTransition (current : RunState) (target : Option RunState) (reason : Option String)
  | typeError (message : String)
  | valueError (message : String)
  deriving DecidableEq, Repr

/-- `LEGAL` (`state_engine.py:13-120`). -/
def legal : RunState → List RunState
  | created => [planning, cancelled]
  | planning =>
    [awaitingPlanApproval, preparingWorktree, awaitingHumanIntervention, failed, cancelled]
  | awaitingPlanApproval => [planning, preparingWorktree, cancelled]
  | preparingWorktree => [implementing, awaitingHumanIntervention, failed, cancelled]
  | implementing => [validating, awaitingHumanIntervention, failed, cancelled]
  | validating =>
    [reviewing, awaitingPrApproval, monitoringPr, remediating, awaitingHumanIntervention, failed,
      cancelled]
  | reviewing =>
    [remediating, awaitingPrApproval, monitoringPr, awaitingHumanIntervention, failed, cancelled]
  | remediating => [validating, awaitingHumanIntervention, failed, cancelled]
  | awaitingPrApproval => [remediating, publishingPr, awaitingHumanIntervention, cancelled]
  | publishingPr => [monitoringPr, awaitingHumanIntervention, failed, cancelled]
  | monitoringPr =>
    [remediating, awaitingMergeApproval, awaitingHumanIntervention, failed, cancelled]
  | awaitingHumanIntervention => [cancelled, failed]
  | awaitingMergeApproval => [monitoringPr, merging, awaitingHumanIntervention, cancelled]
  | merging => [completed, monitoringPr, awaitingHumanIntervention, failed]
  | paused => [cancelled]
  | completed => []
  | failed => []
  | cancelled => []

/-- The states a run can be suspended from for a human decision. -/
def canIntervene (s : RunState) : Bool := (legal s).contains awaitingHumanIntervention

def RunSnapshot.withStateE (r : RunSnapshot) (state : RunState)
    (suspendedState : Option RunState) (suspensionKind : Option SuspensionKind)
    (suspensionContext : Option SuspensionContext) (pendingGate : Option ApprovalGate)
    (pendingEvidenceDigest : Option String) : Except EngineError RunSnapshot :=
  (r.withState state suspendedState suspensionKind suspensionContext pendingGate
    pendingEvidenceDigest).mapError .valueError

/-- `transition` (`state_engine.py:146-158`): approval targets are refused, every
other target listed in `LEGAL` is taken. -/
def transition (run : RunSnapshot) (target : RunState) : Except EngineError RunSnapshot :=
  if isApprovalState target then
    .error (.invalidTransition run.state target
      (some "approval transitions require an evidence digest"))
  else if target ∉ legal run.state then
    .error (.invalidTransition run.state target none)
  else run.withStateE target none none none none none

/-- `await_approval` (`state_engine.py:160-179`). -/
def awaitApproval (run : RunSnapshot) (gate : ApprovalGate) (evidenceDigest : String) :
    Except EngineError RunSnapshot :=
  if !isDigest evidenceDigest then
    .error (.valueError "approval evidence digest must be lowercase SHA-256")
  else if approvalStateByGate gate ∉ legal run.state then
    .error (.invalidTransition run.state (some (approvalStateByGate gate)) none)
  else
    run.withStateE (approvalStateByGate gate) none none none (some gate) (some evidenceDigest)

/-- The metadata an outer pause hides; its own check is the snapshot's. -/
def suspensionContextOf (run : RunSnapshot) : SuspensionContext where
  state := run.state
  suspendedState := run.suspendedState
  suspensionKind := run.suspensionKind
  pendingGate := run.pendingGate
  pendingEvidenceDigest := run.pendingEvidenceDigest
  pending_ok := run.pending_ok

/-- `pause` (`state_engine.py:181-201`). -/
def pause (run : RunSnapshot) : Except EngineError RunSnapshot :=
  if isTerminalState run.state || run.state == paused then
    .error (.invalidTransition run.state (some paused)
      (some "only an active, non-paused run can be paused"))
  else
    run.withStateE paused (some run.state) (some .pause) (some (suspensionContextOf run)) none none

/-- `resume` (`state_engine.py:203-245`). -/
def resume (run : RunSnapshot) : Except EngineError RunSnapshot :=
  if run.state ≠ paused then
    .error (.invalidTransition run.state (some paused) (some "resume requires a paused run"))
  else match run.suspendedState with
  | none => .error (.invalidTransition run.state none
      (some "paused run has no valid suspended state"))
  | some suspended =>
    if suspended = paused then
      .error (.invalidTransition run.state (some suspended)
        (some "paused run has no valid suspended state"))
    else if run.suspensionKind ≠ some .pause then
      .error (.invalidTransition run.state (some suspended)
        (some "paused run has invalid suspension kind"))
    else match run.suspensionContext with
    | none =>
      if isApprovalState suspended then
        .error (.invalidTransition run.state (some suspended)
          (some "paused approval state has no retained evidence"))
      else run.withStateE suspended none none none none none
    | some context =>
      if context.state ≠ suspended then
        .error (.invalidTransition run.state (some suspended)
          (some "paused run has inconsistent suspension context"))
      else
        run.withStateE context.state context.suspendedState context.suspensionKind none
          context.pendingGate context.pendingEvidenceDigest

/-- `intervene` (`state_engine.py:247-268`). -/
def intervene (run : RunSnapshot) : Except EngineError RunSnapshot :=
  if isTerminalState run.state || run.state == paused || run.state == awaitingHumanIntervention
      || !canIntervene run.state then
    .error (.invalidTransition run.state (some awaitingHumanIntervention)
      (some "only an active run can enter intervention"))
  else
    run.withStateE awaitingHumanIntervention (some run.state) (some .intervention) none none none

/-- `resume_interrupted_work` (`state_engine.py:270-286`). -/
def resumeInterruptedWork (run : RunSnapshot) : Except EngineError RunSnapshot :=
  let refusal := EngineError.invalidTransition run.state (some run.state)
    (some "no interrupted execution to resume")
  if run.state ≠ awaitingHumanIntervention || run.suspensionKind ≠ some .intervention
      || run.pendingGate.isSome then .error refusal
  else match run.suspendedState with
  | some suspended =>
    if suspended = planning || suspended = implementing || suspended = remediating then
      run.withStateE suspended none none none none none
    else .error refusal
  | none => .error refusal

/-- `resolve_intervention` (`state_engine.py:288-344`). -/
def resolveIntervention (run : RunSnapshot) (target : RunState) : Except EngineError RunSnapshot :=
  let refuse := fun (current : RunState) (reason : Option String) =>
    Except.error (EngineError.invalidTransition current (some target) reason)
  if run.state ≠ awaitingHumanIntervention then
    refuse run.state (some "resolve_intervention requires an intervention state")
  else match run.suspendedState with
  | none => refuse run.state (some "intervention has no suspended state")
  | some suspended =>
    if run.suspensionKind ≠ some .intervention then
      refuse run.state (some "intervention has invalid suspension kind")
    else if isApprovalState target then
      refuse suspended (some "approval transitions require an evidence digest")
    else if target = awaitingHumanIntervention then
      refuse suspended (some "intervention cannot resolve to intervention")
    else if suspended = awaitingMergeApproval ∧ target = merging then
      refuse suspended (some "merging requires approval evidence")
    else if suspended = merging ∧ target = completed then
      refuse suspended (some "merge completion requires a settled merge receipt")
    else if suspended = awaitingPrApproval ∧ target = publishingPr then
      refuse suspended (some "publication requires approval evidence")
    else if target ∉ legal suspended then
      refuse suspended none
    else run.withStateE target none none none none none

inductive EngineOp
  | transition (target : RunState)
  | awaitApproval (gate : ApprovalGate) (evidenceDigest : String)
  | pause
  | resume
  | intervene
  | resumeInterruptedWork
  | resolveIntervention (target : RunState)
  deriving DecidableEq, Repr

def EngineOp.apply (run : RunSnapshot) : EngineOp → Except EngineError RunSnapshot
  | .transition target => Run.transition run target
  | .awaitApproval gate digest => Run.awaitApproval run gate digest
  | .pause => Run.pause run
  | .resume => Run.resume run
  | .intervene => Run.intervene run
  | .resumeInterruptedWork => Run.resumeInterruptedWork run
  | .resolveIntervention target => Run.resolveIntervention run target

theorem withStateE_moved (r s : RunSnapshot) (st : RunState) (ss : Option RunState)
    (sk : Option SuspensionKind) (sc : Option SuspensionContext) (pg : Option ApprovalGate)
    (pd : Option String) (h : r.withStateE st ss sk sc pg pd = .ok s) :
    Moved r s st ss sk sc pg pd := by
  have hw : r.withState st ss sk sc pg pd = .ok s := (mapError_eq_ok _ _ _).mp h
  exact withState_moved r s st ss sk sc pg pd hw

/-- What one engine operation can do: the new state with the suspension metadata
it brings. Each entry names its guard. -/
inductive Effect (r s : RunSnapshot) : EngineOp → Prop
  | transition (t : RunState) (hl : t ∈ legal r.state) (ha : isApprovalState t = false)
      (hm : Moved r s t none none none none none) : Effect r s (.transition t)
  | awaitApproval (g : ApprovalGate) (d : String)
      (hm : Moved r s (approvalStateByGate g) none none none (some g) (some d)) :
      Effect r s (.awaitApproval g d)
  | pause (ht : isTerminalState r.state = false) (hp : r.state ≠ paused)
      (hm : Moved r s paused (some r.state) (some .pause) (some (suspensionContextOf r)) none none) :
      Effect r s .pause
  | resumeBare (st : RunState) (hp : r.state = paused) (hs : r.suspendedState = some st)
      (hc : r.suspensionContext = none)
      (hm : Moved r s st none none none none none) : Effect r s .resume
  | resume (c : SuspensionContext) (hp : r.state = paused) (hc : r.suspensionContext = some c)
      (hm : Moved r s c.state c.suspendedState c.suspensionKind none c.pendingGate
        c.pendingEvidenceDigest) : Effect r s .resume
  | intervene (hl : canIntervene r.state = true)
      (hm : Moved r s awaitingHumanIntervention (some r.state) (some .intervention) none none
        none) : Effect r s .intervene
  | resumeInterruptedWork (st : RunState) (hst : st ∈ [planning, implementing, remediating])
      (hs : r.suspendedState = some st) (hm : Moved r s st none none none none none) :
      Effect r s .resumeInterruptedWork
  | resolveIntervention (t st : RunState) (hs : r.suspendedState = some st) (hl : t ∈ legal st)
      (ha : isApprovalState t = false) (hi : t ≠ awaitingHumanIntervention)
      (hm : Moved r s t none none none none none) : Effect r s (.resolveIntervention t)

theorem transition_effect (r s : RunSnapshot) (t : RunState) (h : transition r t = .ok s) :
    Effect r s (.transition t) := by
  unfold transition at h
  split at h
  · cases h
  · next ha =>
    split at h
    · cases h
    · next hl =>
      exact .transition t (not_not.mp hl) (Bool.eq_false_iff.mpr ha)
        (withStateE_moved _ _ _ _ _ _ _ _ h)

theorem awaitApproval_effect (r s : RunSnapshot) (g : ApprovalGate) (d : String)
    (h : awaitApproval r g d = .ok s) : Effect r s (.awaitApproval g d) := by
  unfold awaitApproval at h
  split at h
  · cases h
  · split at h
    · cases h
    · exact .awaitApproval g d (withStateE_moved _ _ _ _ _ _ _ _ h)

theorem pause_effect (r s : RunSnapshot) (h : pause r = .ok s) : Effect r s .pause := by
  unfold pause at h
  split at h
  · cases h
  · next hg =>
    simp only [Bool.or_eq_true, beq_iff_eq, not_or, Bool.not_eq_true] at hg
    exact .pause hg.1 hg.2 (withStateE_moved _ _ _ _ _ _ _ _ h)

theorem resume_effect (r s : RunSnapshot) (h : resume r = .ok s) : Effect r s .resume := by
  unfold resume at h
  split at h
  · cases h
  · next hp =>
    split at h
    · cases h
    · next st hs =>
      split at h
      · cases h
      · split at h
        · cases h
        · split at h
          · next hc =>
            split at h
            · cases h
            · exact .resumeBare st (not_not.mp hp) hs hc (withStateE_moved _ _ _ _ _ _ _ _ h)
          · next c hc =>
            split at h
            · cases h
            · exact .resume c (not_not.mp hp) hc (withStateE_moved _ _ _ _ _ _ _ _ h)

theorem intervene_effect (r s : RunSnapshot) (h : intervene r = .ok s) : Effect r s .intervene := by
  unfold intervene at h
  split at h
  · cases h
  · next hg =>
    simp only [Bool.or_eq_true, Bool.not_eq_true', not_or, Bool.not_eq_false] at hg
    exact .intervene hg.2 (withStateE_moved _ _ _ _ _ _ _ _ h)

theorem resumeInterruptedWork_effect (r s : RunSnapshot) (h : resumeInterruptedWork r = .ok s) :
    Effect r s .resumeInterruptedWork := by
  simp only [resumeInterruptedWork] at h
  split at h
  · cases h
  · split at h
    · next st hs =>
      split at h
      · next hst =>
        have hmem : st ∈ [planning, implementing, remediating] := by
          simpa [or_assoc] using hst
        exact .resumeInterruptedWork st hmem hs (withStateE_moved _ _ _ _ _ _ _ _ h)
      · cases h
    · cases h

theorem resolveIntervention_effect (r s : RunSnapshot) (t : RunState)
    (h : resolveIntervention r t = .ok s) : Effect r s (.resolveIntervention t) := by
  simp only [resolveIntervention] at h
  split at h
  · cases h
  · split at h
    · cases h
    · next st hs =>
      iterate 2 (split at h; · cases h)
      next ha =>
      split at h
      · cases h
      · next hi =>
        iterate 3 (split at h; · cases h)
        split at h
        · cases h
        · next hl =>
          exact .resolveIntervention t st hs (not_not.mp hl) (Bool.eq_false_iff.mpr ha) hi
            (withStateE_moved _ _ _ _ _ _ _ _ h)

theorem apply_effect (r s : RunSnapshot) (op : EngineOp) (h : op.apply r = .ok s) :
    Effect r s op := by
  cases op with
  | transition t => exact transition_effect r s t h
  | awaitApproval g d => exact awaitApproval_effect r s g d h
  | pause => exact pause_effect r s h
  | resume => exact resume_effect r s h
  | intervene => exact intervene_effect r s h
  | resumeInterruptedWork => exact resumeInterruptedWork_effect r s h
  | resolveIntervention t => exact resolveIntervention_effect r s t h

end ParallelForge.Run
