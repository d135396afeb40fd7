import ParallelForge.Run.RoundTrip
import Mathlib.Data.List.Induction

/-!
# Approval gates and transparent pauses

`MERGING` and `PUBLISHING_PR` are entered from their approval state only, and a
run is in an approval state only because `await_approval` put it there. Pausing
keeps both facts: the state left by a pause is the state the next `resume`
returns to, with everything that belonged to it.
-/

namespace ParallelForge.Run
open Base RunState

/-- The gate that stands before a state. -/
def guardedBy : RunState → Option ApprovalGate
  | merging => some .merge
  | publishingPr => some .pr
  | _ => none

/- The guards `Effect` does not record. -/

theorem awaitApproval_guard (r s : RunSnapshot) (g : ApprovalGate) (d : String)
    (h : awaitApproval r g d = .ok s) :
    isDigest d = true ∧ approvalStateByGate g ∈ legal r.state := by
  unfold awaitApproval at h
  split at h
  · cases h
  · next hd =>
    split at h
    · cases h
    · next hl =>
      have hd' : isDigest d = true := by simpa using hd
      exact ⟨hd', not_not.mp hl⟩

theorem resumeInterruptedWork_guard (r s : RunSnapshot) (h : resumeInterruptedWork r = .ok s) :
    r.state = awaitingHumanIntervention := by
  by_contra hne
  simp [resumeInterruptedWork, hne] at h

theorem resolveIntervention_guard (r s : RunSnapshot) (t : RunState)
    (h : resolveIntervention r t = .ok s) :
    r.state = awaitingHumanIntervention ∧ ∃ st, t ∈ legal st ∧
      ¬ (st = awaitingMergeApproval ∧ t = merging) ∧ ¬ (st = merging ∧ t = completed) ∧
      ¬ (st = awaitingPrApproval ∧ t = publishingPr) := by
  simp only [resolveIntervention] at h
  split at h
  · cases h
  · next hst =>
    split at h
    · cases h
    · next st _ =>
      iterate 3 (split at h; · cases h)
      split at h
      · cases h
      · next hmerge =>
        split at h
        · cases h
        · next hdone =>
          split at h
          · cases h
          · next hpr =>
            split at h
            · cases h
            · next hl => exact ⟨not_not.mp hst, st, not_not.mp hl, hmerge, hdone, hpr⟩

theorem not_terminal_of_legal (st t : RunState) (h : t ∈ legal st) : isTerminalState st = false := by
  cases st <;> first | rfl | exact absurd h (by simp [legal])

/-- Terminal states have no successor. -/
theorem apply_not_terminal (r s : RunSnapshot) (op : EngineOp) (h : op.apply r = .ok s) :
    isTerminalState r.state = false := by
  have he := apply_effect r s op h
  cases op with
  | transition t =>
    cases he with
    | transition _ hl _ _ => exact not_terminal_of_legal _ _ hl
  | awaitApproval g d => exact not_terminal_of_legal _ _ (awaitApproval_guard r s g d h).2
  | pause =>
    cases he with
    | pause ht _ _ => exact ht
  | resume =>
    have hp : r.state = paused := by
      cases he with
      | resumeBare _ hp _ _ _ => exact hp
      | resume _ hp _ _ => exact hp
    rw [hp]
    rfl
  | intervene =>
    cases he with
    | intervene hl _ => exact not_terminal_of_legal _ _ (List.contains_iff_mem.mp hl)
  | resumeInterruptedWork =>
    rw [resumeInterruptedWork_guard r s h]
    rfl
  | resolveIntervention t =>
    rw [(resolveIntervention_guard r s t h).1]
    rfl

theorem apply_version (r s : RunSnapshot) (op : EngineOp) (h : op.apply r = .ok s) :
    s.version = r.version + 1 := by
  obtain ⟨t, ss, sk, sc, g, d, hm⟩ := effect_moved r s op (apply_effect r s op h)
  exact hm.version_eq

/- The table lists a guarded state below its approval state only, and completion
below `MERGING` only. -/

theorem legal_guarded (st t : RunState) (g : ApprovalGate) (hl : t ∈ legal st)
    (hg : guardedBy t = some g) : st = approvalStateByGate g := by
  cases t <;> cases hg <;> cases st <;> first | rfl | exact absurd hl (by decide)

theorem legal_completed (st : RunState) (hl : completed ∈ legal st) : st = merging := by
  cases st <;> first | rfl | exact absurd hl (by decide)

/-- A run paused by its last operation, taken in `q`. -/
structure PausedAt (run r : RunSnapshot) (ops : List EngineOp) (q : RunSnapshot) : Prop where
  last : ∃ l, ops = l ++ [.pause] ∧ runOps run l = .ok q
  taken : pause q = .ok r

/-- The approval state was entered by `await_approval` with a well-formed digest,
and since then the run has only been paused and resumed. -/
def Approved (ops : List EngineOp) (g : ApprovalGate) : Prop :=
  ∃ before digest between, ops = before ++ .awaitApproval g digest :: between ∧
    isDigest digest = true ∧ ∀ op ∈ between, op = .pause ∨ op = .resume

theorem Approved.snoc (ops : List EngineOp) (g : ApprovalGate) (op : EngineOp)
    (h : Approved ops g) (hop : op = .pause ∨ op = .resume) : Approved (ops ++ [op]) g := by
  obtain ⟨before, d, between, rfl, hd, hb⟩ := h
  refine ⟨before, d, between ++ [op], by simp, hd, ?_⟩
  intro o ho
  rw [List.mem_append, List.mem_singleton] at ho
  rcases ho with ho | rfl
  · exact hb o ho
  · exact hop

/-- Where the state of a run comes from: a state reached by `ops`. -/
structure Traced (run r : RunSnapshot) (ops : List EngineOp) : Prop where
  approval : ∀ g, r.state = approvalStateByGate g → Approved ops g
  pause : r.state = paused → ∃ q, PausedAt run r ops q ∧
    ∀ g, q.state = approvalStateByGate g → Approved ops g

theorem approvalStateByGate_injective (g g' : ApprovalGate)
    (h : approvalStateByGate g = approvalStateByGate g') : g = g' := by
  cases g <;> cases g' <;> first | rfl | exact absurd h (by decide)

theorem isApprovalState_byGate (g : ApprovalGate) : isApprovalState (approvalStateByGate g) = true := by
  cases g <;> rfl

/- Neither an approval state nor a pause: nothing to trace. -/
theorem traced_plain (run s : RunSnapshot) (ops : List EngineOp) (t : RunState)
    (hs : s.state = t) (ha : isApprovalState t = false) (hp : t ≠ paused) : Traced run s ops where
  approval := by
    intro g hg
    rw [hs.symm.trans hg, isApprovalState_byGate] at ha
    cases ha
  pause := fun h => absurd (hs.symm.trans h) hp

/- Resuming returns to the state the pause was taken in. -/
theorem resume_returns (run r s : RunSnapshot) (ops : List EngineOp) (q : RunSnapshot)
    (hq : PausedAt run r ops q) (h : resume r = .ok s) :
    s.state = q.state ∧ q.state ≠ paused ∧ isTerminalState q.state = false := by
  cases pause_effect q r hq.taken with
  | pause ht hne hm =>
    cases resume_effect r s h with
    | resumeBare _ _ _ hc _ =>
      rw [hm.suspensionContext_eq] at hc
      cases hc
    | resume c _ hc hm' =>
      rw [hm.suspensionContext_eq] at hc
      cases hc
      exact ⟨hm'.state_eq, hne, ht⟩

theorem traced_step (run r s : RunSnapshot) (ops : List EngineOp) (op : EngineOp)
    (hr : runOps run ops = .ok r) (ht : Traced run r ops) (h : op.apply r = .ok s) :
    Traced run s (ops ++ [op]) := by
  have he := apply_effect r s op h
  cases he with
  | transition t hl ha hm =>
    exact traced_plain _ _ _ t hm.state_eq ha fun hp => paused_not_legal r.state (hp ▸ hl)
  | awaitApproval g d hm =>
    have hd : isDigest d = true := (awaitApproval_guard r s g d h).1
    constructor
    · intro g' hg'
      have hgg : g = g' := approvalStateByGate_injective g g' (hm.state_eq.symm.trans hg')
      subst hgg
      exact ⟨ops, d, [], rfl, hd, by simp⟩
    · intro hp
      have := hm.state_eq.symm.trans hp
      cases g <;> cases this
  | pause _ hne hm =>
    constructor
    · intro g hg
      have := hm.state_eq.symm.trans hg
      cases g <;> cases this
    · intro _
      exact ⟨r, ⟨⟨ops, rfl, hr⟩, h⟩, fun g hg => (ht.approval g hg).snoc _ _ _ (.inl rfl)⟩
  | resumeBare st hp hs hc hm =>
    obtain ⟨q, hq, hqa⟩ := ht.pause hp
    obtain ⟨hsq, hne, -⟩ := resume_returns run r s ops q hq h
    exact ⟨fun g hg => (hqa g (hsq.symm.trans hg)).snoc _ _ _ (.inr rfl),
      fun hsp => absurd (hsq.symm.trans hsp) hne⟩
  | resume c hp hc hm =>
    obtain ⟨q, hq, hqa⟩ := ht.pause hp
    obtain ⟨hsq, hne, -⟩ := resume_returns run r s ops q hq h
    exact ⟨fun g hg => (hqa g (hsq.symm.trans hg)).snoc _ _ _ (.inr rfl),
      fun hsp => absurd (hsq.symm.trans hsp) hne⟩
  | intervene hl hm => exact traced_plain _ _ _ _ hm.state_eq rfl (by decide)
  | resumeInterruptedWork st hst _ hm =>
    have hplain : isApprovalState st = false ∧ st ≠ paused := by
      simp only [List.mem_cons, List.not_mem_nil, or_false] at hst
      rcases hst with rfl | rfl | rfl <;> decide
    exact traced_plain _ _ _ st hm.state_eq hplain.1 hplain.2
  | resolveIntervention t st _ hl ha _ hm =>
    exact traced_plain _ _ _ t hm.state_eq ha fun hp => paused_not_legal st (hp ▸ hl)

theorem runOps_snoc (run s : RunSnapshot) (ops : List EngineOp) (op : EngineOp)
    (h : runOps run (ops ++ [op]) = .ok s) : ∃ r, runOps run ops = .ok r ∧ op.apply r = .ok s := by
  rw [runOps_append, bind_eq_ok] at h
  obtain ⟨r, hr, h⟩ := h
  rw [runOps, bind_eq_ok] at h
  obtain ⟨s', hs', h⟩ := h
  cases h
  exact ⟨r, hr, hs'⟩

theorem traced_run (run r : RunSnapshot) (ops : List EngineOp) (h0 : run.state = created)
    (h : runOps run ops = .ok r) : Traced run r ops := by
  induction ops using List.reverseRecOn generalizing r with
  | nil =>
    cases h
    exact traced_plain run run [] created h0 rfl (by decide)
  | append_singleton ops op ih =>
    obtain ⟨q, hq, hop⟩ := runOps_snoc run r ops op h
    exact traced_step run q r ops op hq (ih q hq) hop

/-- How a step may enter a guarded state: out of the approval state, which
`await_approval` entered, or back from a pause taken in the same state. -/
def GateKept (run r s : RunSnapshot) (ops : List EngineOp) (op : EngineOp) (g : ApprovalGate) :
    Prop :=
  (op = .transition s.state ∧ r.state = approvalStateByGate g ∧ Approved ops g) ∨
    (op = .resume ∧ ∃ q, PausedAt run r ops q ∧ q.state = s.state)

theorem entry_gateKept (run r s : RunSnapshot) (ops : List EngineOp) (op : EngineOp)
    (g : ApprovalGate) (ht : Traced run r ops) (h : op.apply r = .ok s)
    (hg : guardedBy s.state = some g) : GateKept run r s ops op g := by
  have he := apply_effect r s op h
  cases he with
  | transition t hl ha hm =>
    rw [hm.state_eq] at hg
    have hst : r.state = approvalStateByGate g := legal_guarded _ _ _ hl hg
    exact .inl ⟨by rw [hm.state_eq], hst, ht.approval g hst⟩
  | awaitApproval g' d hm =>
    rw [hm.state_eq] at hg
    cases g' <;> cases hg
  | pause _ _ hm =>
    rw [hm.state_eq] at hg
    cases hg
  | resumeBare st hp hs hc hm =>
    obtain ⟨q, hq, -⟩ := ht.pause hp
    exact .inr ⟨rfl, q, hq, (resume_returns run r s ops q hq h).1.symm⟩
  | resume c hp hc hm =>
    obtain ⟨q, hq, -⟩ := ht.pause hp
    exact .inr ⟨rfl, q, hq, (resume_returns run r s ops q hq h).1.symm⟩
  | intervene hl hm =>
    rw [hm.state_eq] at hg
    cases hg
  | resumeInterruptedWork st hst _ hm =>
    rw [hm.state_eq] at hg
    simp only [List.mem_cons, List.not_mem_nil, or_false] at hst
    rcases hst with rfl | rfl | rfl <;> cases hg
  | resolveIntervention t st _ _ _ _ hm =>
    rw [hm.state_eq] at hg
    obtain ⟨-, st', hl, hmerge, -, hpr⟩ := resolveIntervention_guard r s t h
    have hst := legal_guarded _ _ _ hl hg
    cases t <;> cases hg
    · exact absurd ⟨hst, rfl⟩ hpr
    · exact absurd ⟨hst, rfl⟩ hmerge

theorem entry_completed (run r s : RunSnapshot) (ops : List EngineOp) (op : EngineOp)
    (ht : Traced run r ops) (h : op.apply r = .ok s) (hs : s.state = completed) :
    op = .transition completed ∧ r.state = merging := by
  have he := apply_effect r s op h
  cases he with
  | transition t hl ha hm =>
    have htc : t = completed := hm.state_eq.symm.trans hs
    subst htc
    exact ⟨rfl, legal_completed _ hl⟩
  | awaitApproval g d hm =>
    have := hm.state_eq.symm.trans hs
    cases g <;> cases this
  | pause _ _ hm => cases hm.state_eq.symm.trans hs
  | resumeBare st hp _ hc hm =>
    obtain ⟨q, hq, -⟩ := ht.pause hp
    obtain ⟨hsq, -, hterm⟩ := resume_returns run r s ops q hq h
    rw [← hsq, hs] at hterm
    cases hterm
  | resume c hp hc hm =>
    obtain ⟨q, hq, -⟩ := ht.pause hp
    obtain ⟨hsq, -, hterm⟩ := resume_returns run r s ops q hq h
    rw [← hsq, hs] at hterm
    cases hterm
  | intervene _ hm => cases hm.state_eq.symm.trans hs
  | resumeInterruptedWork st hst _ hm =>
    have hsc : st = completed := hm.state_eq.symm.trans hs
    subst hsc
    exact absurd hst (by decide)
  | resolveIntervention t st _ _ _ _ hm =>
    have htc : t = completed := hm.state_eq.symm.trans hs
    subst htc
    obtain ⟨-, st', hl, -, hdone, -⟩ := resolveIntervention_guard r s _ h
    exact absurd ⟨legal_completed _ hl, rfl⟩ hdone

/-- Gates cannot be bypassed: of every step of every run of engine operations
that starts in `CREATED`. -/
theorem gates_kept (run r s : RunSnapshot) (ops : List EngineOp) (op : EngineOp)
    (h0 : run.state = created) (hr : runOps run ops = .ok r) (h : op.apply r = .ok s) :
    (∀ g, guardedBy s.state = some g → GateKept run r s ops op g) ∧
      (s.state = completed → op = .transition completed ∧ r.state = merging) ∧
      isTerminalState r.state = false ∧ s.version = r.version + 1 := by
  have ht := traced_run run r ops h0 hr
  exact ⟨fun g hg => entry_gateKept run r s ops op g ht h hg,
    fun hs => entry_completed run r s ops op ht h hs, apply_not_terminal r s op h,
    apply_version r s op h⟩

/-- The way to `MERGING`, with a pause taken while the merge awaits approval. -/
def sampleDigest : String := String.ofList (List.replicate 64 'a')

def sampleOps : List EngineOp :=
  [.transition planning, .transition preparingWorktree, .transition implementing,
    .transition validating, .transition monitoringPr, .awaitApproval .merge sampleDigest, .pause,
    .resume]

theorem gates_kept_merging : ∃ r s, runOps sampleRun sampleOps = .ok r ∧
    EngineOp.apply r (.transition merging) = .ok s ∧
    GateKept sampleRun r s sampleOps (.transition merging) .merge :=
  ⟨_, _, rfl, rfl, (gates_kept sampleRun _ _ sampleOps (.transition merging) rfl rfl rfl).1 .merge rfl⟩

/-- The suspension metadata of a run, whatever path it took: a pause holds the
state it left in its context, and only an intervention suspends a state
otherwise. -/
def Layered (s : RunSnapshot) : Prop :=
  match s.state with
  | paused => ∃ c, s.suspensionContext = some c ∧ s.suspendedState = some c.state ∧
      c.state ≠ paused ∧ (c.state ≠ awaitingHumanIntervention → c.suspendedState = none)
  | awaitingHumanIntervention => s.suspensionContext = none
  | _ => s.suspendedState = none ∧ s.suspensionContext = none

theorem Layered.context (s : RunSnapshot) (h : Layered s) (hp : s.state ≠ paused) :
    s.suspensionContext = none := by
  unfold Layered at h
  split at h
  · next hs => exact absurd hs hp
  · exact h
  · exact h.2

theorem Layered.suspendedState (s : RunSnapshot) (h : Layered s) (hp : s.state ≠ paused)
    (hi : s.state ≠ awaitingHumanIntervention) : s.suspendedState = none := by
  unfold Layered at h
  split at h
  · next hs => exact absurd hs hp
  · next hs => exact absurd hs hi
  · exact h.1

theorem layered_of_moved (r s : RunSnapshot) (t : RunState) (ss : Option RunState)
    (sk : Option SuspensionKind) (g : Option ApprovalGate) (d : Option String)
    (hm : Moved r s t ss sk none g d) (hp : t ≠ paused)
    (hss : t ≠ awaitingHumanIntervention → ss = none) : Layered s := by
  unfold Layered
  rw [hm.state_eq]
  split
  · exact absurd rfl hp
  · exact hm.suspensionContext_eq
  · next hi => exact ⟨hm.suspendedState_eq.trans (hss hi), hm.suspensionContext_eq⟩

theorem layered_of_effect (r s : RunSnapshot) (op : EngineOp) (h : Effect r s op)
    (hr : Layered r) : Layered s := by
  cases h with
  | transition t hl _ hm =>
    exact layered_of_moved r s t _ _ _ _ hm (fun hp => paused_not_legal r.state (hp ▸ hl))
      fun _ => rfl
  | awaitApproval g d hm =>
    have hp : approvalStateByGate g ≠ paused := by cases g <;> decide
    exact layered_of_moved r s _ _ _ _ _ hm hp fun _ => rfl
  | pause ht hp hm =>
    unfold Layered
    rw [hm.state_eq]
    exact ⟨suspensionContextOf r, hm.suspensionContext_eq, hm.suspendedState_eq, hp,
      fun hi => hr.suspendedState r hp hi⟩
  | resumeBare st hp _ hc hm =>
    unfold Layered at hr
    rw [hp] at hr
    obtain ⟨c, hc', -⟩ := hr
    rw [hc] at hc'
    cases hc'
  | resume c hp hc hm =>
    unfold Layered at hr
    rw [hp] at hr
    obtain ⟨c', hc', -, hne, hss⟩ := hr
    rw [hc] at hc'
    cases hc'
    exact layered_of_moved r s c.state _ _ _ _ hm hne hss
  | intervene hl hm =>
    exact layered_of_moved r s _ _ _ _ _ hm (by decide) fun hi => absurd rfl hi
  | resumeInterruptedWork st hst _ hm =>
    have hp : st ≠ paused := by
      rintro rfl
      exact absurd hst (by decide)
    exact layered_of_moved r s st _ _ _ _ hm hp fun _ => rfl
  | resolveIntervention t st _ hl _ _ hm =>
    exact layered_of_moved r s t _ _ _ _ hm (fun hp => paused_not_legal st (hp ▸ hl)) fun _ => rfl

theorem layered_new (run : RunSnapshot) (h : validateNewSnapshot run = .ok ()) : Layered run := by
  simp only [validateNewSnapshot, require_bind_eq_ok] at h
  obtain ⟨hst, -, ⟨hss, -⟩, hsc, -⟩ := h
  unfold Layered
  rw [hst]
  exact ⟨hss, hsc⟩

theorem layered_run (run r : RunSnapshot) (ops : List EngineOp) (h : runOps run ops = .ok r)
    (h0 : Layered run) : Layered r := by
  induction ops generalizing run with
  | nil =>
    cases h
    exact h0
  | cons op ops ih =>
    rw [runOps, bind_eq_ok] at h
    obtain ⟨s, hs, h⟩ := h
    exact ih s h (layered_of_effect run s op (apply_effect run s op hs) h0)

/- A state change whose metadata has the right shape is never refused. -/
theorem withStateE_ok (r : RunSnapshot) (st : RunState) (ss : Option RunState)
    (sk : Option SuspensionKind) (sc : Option SuspensionContext) (pg : Option ApprovalGate)
    (pd : Option String) (h : pendingShape st pg pd = true) :
    r.withStateE st ss sk sc pg pd = .ok
      { r with
        state := st
        suspendedState := ss
        suspensionKind := sk
        suspensionContext := sc
        pendingGate := pg
        pendingEvidenceDigest := pd
        version := r.version + 1
        pending_ok := h } := by
  have hv := (validatePendingMetadata_ok_iff "run" st pg pd).mpr h
  unfold RunSnapshot.withStateE RunSnapshot.withState
  split
  · next e he => rw [hv] at he; cases he
  · rfl

/-- Pausing is transparent: resuming gives back the run that was paused, two
versions on. -/
theorem resume_pause (run r s : RunSnapshot) (ops : List EngineOp)
    (hv : validateNewSnapshot run = .ok ()) (hr : runOps run ops = .ok r) (hp : pause r = .ok s) :
    resume s = .ok { r with version := r.version + 2 } := by
  have hl := layered_run run r ops hr (layered_new run hv)
  cases pause_effect r s hp with
  | pause ht hne _ =>
    have hsc : r.suspensionContext = none := hl.context r hne
    have hs : pause r = r.withStateE paused (some r.state) (some .pause)
        (some (suspensionContextOf r)) none none := by
      simp [pause, ht, hne]
    rw [hs, withStateE_ok _ _ _ _ _ _ _ rfl] at hp
    cases hp
    have hctx : (suspensionContextOf r).state = r.state := rfl
    simp only [resume, ne_eq, not_true_eq_false, if_false, hne, hctx]
    show RunSnapshot.withStateE _ r.state r.suspendedState r.suspensionKind none r.pendingGate
      r.pendingEvidenceDigest = _
    rw [withStateE_ok _ _ _ _ _ _ _ r.pending_ok]
    have hver : r.version + 1 + 1 = r.version + 2 := by omega
    simp only [hsc, hver]

/- A pause taken inside an intervention. -/
theorem resume_pause_intervention : ∃ r s,
    runOps sampleRun [.transition planning, .intervene] = .ok r ∧ pause r = .ok s ∧
      resume s = .ok { r with version := r.version + 2 } :=
  ⟨_, _, rfl, rfl,
    resume_pause sampleRun _ _ [.transition planning, .intervene] (by decide +kernel) rfl rfl⟩

end ParallelForge.Run
