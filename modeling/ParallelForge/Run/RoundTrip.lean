import ParallelForge.Run.Record

/-!
# What can be saved can be loaded

The engine's table, the snapshot's checks and the loader's checks describe one
state space three times. `Suspended` is the common description: which
suspension metadata goes with which state. A snapshot that has it comes back
from its row unchanged, and every engine operation keeps it, except a plain
`transition` into human intervention, which arrives there without the state
it suspended.
-/

namespace ParallelForge.Run
open Base RunState

/- Reading back each stored column. -/

@[simp] theorem runState_value (s : RunState) (f : String) : runState (.str s.value) f = .ok s := by
  simp only [runState, RunState.ofValue_value]

@[simp] theorem suspensionKind_value (k : SuspensionKind) : suspensionKind (.str k.value) = .ok k := by
  simp only [suspensionKind, SuspensionKind.ofValue_value]

theorem decodeNullable_column {α : Type} (decode : JsonValue → Except DataError α)
    (value : α → String) (h : ∀ a, decode (.str (value a)) = .ok a) (o : Option α) :
    decodeNullable decode (jsonOfColumn (o.map value)) = .ok o := by
  cases o with
  | none => rfl
  | some a => simp only [Option.map_some, jsonOfColumn, decodeNullable, h, Except.map]

@[simp] theorem pendingGate_column (g : Option ApprovalGate) :
    pendingGate (jsonOfColumn (g.map ApprovalGate.value)) = .ok g := by
  cases g with
  | none => rfl
  | some g => simp only [Option.map_some, jsonOfColumn, pendingGate, ApprovalGate.ofValue_value]

theorem pendingEvidenceDigest_column (d : Option String) (h : d.all isDigest = true) :
    pendingEvidenceDigest (jsonOfColumn d) = .ok d := by
  cases d with
  | none => rfl
  | some d =>
    have hd : isDigest d = true := by simpa using h
    simp only [jsonOfColumn, pendingEvidenceDigest, hd, if_true]

@[simp] theorem resourceState_value (s : ResourceState) : resourceState s.value = .ok s := by
  simp only [resourceState, ResourceState.ofValue_value]

theorem nonnegativeInt_ok (n : ℤ) (f : String) (h : 0 ≤ n) : nonnegativeInt n f = .ok n := by
  rw [nonnegativeInt, if_neg (Int.not_lt.mpr h)]

@[simp] theorem workflowFromRecord_toDict (w : Option WorkflowPreferences) :
    workflowFromRecord (w.map fun w => .object w.toDict) = .ok w := by
  cases w with
  | none => rfl
  | some w =>
    obtain ⟨b, d, o⟩ := w
    cases d <;> cases o <;> rfl

/- An approval state has its gate and a digest, every other state has neither. -/
theorem pendingShape_digest (s : RunState) (g : Option ApprovalGate) (d : Option String)
    (h : pendingShape s g d = true) : d.all isDigest = true := by
  unfold pendingShape at h
  cases d with
  | none => rfl
  | some d =>
    cases hs : approvalGateByState s with
    | none => simp [hs] at h
    | some g' =>
      simp only [hs, Bool.and_eq_true] at h
      simpa using h.2

theorem validatePendingShape_ok (s : RunState) (g : Option ApprovalGate) (d : Option String)
    (h : pendingShape s g d = true) : validatePendingShape s g d = .ok () := by
  unfold pendingShape at h
  unfold validatePendingShape
  cases hs : approvalGateByState s with
  | none => simpa [hs] using h
  | some g' =>
    simp only [hs, Bool.and_eq_true, beq_iff_eq] at h
    rw [require_eq_ok]
    refine ⟨h.1, ?_⟩
    rintro rfl
    simp at h

theorem hasPending_eq_isApprovalState (c : SuspensionContext) :
    hasPending c = isApprovalState c.state := by
  obtain ⟨s, ss, sk, g, d, h⟩ := c
  simp only [hasPending, isApprovalState]
  unfold pendingShape at h
  cases hs : approvalGateByState s with
  | none =>
    simp only [hs, Bool.and_eq_true, Option.isNone_iff_eq_none] at h
    simp [h.1, h.2]
  | some g' =>
    simp only [hs, Bool.and_eq_true, beq_iff_eq] at h
    simp [h.1]

/- A stored context reads back as it was. -/
theorem contextFromJson_contextToJson (c : SuspensionContext) :
    contextFromJson (contextToJson c) (contextSchemaVersion c) = .ok c := by
  obtain ⟨s, ss, sk, g, d, h⟩ := c
  have hs := decodeNullable_column (runState · "suspension_context.suspended_state")
    RunState.value (fun a => runState_value a _) ss
  have hk := decodeNullable_column suspensionKind SuspensionKind.value suspensionKind_value sk
  have hd := pendingEvidenceDigest_column d (pendingShape_digest s g d h)
  cases hp : hasPending ⟨s, ss, sk, g, d, h⟩ with
  | false =>
    obtain ⟨rfl, rfl⟩ : g = none ∧ d = none := by
      simpa [hasPending] using hp
    simp [contextFromJson, contextToJson, contextSchemaVersion, hp, contextKeys, field,
      List.lookup_cons, hs, hk, require, bind, Except.bind, h]
  | true =>
    simp [contextFromJson, contextToJson, contextSchemaVersion, hp, contextKeys, field,
      List.lookup_cons, hs, hk, hd, require, bind, Except.bind, h]

/-- The metadata a pause may hide: an active state alone, or an intervention
with the state it suspended. -/
def Hideable (c : SuspensionContext) : Prop :=
  isTerminalState c.state = false ∧ c.state ≠ paused ∧
  if c.state = awaitingHumanIntervention then
    ∃ st, c.suspendedState = some st ∧ canIntervene st = true ∧ c.suspensionKind = some .intervention
  else c.suspendedState = none ∧ c.suspensionKind = none

/-- The suspension metadata that goes with each state. -/
def Suspended (s : RunSnapshot) : Prop :=
  match s.state with
  | paused => ∃ c, s.suspensionContext = some c ∧ s.suspendedState = some c.state ∧
      s.suspensionKind = some .pause ∧ Hideable c
  | awaitingHumanIntervention => ∃ st, s.suspendedState = some st ∧ canIntervene st = true ∧
      s.suspensionKind = some .intervention ∧ s.suspensionContext = none
  | _ => s.suspendedState = none ∧ s.suspensionKind = none ∧ s.suspensionContext = none

theorem canIntervene_ne_paused (st : RunState) (h : canIntervene st = true) : st ≠ paused := by
  rintro rfl
  exact absurd h (by decide)

theorem checkContext_ok (c : SuspensionContext) (h : Hideable c) :
    checkContext c.state (contextSchemaVersion c) c = .ok () := by
  obtain ⟨ht, hp, hs⟩ := h
  have hv : hasPending c = isApprovalState c.state := hasPending_eq_isApprovalState c
  by_cases hi : c.state = awaitingHumanIntervention
  · rw [if_pos hi] at hs
    obtain ⟨st, hss, hst, hk⟩ := hs
    have hne := canIntervene_ne_paused st hst
    have ha : hasPending c = false := by rw [hv, hi]; rfl
    have ha' : isApprovalState awaitingHumanIntervention = false := by rw [← hi, ← hv, ha]
    simp [checkContext, require, bind, Except.bind, contextSchemaVersion, ha, ha', hss, hk, hi, hst,
      hne]
  · rw [if_neg hi] at hs
    cases ha : isApprovalState c.state <;>
      simp [checkContext, require, bind, Except.bind, contextSchemaVersion, hv, ha, hs.1, hs.2, hi,
        ht]

theorem decodeSuspensionContext_ok (r : RunRecord) (s : RunSnapshot) (h : Suspended s) :
    decodeSuspensionContext (applySnapshot r s) s.state s.suspendedState s.suspensionKind
      = .ok s.suspensionContext := by
  have hshape := s.pending_ok
  unfold Suspended at h
  unfold decodeSuspensionContext
  split at h
  · next hst =>
    obtain ⟨c, hc, hss, hk, hh⟩ := h
    obtain ⟨hg, hd⟩ : s.pendingGate = none ∧ s.pendingEvidenceDigest = none := by
      rw [hst] at hshape
      simpa [pendingShape, approvalGateByState] using hshape
    have hv : contextSchemaVersion c = 1 ∨ contextSchemaVersion c = 2 := by
      unfold contextSchemaVersion
      cases hasPending c <;> simp
    simp only [hst, hss, hk, applySnapshot, hc, hg, hd, Option.map_none, Option.map_some]
    rw [require_bind_eq_ok]
    refine ⟨⟨trivial, trivial⟩, ?_⟩
    rw [require_bind_eq_ok]
    refine ⟨hv, ?_⟩
    rw [require_bind_eq_ok]
    refine ⟨⟨hh.1, hh.2.1⟩, ?_⟩
    rw [bind_eq_ok]
    refine ⟨c, contextFromJson_contextToJson c, ?_⟩
    rw [bind_unit_eq_ok]
    exact ⟨checkContext_ok c hh, rfl⟩
  · next hst =>
    obtain ⟨st, hss, hcan, hk, hc⟩ := h
    simp [hst, hss, hk, hc, applySnapshot, hcan, require, bind, Except.bind, pure, Except.pure]
  · obtain ⟨hss, hk, hc⟩ := h
    simp only [hss, hk, hc, applySnapshot, Option.map_none]
    simp [require, bind, Except.bind, pure, Except.pure]

/-- The columns `_apply_snapshot` does not write agree with the snapshot. -/
def SameIdentity (r : RunRecord) (s : RunSnapshot) : Prop :=
  (r.id, r.projectId, r.taskId, some r.policyVersion, r.baseRef, r.baseSha)
    = (s.id, s.projectId, s.taskId, s.policyVersion, s.baseRef, s.baseSha)

structure Persistable (s : RunSnapshot) : Prop where
  version_nonneg : 0 ≤ s.version
  local_nonneg : 0 ≤ s.localRemediationCount
  remote_nonneg : 0 ≤ s.remoteRemediationCount
  suspended : Suspended s

/-- Saving and loading returns the snapshot. -/
def RoundTrips (r : RunRecord) (s : RunSnapshot) : Prop :=
  snapshotFromRecord (applySnapshot r s) = .ok s

theorem buildSnapshot_apply (r : RunRecord) (s : RunSnapshot) (h : SameIdentity r s) :
    buildSnapshot (applySnapshot r s) s.state s.version s.localRemediationCount
      s.remoteRemediationCount s.suspendedState s.suspensionKind s.suspensionContext s.pendingGate
      s.pendingEvidenceDigest s.databaseState s.workflow = .ok s := by
  simp only [SameIdentity, Prod.mk.injEq] at h
  obtain ⟨h1, h2, h3, h4, h5, h6⟩ := h
  have hr := (validateResourceShape_ok_iff _ _ _ _).mpr s.resource_ok
  have hp := (validatePendingMetadata_ok_iff "run" _ _ _).mpr s.pending_ok
  unfold buildSnapshot
  split
  · next e he => rw [applySnapshot] at he; rw [hr] at he; cases he
  · split
    · next e he => rw [hp] at he; cases he
    · simp only [applySnapshot, h1, h2, h3, h4, h5, h6]

theorem roundTrips_of_persistable (r : RunRecord) (s : RunSnapshot) (hi : SameIdentity r s)
    (h : Persistable s) : RoundTrips r s := by
  have hss := decodeNullable_column (runState · "suspended_state") RunState.value
    (fun a => runState_value a _) s.suspendedState
  have hsk := decodeNullable_column suspensionKind SuspensionKind.value suspensionKind_value
    s.suspensionKind
  have hd := pendingEvidenceDigest_column _ (pendingShape_digest _ _ _ s.pending_ok)
  unfold RoundTrips snapshotFromRecord
  rw [bind_eq_ok]
  refine ⟨s.state, runState_value _ _, ?_⟩
  rw [bind_eq_ok]
  refine ⟨s.version, nonnegativeInt_ok _ _ h.version_nonneg, ?_⟩
  rw [bind_eq_ok]
  refine ⟨s.localRemediationCount, nonnegativeInt_ok _ _ h.local_nonneg, ?_⟩
  rw [bind_eq_ok]
  refine ⟨s.remoteRemediationCount, nonnegativeInt_ok _ _ h.remote_nonneg, ?_⟩
  rw [bind_eq_ok]
  refine ⟨s.suspendedState, hss, ?_⟩
  rw [bind_eq_ok]
  refine ⟨s.suspensionKind, hsk, ?_⟩
  rw [bind_eq_ok]
  refine ⟨s.pendingGate, pendingGate_column _, ?_⟩
  rw [bind_eq_ok]
  refine ⟨s.pendingEvidenceDigest, hd, ?_⟩
  rw [bind_unit_eq_ok]
  refine ⟨validatePendingShape_ok _ _ _ s.pending_ok, ?_⟩
  rw [bind_eq_ok]
  refine ⟨s.suspensionContext, decodeSuspensionContext_ok r s h.suspended, ?_⟩
  rw [bind_eq_ok]
  refine ⟨s.databaseState, resourceState_value _, ?_⟩
  rw [bind_eq_ok]
  exact ⟨s.workflow, workflowFromRecord_toDict _, buildSnapshot_apply r s hi⟩

/- What the loader hands out: its suspension metadata passed the decoder and
its policy version is the row's. -/
theorem snapshotFromRecord_loaded (r : RunRecord) (s : RunSnapshot)
    (h : snapshotFromRecord r = .ok s) :
    decodeSuspensionContext r s.state s.suspendedState s.suspensionKind = .ok s.suspensionContext ∧
      s.policyVersion = some r.policyVersion := by
  unfold snapshotFromRecord at h
  simp only [bind_eq_ok] at h
  obtain ⟨st, -, v, -, lc, -, rc, -, ss, -, sk, -, g, -, d, -, -, -, c, hc, db, -, w, -, hb⟩ := h
  unfold buildSnapshot at hb
  split at hb
  · cases hb
  · split at hb
    · cases hb
    · cases hb
      exact ⟨hc, rfl⟩

theorem not_roundTrips_bare_intervention (r : RunRecord) (s : RunSnapshot)
    (hst : s.state = awaitingHumanIntervention) (hss : s.suspendedState = none) :
    ¬ RoundTrips r s := by
  intro h
  have hd := (snapshotFromRecord_loaded _ _ h).1
  rw [hst, hss] at hd
  simp [decodeSuspensionContext, require, bind, Except.bind] at hd

/- One engine step. -/

theorem paused_not_legal (st : RunState) : paused ∉ legal st := by
  cases st <;> decide

theorem suspended_of_plain (r s : RunSnapshot) (t : RunState) (g : Option ApprovalGate)
    (d : Option String) (hm : Moved r s t none none none g d) (hp : t ≠ paused)
    (hi : t ≠ awaitingHumanIntervention) : Suspended s := by
  unfold Suspended
  rw [hm.state_eq]
  split
  · exact absurd rfl hp
  · exact absurd rfl hi
  · exact ⟨hm.suspendedState_eq, hm.suspensionKind_eq, hm.suspensionContext_eq⟩

theorem hideable_of_suspended (r : RunSnapshot) (h : Suspended r)
    (ht : isTerminalState r.state = false) (hp : r.state ≠ paused) :
    Hideable (suspensionContextOf r) := by
  refine ⟨ht, hp, ?_⟩
  unfold Suspended at h
  split at h
  · next hst => exact absurd hst hp
  · next hst =>
    obtain ⟨st, hss, hcan, hk, -⟩ := h
    rw [if_pos (show (suspensionContextOf r).state = awaitingHumanIntervention from hst)]
    exact ⟨st, hss, hcan, hk⟩
  · next hi =>
    rw [if_neg (show ¬ (suspensionContextOf r).state = awaitingHumanIntervention from hi)]
    exact ⟨h.1, h.2.1⟩

theorem suspended_of_resumed (r s : RunSnapshot) (c : SuspensionContext) (h : Hideable c)
    (hm : Moved r s c.state c.suspendedState c.suspensionKind none c.pendingGate
      c.pendingEvidenceDigest) : Suspended s := by
  obtain ⟨-, hp, hs⟩ := h
  by_cases hi : c.state = awaitingHumanIntervention
  · rw [if_pos hi] at hs
    obtain ⟨st, hss, hcan, hk⟩ := hs
    unfold Suspended
    rw [hm.state_eq, hi]
    exact ⟨st, hm.suspendedState_eq.trans hss, hcan, hm.suspensionKind_eq.trans hk,
      hm.suspensionContext_eq⟩
  · rw [if_neg hi] at hs
    rw [hs.1, hs.2] at hm
    exact suspended_of_plain r s c.state _ _ hm hp hi

theorem suspended_paused (r : RunSnapshot) (h : Suspended r) (hp : r.state = paused) :
    ∃ c, r.suspensionContext = some c ∧ Hideable c := by
  unfold Suspended at h
  rw [hp] at h
  obtain ⟨c, hc, -, -, hh⟩ := h
  exact ⟨c, hc, hh⟩

theorem effect_moved (r s : RunSnapshot) (op : EngineOp) (h : Effect r s op) :
    ∃ t ss sk sc g d, Moved r s t ss sk sc g d := by
  cases h with
  | transition _ _ _ hm => exact ⟨_, _, _, _, _, _, hm⟩
  | awaitApproval _ _ hm => exact ⟨_, _, _, _, _, _, hm⟩
  | pause _ _ hm => exact ⟨_, _, _, _, _, _, hm⟩
  | resumeBare _ _ _ _ hm => exact ⟨_, _, _, _, _, _, hm⟩
  | resume _ _ _ hm => exact ⟨_, _, _, _, _, _, hm⟩
  | intervene _ hm => exact ⟨_, _, _, _, _, _, hm⟩
  | resumeInterruptedWork _ _ _ hm => exact ⟨_, _, _, _, _, _, hm⟩
  | resolveIntervention _ _ _ _ _ _ hm => exact ⟨_, _, _, _, _, _, hm⟩

/-- Every operation but a transition into intervention keeps the metadata that
goes with the state. -/
theorem suspended_of_effect (r s : RunSnapshot) (op : EngineOp) (h : Effect r s op)
    (hr : Suspended r) (hop : op ≠ .transition awaitingHumanIntervention) : Suspended s := by
  cases h with
  | transition t hl _ hm =>
    have hp : t ≠ paused := fun he => paused_not_legal r.state (he ▸ hl)
    have hi : t ≠ awaitingHumanIntervention := fun he => hop (he ▸ rfl)
    exact suspended_of_plain r s t _ _ hm hp hi
  | awaitApproval g d hm =>
    refine suspended_of_plain r s _ _ _ hm ?_ ?_ <;> cases g <;> decide
  | pause ht hp hm =>
    unfold Suspended
    rw [hm.state_eq]
    exact ⟨suspensionContextOf r, hm.suspensionContext_eq, hm.suspendedState_eq,
      hm.suspensionKind_eq, hideable_of_suspended r hr ht hp⟩
  | resumeBare st hp _ hc hm =>
    obtain ⟨c, hc', -⟩ := suspended_paused r hr hp
    rw [hc] at hc'
    cases hc'
  | resume c hp hc hm =>
    obtain ⟨c', hc', hh⟩ := suspended_paused r hr hp
    rw [hc] at hc'
    cases hc'
    exact suspended_of_resumed r s c hh hm
  | intervene hl hm =>
    unfold Suspended
    rw [hm.state_eq]
    exact ⟨r.state, hm.suspendedState_eq, hl, hm.suspensionKind_eq, hm.suspensionContext_eq⟩
  | resumeInterruptedWork st hst _ hm =>
    refine suspended_of_plain r s st _ _ hm ?_ ?_ <;> rintro rfl <;> exact absurd hst (by decide)
  | resolveIntervention t st _ hl _ hi hm =>
    have hp : t ≠ paused := fun he => paused_not_legal st (he ▸ hl)
    exact suspended_of_plain r s t _ _ hm hp hi

theorem persistable_of_effect (r s : RunSnapshot) (op : EngineOp) (h : Effect r s op)
    (hr : Persistable r) (hop : op ≠ .transition awaitingHumanIntervention) : Persistable s := by
  obtain ⟨t, ss, sk, sc, g, d, hm⟩ := effect_moved r s op h
  have hrest := hm.rest_eq
  simp only [Prod.mk.injEq] at hrest
  have hv := hr.version_nonneg
  exact ⟨by rw [hm.version_eq]; omega, by rw [hrest.1]; exact hr.local_nonneg,
    by rw [hrest.2.1]; exact hr.remote_nonneg, suspended_of_effect r s op h hr.suspended hop⟩

theorem sameIdentity_of_effect (rec : RunRecord) (r s : RunSnapshot) (op : EngineOp)
    (h : Effect r s op) (hr : SameIdentity rec r) : SameIdentity rec s := by
  obtain ⟨t, ss, sk, sc, g, d, hm⟩ := effect_moved r s op h
  unfold SameIdentity at hr ⊢
  rw [hr]
  exact hm.identity_eq.symm

/- Whole runs. -/

/-- A sequence of engine operations, each applied to the result of the one before. -/
def runOps : RunSnapshot → List EngineOp → Except EngineError RunSnapshot
  | s, [] => .ok s
  | s, op :: ops => op.apply s >>= fun s' => runOps s' ops

theorem runOps_append (s : RunSnapshot) (l m : List EngineOp) :
    runOps s (l ++ m) = runOps s l >>= fun s' => runOps s' m := by
  induction l generalizing s with
  | nil => rfl
  | cons op l ih =>
    simp only [List.cons_append, runOps]
    cases op.apply s with
    | error e => rfl
    | ok s' => exact ih s'

theorem runOps_invariant (rec : RunRecord) (s t : RunSnapshot) (ops : List EngineOp)
    (h : runOps s ops = .ok t) (hi : SameIdentity rec s) (hs : Persistable s)
    (hops : ∀ op ∈ ops, op ≠ .transition awaitingHumanIntervention) :
    SameIdentity rec t ∧ Persistable t := by
  induction ops generalizing s with
  | nil =>
    cases h
    exact ⟨hi, hs⟩
  | cons op ops ih =>
    rw [runOps, bind_eq_ok] at h
    obtain ⟨s', ha, hrest⟩ := h
    have he := apply_effect s s' op ha
    have hop : op ≠ .transition awaitingHumanIntervention := hops op List.mem_cons_self
    exact ih s' hrest (sameIdentity_of_effect rec s s' op he hi)
      (persistable_of_effect s s' op he hs hop)
      fun op' h' => hops op' (List.mem_cons_of_mem _ h')

theorem create_fresh (db : CreateContext) (run : RunSnapshot) (rec : RunRecord)
    (h : create db run = .ok rec) :
    Persistable run ∧ (run.policyVersion.isSome = true → SameIdentity rec run) := by
  unfold create at h
  rw [bind_unit_eq_ok] at h
  obtain ⟨hv, h⟩ := h
  simp only [validateNewSnapshot, require_bind_eq_ok] at hv
  obtain ⟨hst, hver, ⟨hss, hsk⟩, hsc, -, -, ⟨hl, hr⟩, -⟩ := hv
  refine ⟨⟨by omega, by omega, by omega, ?_⟩, ?_⟩
  · unfold Suspended
    rw [hst]
    exact ⟨hss, hsk, hsc⟩
  · intro hpv
    split at h
    · cases h
    · cases h
    · next current _ =>
      simp only [require_bind_eq_ok] at h
      obtain ⟨-, hcur, -, h⟩ := h
      split at h
      · cases h
      · simp only [require_bind_eq_ok] at h
        obtain ⟨-, -, h⟩ := h
        cases h
        obtain ⟨v, hv⟩ := Option.isSome_iff_exists.mp hpv
        simp [SameIdentity, hv]

/-- Starting from a run accepted by `create`, the snapshot after every prefix of
a successful sequence of engine operations survives saving and loading exactly
when the fresh snapshot carries its policy version and no operation is a plain
transition into human intervention. -/
theorem roundTrips_iff (db : CreateContext) (run last : RunSnapshot) (rec : RunRecord)
    (ops : List EngineOp) (hc : create db run = .ok rec) (h : runOps run ops = .ok last) :
    (∀ l m s, ops = l ++ m → runOps run l = .ok s → RoundTrips rec s) ↔
      run.policyVersion.isSome = true ∧
        ∀ op ∈ ops, op ≠ .transition awaitingHumanIntervention := by
  obtain ⟨hp, hid⟩ := create_fresh db run rec hc
  constructor
  · intro hall
    constructor
    · have h0 := hall [] ops run rfl rfl
      rw [(snapshotFromRecord_loaded _ _ h0).2]
      rfl
    · rintro op hop rfl
      obtain ⟨l, m, rfl⟩ := List.append_of_mem hop
      rw [runOps_append, bind_eq_ok] at h
      obtain ⟨s, hs, h⟩ := h
      rw [runOps, bind_eq_ok] at h
      obtain ⟨t, ht, -⟩ := h
      have hpre : runOps run (l ++ [.transition awaitingHumanIntervention]) = .ok t := by
        rw [runOps_append, hs]
        show (EngineOp.apply s _ >>= fun s' => runOps s' []) = _
        rw [ht]
        rfl
      have hrt := hall (l ++ [.transition awaitingHumanIntervention]) m t (by simp) hpre
      cases apply_effect s t _ ht with
      | transition _ _ _ hm =>
        exact not_roundTrips_bare_intervention rec t hm.state_eq hm.suspendedState_eq hrt
  · rintro ⟨hpv, hops⟩ l m s rfl hl
    have hl' : ∀ op ∈ l, op ≠ .transition awaitingHumanIntervention :=
      fun op ho => hops op (List.mem_append_left _ ho)
    obtain ⟨hi, hs⟩ := runOps_invariant rec run s l hl (hid hpv) hp hl'
    exact roundTrips_of_persistable rec s hi hs

/-- A project with policy 1 and one task, and a run accepted for it. -/
def sampleContext : CreateContext where
  currentPolicyVersion := fun project => if project = 1 then some (some 1) else none
  policyExists := fun project version => project == 1 && version == 1
  taskProject := fun task => if task = 2 then some 1 else none
  runExists := fun _ => false

def sampleRun : RunSnapshot where
  id := 3
  projectId := 1
  taskId := 2
  state := created
  version := 0
  suspendedState := none
  localRemediationCount := 0
  remoteRemediationCount := 0
  suspensionKind := none
  suspensionContext := none
  policyVersion := some 1
  baseRef := none
  baseSha := none
  branchName := none
  worktreePath := none
  databaseState := .disabled
  databaseName := none
  databaseRole := none
  secretId := none
  pendingGate := none
  pendingEvidenceDigest := none
  workflow := none
  resource_ok := by decide
  pending_ok := by decide

theorem roundTrips_through_intervention : ∃ rec last,
    create sampleContext sampleRun = .ok rec ∧
    runOps sampleRun [.transition planning, .intervene, .pause, .resume] = .ok last ∧
    RoundTrips rec last := by
  refine ⟨_, _, rfl, rfl, ?_⟩
  refine (roundTrips_iff sampleContext sampleRun _ _
    [.transition planning, .intervene, .pause, .resume] rfl rfl).mpr ?_
    [.transition planning, .intervene, .pause, .resume] [] _ rfl rfl
  decide

theorem transition_into_intervention_unloadable : ∃ rec last,
    create sampleContext sampleRun = .ok rec ∧
    runOps sampleRun [.transition planning, .transition awaitingHumanIntervention] = .ok last ∧
    snapshotFromRecord (applySnapshot rec last)
      = .error (.message "intervention run has malformed suspension metadata") :=
  ⟨_, _, rfl, rfl, rfl⟩

end ParallelForge.Run
