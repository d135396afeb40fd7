import ParallelForge.Scheduling.Steps

/-!
# The candidate barrier

A run's barrier goes from open to draining (`begin_candidate`), to closed
(`close_candidate`), and back to open when the candidate is refused. Nothing
is claimed or admitted while it drains; closing needs an idle run; and while
it is closed only reads of that epoch happen.
-/

namespace ParallelForge.Scheduling
open Base Run

variable {pathKey : String → String}

/-- How one action may move the barrier of a run. -/
inductive BarrierMove (a : Action) (runId : UUID) (r r' : SchedulerRun) : Prop
  | stays (h : SameBarrier r r')
  | drains (hs : r.candidateState = .opened) (hs' : r'.candidateState = .draining)
      (he : r'.candidateEpoch = r.candidateEpoch)
  | closes (epoch : ℕ) (ha : a = .closeCandidate runId epoch) (hs : r.candidateState = .draining)
      (hs' : r'.candidateState = .closed) (he : r'.candidateEpoch = r.candidateEpoch + 1)
  | reopens (hs : r.candidateState = .closed) (hs' : r'.candidateState = .opened)
      (he : r'.candidateEpoch = r.candidateEpoch + 1)

theorem BarrierMove.epoch_le {a : Action} {runId : UUID} {r r' : SchedulerRun}
    (h : BarrierMove a runId r r') : r.candidateEpoch ≤ r'.candidateEpoch := by
  cases h with
  | stays h => exact h.epoch.ge
  | drains hs hs' he => exact he.ge
  | closes epoch ha hs hs' he => omega
  | reopens hs hs' he => omega

/- A barrier that is not open was there before. -/
theorem barrier_before {t t' : Table UUID SchedulerRun}
    (h : Table.Evolves SameBarrier FreshRun t t') (runId : UUID) (r' : SchedulerRun)
    (hr : t'.get runId = some r') (hs : r'.candidateState ≠ .opened) :
    ∃ r, t.get runId = some r ∧ SameBarrier r r' := by
  rcases h.back runId r' hr with ⟨-, hf⟩ | hx
  · exact absurd hf.1 hs
  · exact hx

theorem StepKind.barrier {db db' : Db} {a : Action} (h : StepKind pathKey db a db') (runId : UUID)
    (r : SchedulerRun) (hr : db.schedulerRuns.get runId = some r) :
    ∃ r', db'.schedulerRuns.get runId = some r' ∧ BarrierMove a runId r r' := by
  cases h with
  | quiet hq =>
    obtain ⟨r', hr', hsame⟩ := hq.runs.forth runId r hr
    exact ⟨r', hr', .stays hsame⟩
  | granted cx mid id row run ha hq hc hg =>
    obtain ⟨r1, hr1, hs1⟩ := hq.runs.forth runId r hr
    obtain ⟨r2, hr2, hs2⟩ := hg.runs.forth runId r1 hr1
    exact ⟨r2, hr2, .stays (hs1.trans _ _ _ hs2)⟩
  | admitted lease request now row run ha hc hd =>
    subst hd
    exact ⟨r, hr, .stays (SameBarrier.refl r)⟩
  | began runId' run ha hr' hs hd =>
    subst hd
    by_cases hk : runId = runId'
    · subst hk
      cases hr.symm.trans hr'
      exact ⟨_, Table.get_put_self _ _ _, .drains hs rfl rfl⟩
    · exact ⟨r, (Table.get_put_ne _ _ hk).trans hr, .stays (SameBarrier.refl r)⟩
  | closed runId' epoch run ha hr' hs ht he hd =>
    subst hd
    by_cases hk : runId = runId'
    · subst hk
      cases hr.symm.trans hr'
      exact ⟨_, Table.get_put_self _ _ _, .closes epoch ha hs rfl rfl⟩
    · exact ⟨r, (Table.get_put_ne _ _ hk).trans hr, .stays (SameBarrier.refl r)⟩
  | reopened mid runId' run hq hr' hs hd =>
    obtain ⟨r1, hr1, hs1⟩ := hq.runs.forth runId r hr
    by_cases hk : runId = runId'
    · subst hk
      cases hr1.symm.trans hr'
      obtain ⟨r2, hr2, hs2⟩ := hd.runs.forth runId _ (Table.get_put_self _ _ _)
      have hclosed : r.candidateState = .closed := hs1.state.symm.trans hs
      have hepoch : r2.candidateEpoch = r.candidateEpoch + 1 := by
        rw [hs2.epoch, reopenCandidate, hs1.epoch]
      exact ⟨r2, hr2, .reopens hclosed hs2.state hepoch⟩
    · obtain ⟨r2, hr2, hs2⟩ := hd.runs.forth runId r1
        ((Table.get_put_ne _ _ hk).trans hr1)
      exact ⟨r2, hr2, .stays (hs1.trans _ _ _ hs2)⟩

section draining

/-- From one state to another a run takes on nothing: whatever is live has the
lease it had, and every effect was there. -/
structure TakesNothing (runId : UUID) (db db' : Db) : Prop where
  tasks : ∀ k r', db'.scheduled.get k = some r' → r'.runId = runId → r'.live = true →
    ∃ r, db.scheduled.get k = some r ∧ r.runId = runId ∧ r.live = true ∧
      r'.leaseGeneration = r.leaseGeneration
  effects : ∀ k e', db'.effects.get k = some e' → e'.runId = runId →
    ∃ e, db.effects.get k = some e ∧ Settles e e'

theorem TakesNothing.refl (runId : UUID) (db : Db) : TakesNothing runId db db :=
  ⟨fun _ r hr hrun hl => ⟨r, hr, hrun, hl, rfl⟩, fun _ e he _ => ⟨e, he, Settles.refl e⟩⟩

theorem TakesNothing.trans {runId : UUID} {a b c : Db} (h : TakesNothing runId a b)
    (k : TakesNothing runId b c) : TakesNothing runId a c := by
  constructor
  · intro i r hr hrun hl
    obtain ⟨r1, hr1, hrun1, hl1, hg1⟩ := k.tasks i r hr hrun hl
    obtain ⟨r2, hr2, hrun2, hl2, hg2⟩ := h.tasks i r1 hr1 hrun1 hl1
    exact ⟨r2, hr2, hrun2, hl2, hg1.trans hg2⟩
  · intro i e he hrun
    obtain ⟨e1, he1, hs1⟩ := k.effects i e he hrun
    obtain ⟨e2, he2, hs2⟩ := h.effects i e1 he1 (hs1.runId.symm.trans hrun)
    exact ⟨e2, he2, hs2.trans _ _ _ hs1⟩

theorem Drift.settles {db db' : Db} (h : Drift db db') (k : UUID) (e' : ScheduledEffect)
    (he : db'.effects.get k = some e') : ∃ e, db.effects.get k = some e ∧ Settles e e' := by
  exact h.effects.origin k e' he

theorem Quiet.live_before {db db' : Db} (h : Quiet db db') (k : UUID) (r' : ScheduledTask)
    (hr : db'.scheduled.get k = some r') (hl : r'.live = true) :
    ∃ r, db.scheduled.get k = some r ∧ r.live = true ∧ Touch r r' := by
  rcases h.tasks.back k r' hr with ⟨-, hf⟩ | ⟨r, hget, ht⟩
  · rw [hf.1] at hl
    cases hl
  · exact ⟨r, hget, ht.live hl, ht⟩

theorem Quiet.takesNothing {db db' : Db} (h : Quiet db db') (runId : UUID) :
    TakesNothing runId db db' := by
  refine ⟨?_, fun k e' he _ => h.drift.settles k e' he⟩
  intro k r' hr hrun hl
  obtain ⟨r, hget, hlive, ht⟩ := h.live_before k r' hr hl
  exact ⟨r, hget, ht.runId.symm.trans hrun, hlive, ht.generation⟩

/- A move of some barrier touches no task and no effect. -/
theorem TakesNothing.putRun (runId runId' : UUID) (db : Db) (run : SchedulerRun) :
    TakesNothing runId db (db.putRun runId' run) :=
  ⟨(TakesNothing.refl runId db).tasks, (TakesNothing.refl runId db).effects⟩

theorem claim_not_draining {mid : Db} {id : UUID} {row : ScheduledTask} {run : SchedulerRun}
    (hc : ClaimChecks pathKey mid id row run) : run.candidateState ≠ .draining := by
  rcases hc.barrier with h | ⟨h, -⟩ <;> rw [h] <;> decide

theorem draining_takesNothing {db db' : Db} {a : Action} (h : StepKind pathKey db a db')
    (runId : UUID) (r : SchedulerRun) (hr : db.schedulerRuns.get runId = some r)
    (hs : r.candidateState = .draining) : TakesNothing runId db db' := by
  cases h with
  | quiet hq => exact hq.takesNothing runId
  | granted cx mid id row run ha hq hc hg =>
    -- the claimed task is of another run, whose barrier let it through
    have hne : row.runId ≠ runId := by
      intro heq
      obtain ⟨r1, hr1, hs1⟩ := hq.runs.forth runId r hr
      have hrun := hc.ofRun
      rw [heq, hr1] at hrun
      cases hrun
      exact claim_not_draining hc (hs1.state.trans hs)
    refine (hq.takesNothing runId).trans ⟨?_, ?_⟩
    · intro k r' hr' hrun hl
      by_cases hk : k = id
      · subst hk
        obtain ⟨p, hp⟩ := hg.task
        cases hr'.symm.trans hp
        exact absurd hrun hne
      · rw [hg.others k hk] at hr'
        exact ⟨r', hr', hrun, hl, rfl⟩
    · intro k e he _
      rw [hg.effects] at he
      exact ⟨e, he, Settles.refl e⟩
  | admitted lease request now row run ha hc hd =>
    subst hd
    refine ⟨(TakesNothing.refl runId db).tasks, ?_⟩
    intro k e he hrun
    by_cases hk : k = request.effectId
    · subst hk
      cases (Table.get_put_self db.effects _ _).symm.trans he
      -- the admitted effect is of another run as well
      have hrun' := hc.ofRun
      rw [show lease.runId = runId from hrun, hr] at hrun'
      cases hrun'
      rcases hc.barrier with hb | ⟨hb, -⟩ <;> rw [hs] at hb <;> cases hb
    · exact ⟨e, (Table.get_put_ne db.effects _ hk).symm.trans he, Settles.refl e⟩
  | began runId' run ha hr' hs' hd => subst hd; exact TakesNothing.putRun runId runId' db _
  | closed runId' epoch run ha hr' hs' ht he hd =>
    subst hd
    exact TakesNothing.putRun runId runId' db _
  | reopened mid runId' run hq hr' hs' hd =>
    exact ((hq.takesNothing runId).trans (TakesNothing.putRun runId runId' mid _)).trans
      (hd.takesNothing runId)

/- Once at an epoch, a barrier is never again at an earlier one. -/
theorem run_epoch_le (db : Db) (actions : List Action) (runId : UUID) (r : SchedulerRun)
    (hr : db.schedulerRuns.get runId = some r) :
    ∃ r', (run (step pathKey) db actions).schedulerRuns.get runId = some r' ∧
      r.candidateEpoch ≤ r'.candidateEpoch := by
  induction actions generalizing db r with
  | nil => exact ⟨r, hr, le_refl _⟩
  | cons a actions ih =>
    obtain ⟨r1, hr1, hmove⟩ := (@step_kind pathKey db a).barrier runId r hr
    obtain ⟨r2, hr2, hle⟩ := ih (step pathKey db a) r1 hr1
    exact ⟨r2, hr2, hmove.epoch_le.trans hle⟩

/-- Between two states of one draining phase the run takes on nothing: leaving the
phase costs an epoch. -/
theorem run_draining (db : Db) (actions : List Action) (runId : UUID) (r r' : SchedulerRun)
    (hr : db.schedulerRuns.get runId = some r) (hs : r.candidateState = .draining)
    (hr' : (run (step pathKey) db actions).schedulerRuns.get runId = some r')
    (he : r'.candidateEpoch = r.candidateEpoch) :
    TakesNothing runId db (run (step pathKey) db actions) := by
  induction actions generalizing db r with
  | nil => exact TakesNothing.refl runId db
  | cons a actions ih =>
    have hkind := @step_kind pathKey db a
    obtain ⟨r1, hr1, hmove⟩ := hkind.barrier runId r hr
    have hfirst := draining_takesNothing hkind runId r hr hs
    obtain ⟨r2, hr2, hle⟩ := @run_epoch_le pathKey (step pathKey db a) actions runId r1 hr1
    have h2 : r2 = r' := Option.some.inj (hr2.symm.trans hr')
    subst h2
    cases hmove with
    | stays hb =>
      exact hfirst.trans (ih (step pathKey db a) r1 hr1 (hb.state.trans hs) hr'
        (he.trans hb.epoch.symm))
    | drains ho => rw [hs] at ho; cases ho
    | closes epoch ha hd hc hn => omega
    | reopens hc => rw [hs] at hc; cases hc

end draining

section closed

/-- Every unsettled effect of the run is a read bound to this epoch. -/
def ReadsOfEpoch (db : Db) (runId : UUID) (epoch : ℕ) : Prop :=
  ∀ k e, db.effects.get k = some e → e.runId = runId → e.unsettled = true →
    e.candidateEpoch = epoch ∧ ∃ owner, db.taskOf runId e.taskId = some owner ∧
      isBoundRead db k e.taskId owner e.leaseOwner e.leaseGeneration false = true

/-- Whatever is leased or reconciling in the run is read-only or its coordinator. -/
def ReadersLive (pathKey : String → String) (db : Db) (runId : UUID) : Prop :=
  ∀ k r, db.scheduled.get k = some r → r.runId = runId → r.live = true →
    r.readOnly = true ∨ isCoordinator pathKey db k r = true

def Frozen (pathKey : String → String) (db : Db) : Prop :=
  ∀ runId r, db.schedulerRuns.get runId = some r → r.candidateState = .closed →
    ReadsOfEpoch db runId r.candidateEpoch ∧ ReadersLive pathKey db runId

theorem readsOfEpoch_drift {db db' : Db} {runId : UUID} {epoch : ℕ} (h : ReadsOfEpoch db runId epoch)
    (hd : Drift db db') : ReadsOfEpoch db' runId epoch := by
  intro k e' he hrun hu
  obtain ⟨e, hget, hs⟩ := hd.settles k e' he
  obtain ⟨hepoch, owner, howner, hread⟩ := h k e hget (hs.runId.symm.trans hrun) (hs.unsettled hu)
  obtain ⟨owner', howner', hkin⟩ := hd.owner runId e.taskId owner howner
  refine ⟨hs.epoch.trans hepoch, owner', by rw [hs.taskId]; exact howner', ?_⟩
  rw [hs.taskId, hs.owner, hs.generation]
  exact isBoundRead_mono db db' k e.taskId owner owner' _ _ _ hd.bindings hkin.runId hread

/- A reader stays one under any drift. -/
theorem reader_drift {db db' : Db} (hd : Drift db db') (k : UUID) (r r' : ScheduledTask)
    (hk : Kin r r') (h : r.readOnly = true ∨ isCoordinator pathKey db k r = true) :
    r'.readOnly = true ∨ isCoordinator pathKey db' k r' = true := by
  rcases h with hro | hc
  · exact Or.inl (hk.readOnly.trans hro)
  · exact Or.inr (hd.coordinator k r r' hk hc)

theorem readersLive_quiet {db db' : Db} {runId : UUID} (h : ReadersLive pathKey db runId)
    (hq : Quiet db db') : ReadersLive pathKey db' runId := by
  intro k r' hr hrun hl
  obtain ⟨r, hget, hlive, ht⟩ := hq.live_before k r' hr hl
  exact reader_drift hq.drift k r r' ht.kin (h k r hget (ht.runId.symm.trans hrun) hlive)

theorem frozen_quiet {db db' : Db} (h : Frozen pathKey db) (hq : Quiet db db') :
    Frozen pathKey db' := by
  intro runId r' hr' hs
  obtain ⟨r, hr, hsame⟩ := barrier_before hq.runs runId r' hr' (by rw [hs]; decide)
  obtain ⟨heff, htask⟩ := h runId r hr (hsame.state.symm.trans hs)
  rw [hsame.epoch]
  exact ⟨readsOfEpoch_drift heff hq.drift, readersLive_quiet htask hq⟩

/- The barrier of a run moves, and a run it closes is frozen. -/
theorem frozen_putRun {db : Db} (h : Frozen pathKey db) (runId : UUID) (run : SchedulerRun)
    (hnew : run.candidateState = .closed →
      ReadsOfEpoch db runId run.candidateEpoch ∧ ReadersLive pathKey db runId) :
    Frozen pathKey (db.putRun runId run) := by
  intro runId' r hr hs
  by_cases hk : runId' = runId
  · subst hk
    cases (Table.get_put_self db.schedulerRuns _ _).symm.trans hr
    exact hnew hs
  · exact h runId' r ((Table.get_put_ne db.schedulerRuns _ hk).symm.trans hr) hs

/- The task a claim took from a closed candidate is a reader. -/
theorem claimed_reader {mid : Db} {id : UUID} {row : ScheduledTask} {run : SchedulerRun}
    (hc : ClaimChecks pathKey mid id row run) (hs : run.candidateState = .closed) :
    row.readOnly = true ∨ isCoordinator pathKey mid id row = true := by
  rcases hc.barrier with h | ⟨-, h⟩
  · rw [hs] at h
    cases h
  · rw [canReadCandidate, Bool.or_eq_true] at h
    rcases h with hcoord | hread
    · exact Or.inr hcoord
    · left
      split at hread
      · cases hread
      · exact (Bool.and_eq_true_iff.mp hread).1

theorem frozen_grant {mid db' : Db} {cx : ClaimContext} {id : UUID} {row : ScheduledTask}
    {run : SchedulerRun} (h : Frozen pathKey mid) (hc : ClaimChecks pathKey mid id row run)
    (hg : GrantFrom mid db' cx id row) : Frozen pathKey db' := by
  intro runId r' hr' hs
  have hd := hg.drift hc.get
  obtain ⟨r, hr, hsame⟩ := barrier_before hg.runs runId r' hr' (by rw [hs]; decide)
  have hclosed : r.candidateState = .closed := hsame.state.symm.trans hs
  obtain ⟨heff, htask⟩ := h runId r hr hclosed
  rw [hsame.epoch]
  refine ⟨readsOfEpoch_drift heff hd, ?_⟩
  intro k t ht hrun hl
  by_cases hk : k = id
  · subst hk
    obtain ⟨p, hp⟩ := hg.task
    cases ht.symm.trans hp
    have hrow : row.runId = runId := hrun
    have hof := hc.ofRun
    rw [hrow, hr] at hof
    cases hof
    exact reader_drift hd k row _ ⟨rfl, rfl, rfl, rfl, Or.inl rfl⟩ (claimed_reader hc hclosed)
  · rw [hg.others k hk] at ht
    exact reader_drift hd k t t (Kin.refl t) (htask k t ht hrun hl)

theorem frozen_admit {db : Db} {lease : TaskLease} {request : EffectRequest} {now : ℤ}
    {row : ScheduledTask} {run : SchedulerRun} (exclusive : Bool) (h : Frozen pathKey db)
    (hc : AdmitChecks pathKey db lease request now row run) :
    Frozen pathKey (db.putEffect request.effectId (newEffect lease run.candidateEpoch exclusive)) := by
  intro runId r hr hs
  obtain ⟨heff, htask⟩ := h runId r hr hs
  refine ⟨?_, htask⟩
  intro k e he hrun hu
  by_cases hk : k = request.effectId
  · subst hk
    cases (Table.get_put_self db.effects _ _).symm.trans he
    have hlease : lease.runId = runId := hrun
    have hget : db.schedulerRuns.get runId = some r := hr
    have hof := hc.ofRun
    rw [hlease, hget] at hof
    cases hof
    refine ⟨rfl, row, hlease ▸ hc.owner, ?_⟩
    rcases hc.barrier with hb | ⟨-, hread⟩
    · rw [hs] at hb
      cases hb
    · exact (Bool.and_eq_true_iff.mp hread).2
  · exact heff k e ((Table.get_put_ne db.effects _ hk).symm.trans he) hrun hu

theorem frozen_step (db : Db) (a : Action) (h : Frozen pathKey db) :
    Frozen pathKey (step pathKey db a) := by
  cases @step_kind pathKey db a with
  | quiet hq => exact frozen_quiet h hq
  | granted cx mid id row run ha hq hc hg => exact frozen_grant (frozen_quiet h hq) hc hg
  | admitted lease request now row run ha hc hd => rw [hd]; exact frozen_admit _ h hc
  | began runId run ha hr hs hd =>
    rw [hd]
    refine frozen_putRun h runId _ ?_
    intro hclosed
    cases hclosed
  | closed runId epoch run ha hr hs ht he hd =>
    rw [hd]
    refine frozen_putRun h runId _ ?_
    intro _
    constructor
    · intro k e hk hrun hu
      rw [he k e hk hrun] at hu
      cases hu
    · intro k r hk hrun hl
      rw [ht k r hk hrun] at hl
      cases hl
  | reopened mid runId run hq hr hs hd =>
    refine frozen_quiet (frozen_putRun (frozen_quiet h hq) runId _ ?_) hd
    intro hclosed
    cases hclosed

end closed

/-- The candidate barrier at one state of the scheduler. -/
structure CandidateBarrier (pathKey : String → String) (db : Db) : Prop where
  began : ∀ runId db' epoch, beginCandidate db runId = .ok (db', epoch) →
    ∃ r, db'.schedulerRuns.get runId = some r ∧ r.candidateState = .draining ∧
      r.candidateEpoch = epoch
  notClaimed : ∀ runId r, db.schedulerRuns.get runId = some r → r.candidateState = .draining →
    ∀ cx db' lease, claimReady pathKey db cx = .ok (db', some lease) → lease.runId ≠ runId
  notAdmitted : ∀ runId r, db.schedulerRuns.get runId = some r → r.candidateState = .draining →
    ∀ lease request now out, admitEffect pathKey db lease request now = .ok out →
      lease.runId ≠ runId
  drains : ∀ runId r, db.schedulerRuns.get runId = some r → r.candidateState = .draining →
    ∀ actions r', (run (step pathKey) db actions).schedulerRuns.get runId = some r' →
      r'.candidateState = .draining → r'.candidateEpoch = r.candidateEpoch →
      TakesNothing runId db (run (step pathKey) db actions)
  closes : ∀ runId epoch db', closeCandidate db runId epoch = .ok db' →
    (∀ k r, db.scheduled.get k = some r → r.runId = runId → r.live = false) ∧
      (∀ k e, db.effects.get k = some e → e.runId = runId → e.unsettled = false) ∧
      ∃ r r', db.schedulerRuns.get runId = some r ∧ db'.schedulerRuns.get runId = some r' ∧
        r'.candidateState = .closed ∧ r.candidateEpoch < r'.candidateEpoch
  epochs : ∀ runId r, db.schedulerRuns.get runId = some r → ∀ actions,
    ∃ r', (run (step pathKey) db actions).schedulerRuns.get runId = some r' ∧
      r.candidateEpoch ≤ r'.candidateEpoch
  frozen : ∀ runId r, db.schedulerRuns.get runId = some r → r.candidateState = .closed →
    ReadsOfEpoch db runId r.candidateEpoch ∧ ReadersLive pathKey db runId

theorem claim_of_draining (db db' : Db) (cx : ClaimContext) (lease : TaskLease) (runId : UUID)
    (r : SchedulerRun) (hr : db.schedulerRuns.get runId = some r)
    (hs : r.candidateState = .draining)
    (h : claimReady pathKey db cx = .ok (db', some lease)) : lease.runId ≠ runId := by
  rcases claimReady_eq_ok db db' cx (some lease) h with ⟨hn, -⟩ | ⟨mid, id, row, run, hq, hc, -, hl⟩
  · cases hn
  · cases hl
    intro heq
    obtain ⟨r1, hr1, hs1⟩ := hq.runs.forth runId r hr
    have hof := hc.ofRun
    rw [show row.runId = runId from heq, hr1] at hof
    cases hof
    exact claim_not_draining hc (hs1.state.trans hs)

/- Also a replayed effect meets the barrier again. -/
theorem admit_of_draining (db : Db) (lease : TaskLease) (request : EffectRequest) (now : ℤ)
    (out : Db × TaskEffectLease) (runId : UUID) (r : SchedulerRun)
    (hr : db.schedulerRuns.get runId = some r) (hs : r.candidateState = .draining)
    (h : admitEffect pathKey db lease request now = .ok out) : lease.runId ≠ runId := by
  unfold admitEffect at h
  simp only [bind_eq_ok, orRaise_eq_ok, Option.filter_eq_some_iff] at h
  obtain ⟨-, -, -, -, row, -, run, ⟨hrun, -⟩, -, -, -, -, -, -, h⟩ := h
  have hbar : run.candidateState ≠ .draining := by
    have hb : run.candidateState = .opened ∨ run.candidateState = .closed := by
      cases he : db.effects.get request.effectId with
      | none =>
        rw [he] at h
        simp only [bind_eq_ok, require_eq_ok] at h
        obtain ⟨-, -, -, hb, -⟩ := h
        exact hb.imp id And.left
      | some e =>
        rw [he] at h
        simp only [bind_eq_ok, require_eq_ok] at h
        obtain ⟨-, hb, -⟩ := h
        exact hb.imp id And.left
    rcases hb with hb | hb <;> rw [hb] <;> decide
  intro heq
  rw [heq, hr] at hrun
  cases hrun
  exact hbar hs

theorem closeCandidate_idle (db db' : Db) (runId : UUID) (epoch : ℕ)
    (h : closeCandidate db runId epoch = .ok db') :
    (∀ k r, db.scheduled.get k = some r → r.runId = runId → r.live = false) ∧
      (∀ k e, db.effects.get k = some e → e.runId = runId → e.unsettled = false) ∧
      ∃ r r', db.schedulerRuns.get runId = some r ∧ db'.schedulerRuns.get runId = some r' ∧
        r'.candidateState = .closed ∧ r.candidateEpoch < r'.candidateEpoch := by
  unfold closeCandidate at h
  simp only [bind_eq_ok, orRaise_eq_ok, Option.filter_eq_some_iff, require_eq_ok] at h
  obtain ⟨-, -, r, ⟨hr, -⟩, -, ht, -, he, h⟩ := h
  cases h
  rw [Table.any_eq_false] at ht he
  refine ⟨?_, ?_, r, _, hr, Table.get_put_self _ _ _, rfl, Nat.lt_succ_self _⟩
  · intro k t hk hrun
    simpa [hrun] using ht k t hk
  · intro k e hk hrun
    simpa [hrun] using he k e hk

theorem beginCandidate_drains (db db' : Db) (runId : UUID) (epoch : ℕ)
    (h : beginCandidate db runId = .ok (db', epoch)) :
    ∃ r, db'.schedulerRuns.get runId = some r ∧ r.candidateState = .draining ∧
      r.candidateEpoch = epoch := by
  unfold beginCandidate at h
  simp only [bind_eq_ok] at h
  obtain ⟨-, -, r, -, -, -, h⟩ := h
  cases h
  exact ⟨_, Table.get_put_self _ _ _, rfl, rfl⟩

/-- The barrier holds in every state of every run of the scheduler. -/
theorem candidate_barrier (pathKey : String → String) (env : Surroundings) (actions : List Action) :
    CandidateBarrier pathKey (reach pathKey env actions) := by
  have hinit : Frozen pathKey (Db.init env) := by
    intro runId r hr
    cases hr
  have hfrozen : Frozen pathKey (reach pathKey env actions) :=
    run_invariant (step pathKey) (Frozen pathKey) frozen_step (Db.init env) actions hinit
  generalize reach pathKey env actions = db at hfrozen ⊢
  refine ⟨?_, ?_, ?_, ?_, ?_, ?_, hfrozen⟩
  · intro runId db' epoch h
    exact beginCandidate_drains db db' runId epoch h
  · intro runId r hr hs cx db' lease h
    exact claim_of_draining db db' cx lease runId r hr hs h
  · intro runId r hr hs lease request now out h
    exact admit_of_draining db lease request now out runId r hr hs h
  · intro runId r hr hs more r' hr' _ he
    exact run_draining db more runId r r' hr hs hr' he
  · intro runId epoch db' h
    exact closeCandidate_idle db db' runId epoch h
  · intro runId r hr more
    exact run_epoch_le db more runId r hr

end ParallelForge.Scheduling
