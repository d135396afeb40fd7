import ParallelForge.Scheduling.Frame

/-!
# What each action does

One lemma for each operation, and from them the classification of a step:
quiet, a granted claim, an admitted effect, or a move of a candidate.
-/

namespace ParallelForge.Scheduling
open Base Run

variable {pathKey : String → String}

/-- The lease is its task's current one and has not ended. -/
structure Holds (db : Db) (lease : TaskLease) (now : ℤ) (row : ScheduledTask) : Prop where
  get : db.scheduled.get lease.taskId = some row
  runId : row.runId = lease.runId
  leased : row.state = .leased
  owner : row.leaseOwner = some lease.owner
  generation : row.leaseGeneration = lease.generation
  unexpired : ∃ e, row.leaseExpiresAt = some e ∧ now < e

theorem taskOf_eq_some (db : Db) (runId id : UUID) (r : ScheduledTask) :
    db.taskOf runId id = some r ↔ db.scheduled.get id = some r ∧ r.runId = runId := by
  simp [Db.taskOf, Option.filter_eq_some_iff]

theorem leasedTask_eq_ok (db : Db) (lease : TaskLease) (now : ℤ) (row : ScheduledTask) :
    leasedTask db lease now = .ok row ↔ Holds db lease now row := by
  unfold leasedTask
  simp only [bind_eq_ok, orRaise_eq_ok, Option.filter_eq_some_iff, taskOf_eq_some,
    Bool.and_eq_true, beq_iff_eq, require_eq_ok, pure, Except.pure, Except.ok.injEq]
  constructor
  · rintro ⟨r, ⟨⟨hget, hrun⟩, ⟨⟨hs, ho⟩, hg⟩, -⟩, u, hexp, rfl⟩
    obtain ⟨e, he, hlt⟩ := (Option.any_eq_true _ _).mp hexp
    exact ⟨hget, hrun, hs, ho, hg, e, he, by simpa using hlt⟩
  · rintro ⟨hget, hrun, hs, ho, hg, e, he, hlt⟩
    exact ⟨row, ⟨⟨hget, hrun⟩, ⟨⟨hs, ho⟩, hg⟩, by simp [he]⟩, (), by simp [he, hlt], rfl⟩

theorem holdsLease_eq_some (db : Db) (lease : TaskLease) (now : ℤ) (row : ScheduledTask) :
    holdsLease db lease now = some row ↔ Holds db lease now row := by
  unfold holdsLease
  simp only [Option.filter_eq_some_iff, taskOf_eq_some, Bool.and_eq_true, beq_iff_eq]
  constructor
  · rintro ⟨⟨hget, hrun⟩, ⟨⟨ho, hg⟩, hs⟩, hexp⟩
    obtain ⟨e, he, hlt⟩ := (Option.any_eq_true _ _).mp hexp
    exact ⟨hget, hrun, hs, ho, hg, e, he, by simpa using hlt⟩
  · rintro ⟨hget, hrun, hs, ho, hg, e, he, hlt⟩
    exact ⟨⟨hget, hrun⟩, ⟨⟨ho, hg⟩, hs⟩, by simp [he, hlt]⟩

theorem Holds.live {db : Db} {lease : TaskLease} {now : ℤ} {row : ScheduledTask}
    (h : Holds db lease now row) : row.live = true := by
  simp [ScheduledTask.live, h.leased]

section operations

theorem wakeTask_quiet (db : Db) (id : UUID) (row : ScheduledTask)
    (h : db.scheduled.get id = some row) : Quiet db (wakeTask db id row) := by
  refine Quiet.modifyTasks db _ _ (Table.evolves_put Touch.refl _ id row _ h ?_)
    (Table.evolves_modify Stay.refl _ id _ ?_)
  · exact Touch.idle row _ rfl rfl rfl rfl rfl rfl rfl (Or.inl rfl)
  · intro t _
    unfold wakeLogical
    split
    · exact Stay.moveTo t _
    · exact Stay.refl t

theorem wakeReadyParents_quiet (db : Db) (childId : UUID) (child : ScheduledTask)
    (scopeRequest : Bool) : Quiet db (wakeReadyParents db childId child scopeRequest) := by
  unfold wakeReadyParents
  split
  · exact Quiet.refl db
  · split
    · exact Quiet.refl db
    · next parent hp =>
      split
      · exact wakeTask_quiet db _ parent ((taskOf_eq_some _ _ _ _).mp hp).1
      · exact Quiet.refl db

theorem releaseTask_quiet (db : Db) (id : UUID) (r row : ScheduledTask) (terminal : Bool)
    (h : db.scheduled.get id = some r) (ht : Touch r (releasedTask row terminal)) :
    Quiet db (releaseTask db id row terminal) := by
  have hput := Quiet.putTask db id r _ h ht
  cases terminal with
  | false => exact hput
  | true => exact hput.trans (wakeReadyParents_quiet _ id _ false)

theorem enqueue_quiet (db db' : Db) (task : ScheduleTask) (now : ℤ)
    (h : enqueue pathKey db task now = .ok db') : Quiet db db' := by
  unfold enqueue at h
  simp only [bind_eq_ok] at h
  obtain ⟨-, -, logical, -, contract, -, -, -, h⟩ := h
  split at h
  · simp only [bind_eq_ok] at h
    obtain ⟨-, -, -, -, h⟩ := h
    cases h
    exact Quiet.refl db
  · next hnone =>
    cases h
    exact Quiet.insertTask db _ _ hnone ⟨rfl, rfl⟩

/-- Tasks are only added, and both rows of the ones there were stay. -/
def Adds (db db' : Db) : Prop :=
  (∀ k r, db.scheduled.get k = some r → db'.scheduled.get k = some r) ∧
    ∀ k t, db.logical.get k = some t → db'.logical.get k = some t

theorem Adds.trans {a b c : Db} (h : Adds a b) (k : Adds b c) : Adds a c :=
  ⟨fun i r hr => k.1 i r (h.1 i r hr), fun i t ht => k.2 i t (h.2 i t ht)⟩

theorem enqueue_adds (db db' : Db) (task : ScheduleTask) (now : ℤ)
    (h : enqueue pathKey db task now = .ok db') : Adds db db' := by
  unfold enqueue at h
  simp only [bind_eq_ok] at h
  obtain ⟨-, -, logical, -, contract, -, -, -, h⟩ := h
  split at h
  · simp only [bind_eq_ok] at h
    obtain ⟨-, -, -, -, h⟩ := h
    cases h
    exact ⟨fun _ _ h => h, fun _ _ h => h⟩
  · next hnone =>
    cases h
    refine ⟨?_, fun _ _ h => h⟩
    intro k r hk
    have hne : k ≠ task.taskId := by
      rintro rfl
      rw [hnone] at hk
      cases hk
    exact (Table.get_put_ne _ _ hne).trans hk

theorem enqueueChildren_quiet (lease : TaskLease) (now : ℤ) (children : List ScheduleTask)
    (db db' : Db) (h : enqueueChildren pathKey lease now children db = .ok db') :
    Quiet db db' := by
  induction children generalizing db with
  | nil => cases h; exact Quiet.refl _
  | cons child children ih =>
    unfold enqueueChildren at h
    simp only [bind_eq_ok] at h
    obtain ⟨-, -, db1, h1, h⟩ := h
    exact (enqueue_quiet db db1 child now h1).trans (ih db1 h)

theorem admitRun_quiet (db : Db) (runId : UUID) : Quiet db (admitRun db runId) := by
  unfold admitRun
  split
  · exact Quiet.refl db
  · split
    · next run hrun => exact Quiet.putRun db runId run _ hrun ⟨rfl, rfl⟩
    · next hrun => exact Quiet.insertRun db runId _ hrun ⟨rfl, rfl⟩

theorem markExpired_quiet (db : Db) (lease : TaskLease) (now : ℤ) :
    Quiet db (markExpired db lease now) := by
  unfold markExpired
  split
  · exact Quiet.refl db
  · next row hrow =>
    split
    · next hc =>
      exact Quiet.putTask db _ row _ ((taskOf_eq_some _ _ _ _).mp hrow).1
        (Touch.reconciling row (by simp [ScheduledTask.live, hc.1]))
    · exact Quiet.refl db

theorem renew_quiet (db db' : Db) (lease renewed : TaskLease) (leaseFor now : ℤ)
    (h : renew db lease leaseFor now = .ok (db', renewed)) :
    Quiet db db' ∧ ∃ row, Holds db lease now row := by
  unfold renew at h
  simp only [bind_eq_ok, leasedTask_eq_ok] at h
  obtain ⟨-, -, run, -, -, -, -, -, row, hrow, -, -, h⟩ := h
  cases h
  refine ⟨Quiet.putTask db _ row _ hrow.get ?_, row, hrow⟩
  exact ⟨rfl, rfl, rfl, rfl, rfl, rfl, id, fun hs => ⟨hs, rfl, id⟩, Or.inl rfl⟩

theorem finish_quiet (db db' : Db) (lease : TaskLease) (successful allowRepair : Bool) (now : ℤ)
    (h : finish db lease successful allowRepair now = .ok db') :
    Quiet db db' ∧ ∃ row, Holds db lease now row := by
  unfold finish at h
  simp only [bind_eq_ok, leasedTask_eq_ok] at h
  obtain ⟨-, -, row, hrow, h⟩ := h
  split at h <;> cases h
  · exact ⟨releaseTask_quiet db _ row row true hrow.get (Touch.released row true), row, hrow⟩
  · refine ⟨releaseTask_quiet db _ row _ false hrow.get ?_, row, hrow⟩
    exact Touch.idle row _ rfl rfl rfl rfl rfl rfl rfl (Or.inl rfl)

theorem deferQuota_quiet (db db' : Db) (lease : TaskLease) (now : ℤ)
    (h : deferQuota db lease now = .ok db') : Quiet db db' ∧ ∃ row, Holds db lease now row := by
  unfold deferQuota at h
  simp only [bind_eq_ok, leasedTask_eq_ok] at h
  obtain ⟨-, -, row, hrow, -, -, h⟩ := h
  cases h
  exact ⟨releaseTask_quiet db _ row row false hrow.get (Touch.released row false), row, hrow⟩

theorem effectRow_eq_ok (db : Db) (effect : TaskEffectLease) (admittedOnly : Bool)
    (e : ScheduledEffect) (h : effectRow db effect admittedOnly = .ok e) :
    db.effects.get effect.effectId = some e ∧ e.runId = effect.taskLease.runId ∧
      e.taskId = effect.taskLease.taskId ∧ (admittedOnly = true → e.state = .admitted) := by
  unfold effectRow at h
  simp only [orRaise_eq_ok, Option.filter_eq_some_iff, Bool.and_eq_true, beq_iff_eq,
    Bool.or_eq_true, Bool.not_eq_true'] at h
  obtain ⟨hget, ⟨⟨⟨⟨hr, ht⟩, -⟩, -⟩, -⟩, hs⟩ := h
  refine ⟨hget, hr, ht, ?_⟩
  intro ha
  rcases hs with hs | hs
  · rw [ha] at hs; cases hs
  · exact hs

theorem settleEffect_eq_ok (db db' : Db) (effect : TaskEffectLease) (accepted result : Bool)
    (now : ℤ) (h : settleEffect db effect accepted now = .ok (db', result)) :
    ∃ e, db.effects.get effect.effectId = some e ∧ e.state = .admitted ∧
      result = (accepted && (holdsLease db effect.taskLease now).any (!·.stopped)) ∧
      db' = db.putEffect effect.effectId
        { e with state := if result then .settled else .rejected } := by
  unfold settleEffect at h
  simp only [bind_eq_ok] at h
  obtain ⟨e, he, h⟩ := h
  cases h
  obtain ⟨hget, -, -, hs⟩ := effectRow_eq_ok db effect true e he
  exact ⟨e, hget, hs rfl, rfl, rfl⟩

theorem settleEffect_quiet (db db' : Db) (effect : TaskEffectLease) (accepted result : Bool)
    (now : ℤ) (h : settleEffect db effect accepted now = .ok (db', result)) : Quiet db db' := by
  obtain ⟨e, hget, hs, -, rfl⟩ := settleEffect_eq_ok db db' effect accepted result now h
  refine Quiet.putEffect db _ e _ hget ⟨rfl, rfl, rfl, rfl, rfl, rfl, ?_⟩
  intro _
  simp [ScheduledEffect.unsettled, hs]

theorem reconcileEffect_quiet (db db' : Db) (effect : TaskEffectLease)
    (h : reconcileEffect db effect = .ok db') : Quiet db db' := by
  unfold reconcileEffect at h
  rw [bind_eq_ok] at h
  obtain ⟨e, he, h⟩ := h
  obtain ⟨hget, -⟩ := effectRow_eq_ok db effect false e he
  split at h <;> cases h
  · next hs =>
    refine Quiet.putEffect db _ e _ hget ⟨rfl, rfl, rfl, rfl, rfl, rfl, ?_⟩
    intro _
    simp [ScheduledEffect.unsettled, hs]
  · exact Quiet.refl db

theorem yieldToChildren_quiet (db db' : Db) (lease : TaskLease) (children : List ScheduleTask)
    (now : ℤ) (h : yieldToChildren pathKey db lease children now = .ok db') : Quiet db db' := by
  unfold yieldToChildren at h
  simp only [bind_eq_ok, leasedTask_eq_ok] at h
  obtain ⟨row, hrow, -, -, db1, h1, h⟩ := h
  cases h
  have hq := enqueueChildren_quiet lease now children db db1 h1
  obtain ⟨row1, hget1, ht⟩ := hq.tasks.forth lease.taskId row hrow.get
  refine hq.trans (Quiet.putTask db1 _ row1 _ hget1 ?_)
  -- enqueueing may not move the parent, but it need not be shown here
  refine Touch.idle row1 _ ht.runId.symm ht.parent.symm ht.worktree.symm ht.dependencies.symm
    ht.readOnly.symm ht.generation.symm rfl ?_
  rcases ht.paths with hp | ⟨-, hp⟩
  · exact Or.inl hp.symm
  · exact Or.inr (ht.parent ▸ hp)

theorem reconcileExpired_quiet (db db' : Db) (runId taskId : UUID) (retry : Bool)
    (h : reconcileExpired db runId taskId retry = .ok db') : Quiet db db' := by
  unfold reconcileExpired at h
  simp only [bind_eq_ok, orRaise_eq_ok, taskOf_eq_some] at h
  obtain ⟨-, -, row, ⟨hget, -⟩, -, -, -, -, h⟩ := h
  cases h
  exact releaseTask_quiet db _ row row _ hget (Touch.released row _)

theorem requestStop_quiet (db db' : Db) (runId taskId : UUID) (cancel : Bool)
    (h : requestStop db runId taskId cancel = .ok db') : Quiet db db' := by
  unfold requestStop at h
  simp only [bind_eq_ok, orRaise_eq_ok, taskOf_eq_some] at h
  obtain ⟨-, -, row, ⟨hget, -⟩, h⟩ := h
  cases cancel <;> simp only [Bool.false_eq_true, ↓reduceIte] at h <;> split at h <;> cases h
  · exact releaseTask_quiet db _ row _ true hget
      (Touch.idle row _ rfl rfl rfl rfl rfl rfl rfl (Or.inl rfl))
  · exact Quiet.putTask db _ row _ hget ⟨rfl, rfl, rfl, rfl, rfl, rfl, id,
      fun hs => ⟨hs, rfl, by simp [ScheduledTask.stopped]⟩, Or.inl rfl⟩
  · exact releaseTask_quiet db _ row _ true hget
      (Touch.idle row _ rfl rfl rfl rfl rfl rfl rfl (Or.inl rfl))
  · exact Quiet.putTask db _ row _ hget ⟨rfl, rfl, rfl, rfl, rfl, rfl, id,
      fun hs => ⟨hs, rfl, by simp [ScheduledTask.stopped]⟩, Or.inl rfl⟩

theorem taskControl_quiet (db : Db) (id : UUID) (cancel : Bool) :
    Quiet db (taskControl db id cancel) := by
  unfold taskControl
  split
  · next row task hrow htask =>
    simp only
    split
    · split
      · have hput := Quiet.putLogical db id task
          { task.moveTo .terminal with cancelRequested := true } htask
          ⟨rfl, rfl, fun c hc _ _ => hc⟩
        refine hput.trans (releaseTask_quiet (db.putLogical id _) id row _ true hrow ?_)
        exact Touch.idle row _ rfl rfl rfl rfl rfl rfl rfl (Or.inl rfl)
      · split
        · exact Quiet.refl db
        · refine (Quiet.putTask db id row _ hrow ?_).trans
            (Quiet.putLogical _ id task _ htask ⟨rfl, rfl, fun c hc _ _ => hc⟩)
          exact Touch.idle row _ rfl rfl rfl rfl rfl rfl rfl (Or.inl rfl)
    · split
      · refine (Quiet.putTask db id row _ hrow ?_).trans
          (Quiet.putLogical _ id task _ htask ⟨rfl, rfl, fun c hc _ _ => hc⟩)
        refine ⟨rfl, rfl, rfl, rfl, rfl, rfl, fun h => h, ?_, Or.inl rfl⟩
        intro hs
        exact ⟨hs, rfl, fun _ => by cases cancel <;> rfl⟩
      · exact Quiet.refl db
  · exact Quiet.refl db

theorem resumeTask_quiet (db : Db) (id : UUID) (restored : TaskState) :
    Quiet db (resumeTask db id restored) := by
  unfold resumeTask
  split
  · next row task hrow htask =>
    split
    · next hc =>
      obtain ⟨-, hstate, hrestored⟩ := hc
      refine (Quiet.putTask db id row _ hrow ?_).trans
        (Quiet.putLogical _ id task _ htask ⟨rfl, rfl, fun c hc _ _ => hc⟩)
      have hleased : restored ≠ .leased := by
        rcases hrestored with rfl | rfl
        · decide
        · rcases hstate with h | h <;> rw [h] <;> decide
      refine ⟨rfl, rfl, rfl, rfl, rfl, rfl, ?_, fun h => absurd h hleased, Or.inl rfl⟩
      intro hl
      rcases hrestored with rfl | rfl
      · cases hl
      · exact hl
    · exact Quiet.refl db
  · exact Quiet.refl db

theorem bindOperation_quiet (db : Db) (effectId : UUID) (b : OperationBinding) :
    Quiet db (bindOperation db effectId b) := by
  unfold bindOperation
  split
  · next hnone =>
    refine ⟨.refl Touch.refl _, .refl Stay.refl _, .refl Settles.refl _, .refl SameBarrier.refl _, ?_,
      fun _ h => Or.inl h⟩
    intro k c hk
    rw [Table.get_put]
    split
    · next hke => rw [hke, hnone] at hk; cases hk
    · exact hk
  · exact Quiet.refl db

end operations

section decisions

/-- What a current decision source says about the rows of the deciding task. -/
structure SourceFacts (db : Db) (runId id : UUID) (worker reopening : Bool) (src : DecisionSource) :
    Prop where
  task : db.logical.get id = some src.task
  contract : src.task.contract = some src.contract
  role : decidesAs worker src.contract = true
  identity : src.contract.runId = runId ∧ src.contract.taskId = id
  parent : src.contract.parentTaskId = src.task.parentTaskId
  scheduled : db.scheduled.get id = some src.scheduled
  reconciling : src.scheduled.state = .reconciling
  ofRun : src.scheduled.runId = runId
  scheduler : db.schedulerRuns.get runId = some src.scheduler
  attempt : db.attempts.get id = some src.attempt
  barrier : (src.scheduler.candidateState = .opened ∧ reopening = false) ∨
    (src.scheduler.candidateState = .closed ∧ reopening = true)

theorem decisionSource_eq_ok (db : Db) (cx : DecisionContext) (runId id : UUID)
    (worker reopening : Bool) (src : DecisionSource)
    (h : decisionSource pathKey db cx runId id worker reopening = .ok src) :
    SourceFacts db runId id worker reopening src := by
  unfold decisionSource at h
  simp only [bind_eq_ok, orRaise_eq_ok, Option.filter_eq_some_iff, taskOf_eq_some,
    Bool.and_eq_true, beq_iff_eq] at h
  obtain ⟨-, -, run, -, task, ⟨ht, -⟩, contract, ⟨hc, ⟨⟨hrole, hcr⟩, hct⟩, hparent⟩, row,
    ⟨⟨hr, hrun⟩, hrs, -⟩, scheduler, ⟨hsch, -, hb⟩, attempt, ⟨hatt, -⟩, -, -, h⟩ := h
  cases h
  refine ⟨ht, hc, hrole, ⟨hcr, hct⟩, hparent, hr, hrs, hrun, hsch, hatt, ?_⟩
  simp only [decisionBarrier, Bool.or_eq_true, Bool.and_eq_true, beq_iff_eq,
    Bool.not_eq_true'] at hb
  rcases hb with hb | ⟨hb, -⟩
  · exact Or.inl hb
  · exact Or.inr hb

theorem settleAttempt_quiet (db : Db) (id : UUID) (a : LatestAttempt) (r : AttemptResult) :
    Quiet db (settleAttempt db id a r) := Quiet.putAttempt db id _

theorem finishDecision_quiet (db : Db) (cx : DecisionContext) (id : UUID) (src : DecisionSource)
    (queued : Bool) (disposition : Disposition) (decision : Decision)
    (hs : db.scheduled.get id = some src.scheduled) (hl : db.logical.get id = some src.task) :
    Quiet db (finishDecision db cx id src queued disposition decision) := by
  have htask : Quiet db (db.putTask id (parkedTask src.scheduled (queued || cx.pendingFeedback))) := by
    refine Quiet.putTask db id src.scheduled _ hs ?_
    refine Touch.idle src.scheduled _ rfl rfl rfl rfl rfl rfl ?_ (Or.inl rfl)
    cases queued || cx.pendingFeedback <;> rfl
  exact (htask.trans (Quiet.putLogical _ id src.task _ hl (Stay.moveTo _ _))).trans
    (settleAttempt_quiet _ id _ _)

theorem rejectDecision_quiet (db db' : Db) (cx : DecisionContext) (runId id : UUID)
    (src : DecisionSource) (hs : db.scheduled.get id = some src.scheduled)
    (hl : db.logical.get id = some src.task)
    (h : rejectDecision db cx runId id src = .ok db') : Quiet db db' := by
  unfold rejectDecision at h
  have htask : ∀ repair, Quiet db (db.putTask id (refusedTask src.scheduled repair)) := by
    intro repair
    refine Quiet.putTask db id src.scheduled _ hs ?_
    exact ⟨rfl, rfl, rfl, rfl, rfl, rfl, fun h => h, fun hs => ⟨hs, rfl, fun h => h⟩, Or.inl rfl⟩
  exact (((htask _).trans (Quiet.putLogical _ id src.task _ hl (Stay.moveTo _ _))).trans
    (settleAttempt_quiet _ id _ _)).trans (reconcileExpired_quiet _ db' runId id _ h)

theorem applyWait_quiet (db db' : Db) (cx : DecisionContext) (runId id : UUID) (ids : List UUID)
    (h : applyWait pathKey db cx runId id ids = .ok db') : Quiet db db' := by
  unfold applyWait at h
  simp only [bind_eq_ok] at h
  obtain ⟨-, -, -, -, src, hsrc, h⟩ := h
  have hf := decisionSource_eq_ok db cx runId id _ false src hsrc
  split at h
  · exact rejectDecision_quiet db db' cx runId id src hf.scheduled hf.task h
  · cases h
    exact finishDecision_quiet db cx id src _ _ _ hf.scheduled hf.task

theorem applyScopeRequest_quiet (db db' : Db) (cx : DecisionContext) (runId id : UUID)
    (paths : List String) (h : applyScopeRequest pathKey db cx runId id paths = .ok db') :
    Quiet db db' := by
  unfold applyScopeRequest at h
  simp only [bind_eq_ok] at h
  obtain ⟨src, hsrc, -, -, h⟩ := h
  have hf := decisionSource_eq_ok db cx runId id _ false src hsrc
  split at h
  · exact rejectDecision_quiet db db' cx runId id src hf.scheduled hf.task h
  · unfold wakeParentForScopeRequest at h
    simp only [bind_eq_ok] at h
    obtain ⟨-, -, child, -, h⟩ := h
    cases h
    exact (finishDecision_quiet db cx id src _ _ _ hf.scheduled hf.task).trans
      (wakeReadyParents_quiet _ id child true)

theorem decidedChild_eq_some (db : Db) (runId childId : UUID) (c : DecidedChild)
    (h : decidedChild db runId childId = some c) :
    db.logical.get childId = some c.task ∧ c.task.contract = some c.contract ∧
      db.scheduled.get childId = some c.row ∧ c.row.runId = runId ∧
      db.attempts.get childId = some c.attempt := by
  unfold decidedChild at h
  simp only [Option.bind_eq_bind, Option.bind_eq_some_iff, taskOf_eq_some] at h
  obtain ⟨task, ht, contract, hc, row, ⟨hr, hrun⟩, attempt, ha, h⟩ := h
  cases h
  exact ⟨ht, hc, hr, hrun, ha⟩

theorem scopeRequestPending_blocked (db : Db) (id : UUID) (row : ScheduledTask) (q : List String)
    (h : scopeRequestPending db id row = some q) : row.state = .blocked := by
  unfold scopeRequestPending at h
  split at h
  · cases h
  · next hs => exact Decidable.not_not.mp hs

theorem childCurrent_parent (runId id : UUID) (src : DecisionSource) (c : DecidedChild)
    (h : childCurrent pathKey runId id src c = true) :
    c.task.parentTaskId = some id ∧ c.row.parentTaskId = some id := by
  simp only [childCurrent, Bool.and_eq_true, beq_iff_eq] at h
  exact ⟨h.1.1.1.1.1.1.1.1.1.1.2, h.1.1.1.1.1.1.1.1.1.2⟩

/- A write to both rows of a child that is not live, under the given contract. -/
theorem rewriteChild_quiet (db : Db) (childId : UUID) (task task' : LogicalTask)
    (row row' : ScheduledTask) (ht : db.logical.get childId = some task)
    (hr : db.scheduled.get childId = some row) (hrun : task'.runId = task.runId)
    (hparent : task'.parentTaskId = task.parentTaskId) (hchild : task.parentTaskId ≠ none)
    (htouch : Touch row row') : Quiet db ((db.putLogical childId task').putTask childId row') := by
  refine (Quiet.putLogical db childId task task' ht ⟨hrun, hparent, ?_⟩).trans
    (Quiet.putTask _ childId row row' hr htouch)
  intro c _ _ hnone
  exact absurd hnone hchild

theorem applyScopeResponse_quiet (db db' : Db) (cx : DecisionContext) (runId id childId : UUID)
    (granted denied : List String)
    (h : applyScopeResponse pathKey db cx runId id childId granted denied = .ok db') :
    Quiet db db' := by
  unfold applyScopeResponse at h
  rw [bind_eq_ok] at h
  obtain ⟨src, hsrc, h⟩ := h
  have hf := decisionSource_eq_ok db cx runId id _ false src hsrc
  split at h
  · exact rejectDecision_quiet db db' cx runId id src hf.scheduled hf.task h
  · simp only [bind_eq_ok, orRaise_eq_ok] at h
    obtain ⟨child, hchild, requested, hreq, h⟩ := h
    obtain ⟨ht, -, hr, -, -⟩ := decidedChild_eq_some db runId childId child hchild
    split at h
    · exact rejectDecision_quiet db db' cx runId id src hf.scheduled hf.task h
    · simp only [bind_eq_ok, require_eq_ok] at h
      obtain ⟨-, ⟨hcur, -, -, -⟩, h⟩ := h
      cases h
      obtain ⟨htp, hrp⟩ := childCurrent_parent runId id src child hcur
      have hb := scopeRequestPending_blocked db childId child.row requested hreq
      have hne : id ≠ childId := by
        rintro rfl
        have hsame := Option.some.inj (hf.scheduled.symm.trans hr)
        rw [← hsame, hf.reconciling] at hb
        cases hb
      have hw : ∀ updated, Quiet db (widenChild pathKey db childId child.task child.row updated) := by
        intro updated
        refine rewriteChild_quiet db childId child.task _ child.row _ ht hr rfl rfl ?_ ?_
        · rw [htp]; exact Option.some_ne_none id
        · exact Touch.idle child.row _ rfl rfl rfl rfl rfl rfl rfl
            (Or.inr (by rw [hrp]; exact Option.some_ne_none id))
      refine (hw _).trans (finishDecision_quiet _ cx id src _ _ _ ?_ ?_)
      · exact (Table.get_put_ne _ _ hne).trans hf.scheduled
      · exact (Table.get_put_ne _ _ hne).trans hf.task

theorem reassignable_idle (child : DecidedChild) (expected : TaskState × LogicalState)
    (h : reassignable child = some expected) : expected.1 ≠ .reconciling ∧ expected.1 ≠ .leased := by
  unfold reassignable at h
  rw [Option.bind_eq_some_iff] at h
  obtain ⟨r, -, h⟩ := h
  unfold reassignableState at h
  split at h <;> cases h <;> exact ⟨by decide, by decide⟩

theorem applyReassign_quiet (db db' : Db) (cx : DecisionContext) (runId id childId : UUID)
    (route : RouteSpec) (h : applyReassign pathKey db cx runId id childId route = .ok db') :
    Quiet db db' := by
  unfold applyReassign at h
  rw [bind_eq_ok] at h
  obtain ⟨src, hsrc, h⟩ := h
  have hf := decisionSource_eq_ok db cx runId id _ false src hsrc
  split at h
  · exact rejectDecision_quiet db db' cx runId id src hf.scheduled hf.task h
  · simp only [bind_eq_ok, orRaise_eq_ok] at h
    obtain ⟨child, hchild, h⟩ := h
    obtain ⟨ht, -, hr, -, -⟩ := decidedChild_eq_some db runId childId child hchild
    split at h
    · next expected binding hexp _ =>
      simp only [bind_eq_ok, require_eq_ok] at h
      obtain ⟨-, ⟨hcur, -, -, hstate, -⟩, h⟩ := h
      cases h
      obtain ⟨htp, -⟩ := childCurrent_parent runId id src child hcur
      have hne : id ≠ childId := by
        rintro rfl
        have hsame := Option.some.inj (hf.scheduled.symm.trans hr)
        rw [← hsame] at hstate
        exact (reassignable_idle child expected hexp).1 (hstate.symm.trans hf.reconciling)
      have hw : ∀ updated, Quiet db (requeueChild db childId child.task child.row updated) := by
        intro updated
        refine rewriteChild_quiet db childId child.task _ child.row _ ht hr rfl rfl ?_ ?_
        · rw [htp]; exact Option.some_ne_none id
        · exact Touch.idle child.row _ rfl rfl rfl rfl rfl rfl rfl (Or.inl rfl)
      refine (hw _).trans (finishDecision_quiet _ cx id src _ _ _ ?_ ?_)
      · exact (Table.get_put_ne _ _ hne).trans hf.scheduled
      · exact (Table.get_put_ne _ _ hne).trans hf.task
    · exact rejectDecision_quiet db db' cx runId id src hf.scheduled hf.task h

theorem applyForwardFeedback_quiet (db db' : Db) (cx : DecisionContext) (fx : ForwardContext)
    (runId id targetId receiptId : UUID)
    (h : applyForwardFeedback pathKey db cx fx runId id targetId receiptId = .ok db') :
    Quiet db db' := by
  unfold applyForwardFeedback at h
  simp only [bind_eq_ok, orRaise_eq_ok, Option.filter_eq_some_iff, taskOf_eq_some,
    Bool.and_eq_true, beq_iff_eq] at h
  obtain ⟨src, hsrc, f, -, target, ⟨ht, -, htp⟩, row, ⟨⟨hr, -⟩, -⟩, h⟩ := h
  have hf := decisionSource_eq_ok db cx runId id _ false src hsrc
  cases h
  have henv := Quiet.sameRuns db
    (setFeedback db.env receiptId (if forwardCloses fx target row then .closed else .forwarded)) rfl
  split
  · next hset =>
    simp only [Bool.and_eq_true, forwardSettled, beq_iff_eq] at hset
    have hne : id ≠ targetId := by
      rintro rfl
      rw [hf.scheduled] at hr
      cases hr
      have := hset.2.1.1.2
      rw [hf.reconciling] at this
      cases this
    refine (henv.trans ?_).trans (finishDecision_quiet _ cx id src _ _ _ ?_ ?_)
    · refine rewriteChild_quiet _ targetId target _ row _ ht hr rfl rfl ?_ ?_
      · rw [htp]; exact Option.some_ne_none id
      · exact Touch.idle row _ rfl rfl rfl rfl rfl rfl rfl (Or.inl rfl)
    · exact (Table.get_put_ne _ _ hne).trans hf.scheduled
    · exact (Table.get_put_ne _ _ hne).trans hf.task
  · exact henv.trans (finishDecision_quiet _ cx id src _ _ _ hf.scheduled hf.task)

theorem requeueUndelivered_quiet (db : Db) (runId taskId : UUID)
    (delivering remaining capacityPending : Bool) :
    Quiet db (requeueUndelivered db runId taskId delivering remaining capacityPending) := by
  unfold requeueUndelivered
  split
  · next task row htask hrow =>
    rw [taskOf_eq_some] at hrow
    simp only
    split
    · split
      · exact Quiet.sameRuns db _ rfl
      · refine (Quiet.putLogical db taskId task _ htask (Stay.moveTo task _)).trans
          (Quiet.putTask _ taskId row _ hrow.1 ?_)
        exact Touch.idle row _ rfl rfl rfl rfl rfl rfl rfl (Or.inl rfl)
    · exact Quiet.refl db
  · exact Quiet.refl db

theorem createTask_quiet (db db' : Db) (c : LogicalTaskContract)
    (h : createTask pathKey db c = .ok db') : Quiet db db' := by
  unfold createTask at h
  simp only [bind_eq_ok, require_eq_ok] at h
  obtain ⟨-, -, -, -, -, hv, h⟩ := h
  cases h
  simp only [validateNewTask, Bool.and_eq_true, Option.isNone_iff_eq_none] at hv
  exact Quiet.insertLogical db _ _ hv.1.1

theorem createTask_adds (db db' : Db) (c : LogicalTaskContract)
    (h : createTask pathKey db c = .ok db') : Adds db db' := by
  unfold createTask at h
  simp only [bind_eq_ok, require_eq_ok] at h
  obtain ⟨-, -, -, -, -, hv, h⟩ := h
  cases h
  simp only [validateNewTask, Bool.and_eq_true, Option.isNone_iff_eq_none] at hv
  refine ⟨fun _ _ h => h, ?_⟩
  intro k t hk
  have hne : k ≠ c.taskId := by
    rintro rfl
    rw [hv.1.1] at hk
    cases hk
  exact (Table.get_put_ne _ _ hne).trans hk

theorem delegateBatch_quiet (worktreeId : String) (now : ℤ) (batch : List LogicalTaskContract)
    (db db' : Db) (h : delegateBatch pathKey worktreeId now batch db = .ok db') :
    Quiet db db' ∧ Adds db db' := by
  induction batch generalizing db with
  | nil =>
    cases h
    exact ⟨Quiet.refl _, fun _ _ h => h, fun _ _ h => h⟩
  | cons child rest ih =>
    unfold delegateBatch at h
    simp only [bind_eq_ok] at h
    obtain ⟨db1, h1, db2, h2, h⟩ := h
    obtain ⟨hq, ha⟩ := ih db2 h
    exact ⟨((createTask_quiet db db1 child h1).trans (enqueue_quiet db1 db2 _ now h2)).trans hq,
      ((createTask_adds db db1 child h1).trans (enqueue_adds db1 db2 _ now h2)).trans ha⟩

theorem delegateRounds_quiet (worktreeId : String) (now : ℤ) (n : ℕ) (created : List UUID)
    (pending : List LogicalTaskContract) (db db' : Db)
    (h : delegateRounds pathKey worktreeId now n created pending db = .ok db') :
    Quiet db db' ∧ Adds db db' := by
  have hrefl : Quiet db db ∧ Adds db db := ⟨Quiet.refl _, fun _ _ h => h, fun _ _ h => h⟩
  induction n generalizing created pending db with
  | zero =>
    unfold delegateRounds at h
    split at h
    · cases h; exact hrefl
    · cases h
  | succ n ih =>
    unfold delegateRounds at h
    split at h
    · cases h; exact hrefl
    · simp only [bind_eq_ok] at h
      obtain ⟨-, -, db1, h1, h⟩ := h
      obtain ⟨hq, ha⟩ := delegateBatch_quiet worktreeId now _ db db1 h1
      obtain ⟨hq', ha'⟩ := ih _ _ db1 h ⟨Quiet.refl _, fun _ _ h => h, fun _ _ h => h⟩
      exact ⟨hq.trans hq', ha.trans ha'⟩

theorem admitAttempt_quiet (db db' : Db) (lease : TaskLease) (current : Bool) (now : ℤ)
    (h : admitAttempt pathKey db lease current now = .ok db') : Quiet db db' := by
  unfold admitAttempt at h
  simp only [bind_eq_ok, orRaise_eq_ok, Option.filter_eq_some_iff] at h
  obtain ⟨row, -, run, -, task, ⟨ht, -⟩, -, -, -, -, -, -, h⟩ := h
  cases h
  exact (Quiet.putLogical db _ task _ ht (Stay.moveTo _ _)).trans (Quiet.putAttempt _ _ _)

theorem retireAttempt_quiet (db : Db) (lease : TaskLease) (disposition : Disposition) :
    Quiet db (retireAttempt db lease disposition) := by
  unfold retireAttempt
  split
  · next row task attempt hr ht _ =>
    rw [taskOf_eq_some] at hr
    split
    · next hc =>
      exact ((Quiet.putTask db _ row _ hr.1 (Touch.reconciling row hc.1)).trans
        (Quiet.putLogical _ _ task _ ht (Stay.moveTo _ _))).trans (Quiet.putAttempt _ _ _)
    · exact Quiet.refl db
  · exact Quiet.refl db

end decisions

section claim

theorem expireLeases_quiet (cx : ClaimContext) (db : Db) : Quiet db (expireLeases cx db) := by
  refine Quiet.modifyTasks db _ _ (Table.evolves_mapRows _ _ ?_) (.refl Stay.refl _)
  intro k r _
  unfold expireTask
  split
  · next he =>
    simp only [expires, Bool.and_eq_true, beq_iff_eq] at he
    exact Touch.reconciling r (by simp [ScheduledTask.live, he.1.1.1])
  · exact Touch.refl r

theorem blockStale_quiet (db : Db) (id : UUID) : Quiet db (blockStale db id) := by
  refine Quiet.modifyTasks db _ _ (Table.evolves_modify Touch.refl _ id _ ?_)
    (Table.evolves_modify Stay.refl _ id _ ?_)
  · intro r _
    exact Touch.idle r _ rfl rfl rfl rfl rfl rfl rfl (Or.inl rfl)
  · intro t _
    exact Stay.moveTo t _

/-- The loop chooses a task that passes the examination where the loop stands. -/
theorem claimLoop_eq_ok (cx : ClaimContext) (ids : List UUID) (db db' : Db)
    (chosen : Option (UUID × Option RouteBinding))
    (h : claimLoop pathKey cx ids db = .ok (db', chosen)) :
    Quiet db db' ∧ ∀ id route, chosen = some (id, route) →
      examine pathKey db' cx id = .take route := by
  induction ids generalizing db with
  | nil =>
    cases h
    exact ⟨Quiet.refl _, fun id route hc => by cases hc⟩
  | cons i ids ih =>
    unfold claimLoop at h
    split at h
    · exact ih db h
    · obtain ⟨hq, hx⟩ := ih (blockStale db i) h
      exact ⟨(blockStale_quiet db i).trans hq, hx⟩
    · cases h
    · next route hr =>
      cases h
      refine ⟨Quiet.refl _, ?_⟩
      intro id route' hc
      cases hc
      exact hr

/-- The checks a claimed task has passed. -/
structure ClaimChecks (pathKey : String → String) (db : Db) (id : UUID) (row : ScheduledTask)
    (run : SchedulerRun) : Prop where
  get : db.scheduled.get id = some row
  ofRun : db.schedulerRuns.get row.runId = some run
  queued : row.state = .queued
  unstopped : row.stopped = false
  barrier : run.candidateState = .opened ∨
    (run.candidateState = .closed ∧ canReadCandidate pathKey db id row = true)
  exclusive : row.readOnly = false → isCoordinator pathKey db id row = false →
    hasExclusiveEffectBarrier pathKey db row = false
  dependencies : hasPendingDependency db row = false
  worktree : hasWorktreeConflict pathKey db id row = false

/-- A route chosen for a primary task is its own. -/
def RouteFits (db : Db) (id : UUID) (route : Option RouteBinding) : Prop :=
  ∀ r t c, route = some r → db.logical.get id = some t → t.contract = some c →
    c.purpose = .primary → r = c.route

theorem admissible_checks (db : Db) (cx : ClaimContext) (id : UUID) (row : ScheduledTask)
    (run : SchedulerRun) (route : Option RouteBinding)
    (h : admissible pathKey db cx id row run route = true) :
    (row.readOnly = false → isCoordinator pathKey db id row = false →
      hasExclusiveEffectBarrier pathKey db row = false) ∧
      hasPendingDependency db row = false ∧ hasWorktreeConflict pathKey db id row = false := by
  simp only [admissible, Bool.and_eq_true, Bool.not_eq_true'] at h
  obtain ⟨⟨⟨-, hb⟩, hd⟩, hw⟩ := h
  refine ⟨?_, hd, hw⟩
  intro hro hc
  simpa [hro, hc] using hb

theorem freshVerdict_route (db : Db) (cx : ClaimContext) (id : UUID) (row : ScheduledTask)
    (route : Option RouteBinding) (h : freshVerdict db cx id row = .take route) :
    RouteFits db id route := by
  intro r t c hr ht hc hp
  subst hr
  unfold freshVerdict at h
  split at h
  · cases h
  · simp only at h
    split at h
    · cases h
    · rw [ht] at h
      simp only at h
      split at h
      · cases h
      · rw [hc] at h
        simp only at h
        split at h
        · cases h
        · split at h
          · cases h
          · next route' hroute =>
            split at h
            · cases h
              exact routeForTask_primary c _ _ _ r hp hroute
            · cases h

theorem examine_checks (db : Db) (cx : ClaimContext) (id : UUID) (route : Option RouteBinding)
    (h : examine pathKey db cx id = .take route) :
    ∃ row run, ClaimChecks pathKey db id row run ∧ RouteFits db id route := by
  unfold examine at h
  split at h
  · cases h
  · next row hrow =>
    split at h
    · cases h
    · next run hrun =>
      split at h
      · next ho =>
        simp only [offered, claimable, Bool.and_eq_true, beq_iff_eq, Bool.not_eq_true',
          Bool.or_eq_true] at ho
        obtain ⟨⟨-, hq, hs⟩, hb⟩ := ho
        split at h
        · next route' hv =>
          split at h
          · next hadm =>
            cases h
            obtain ⟨hex, hdep, hwt⟩ := admissible_checks db cx id row run route hadm
            refine ⟨row, run, ⟨hrow, hrun, hq, hs, hb, hex, hdep, hwt⟩, ?_⟩
            split at hv
            · exact freshVerdict_route db cx id row route hv
            · cases hv
              intro r t c hr
              cases hr
          · cases h
        · next hv => exact absurd h (hv route)
      · cases h

/-- The writes of a grant: the task is leased to the caller, with the provider of
its route, and nothing else moves. -/
structure GrantFrom (db db' : Db) (cx : ClaimContext) (id : UUID) (row : ScheduledTask) : Prop where
  task : ∃ p, db'.scheduled.get id = some (leaseRow cx { row with provider := p })
  others : ∀ k, k ≠ id → db'.scheduled.get k = db.scheduled.get k
  logical : Table.Evolves Stay (fun _ => True) db.logical db'.logical
  effects : db'.effects = db.effects
  bindings : db'.bindings = db.bindings
  runs : Table.Evolves SameBarrier FreshRun db.schedulerRuns db'.schedulerRuns
  env : db'.env = db.env

theorem substituteRoute_frame (db : Db) (id : UUID) (row : ScheduledTask)
    (route : Option RouteBinding) (hr : RouteFits db id route) :
    let out := substituteRoute db id row route
    (∃ p, out.2 = { row with provider := p }) ∧ out.1.scheduled = db.scheduled ∧
      Table.Evolves Stay (fun _ => True) db.logical out.1.logical ∧
      out.1.effects = db.effects ∧ out.1.bindings = db.bindings ∧
      out.1.schedulerRuns = db.schedulerRuns ∧ out.1.env = db.env := by
  unfold substituteRoute
  split
  · next r logical hl =>
    split
    · next c hc =>
      split
      · exact ⟨⟨row.provider, rfl⟩, rfl, .refl Stay.refl _, rfl, rfl, rfl, rfl⟩
      · next hne =>
        refine ⟨⟨_, rfl⟩, rfl, ?_, rfl, rfl, rfl, rfl⟩
        refine Table.evolves_put Stay.refl _ id logical _ hl ⟨rfl, rfl, ?_⟩
        intro c' hc' hp _
        cases hc.symm.trans hc'
        exact absurd (hr r logical c rfl hl hc hp).symm hne
    · exact ⟨⟨row.provider, rfl⟩, rfl, .refl Stay.refl _, rfl, rfl, rfl, rfl⟩
  · exact ⟨⟨row.provider, rfl⟩, rfl, .refl Stay.refl _, rfl, rfl, rfl, rfl⟩

theorem grant_frame (cx : ClaimContext) (db : Db) (id : UUID) (row : ScheduledTask)
    (route : Option RouteBinding) (hr : RouteFits db id route) :
    GrantFrom db (grant cx db id row route).1 cx id row ∧
      (grant cx db id row route).2 =
        ⟨row.runId, id, cx.owner, row.leaseGeneration + 1, cx.now + cx.leaseFor⟩ := by
  obtain ⟨⟨p, hp⟩, hs, hl, he, hb, hruns, henv⟩ := substituteRoute_frame db id row route hr
  unfold grant
  generalize substituteRoute db id row route = out at *
  obtain ⟨db1, row1⟩ := out
  simp only at hp hs hl he hb hruns henv
  subst hp
  refine ⟨?_, rfl⟩
  -- the run row only records the time of the claim
  have hput : ∀ k, (db1.putTask id (leaseRow cx { row with provider := p })).scheduled.get k
      = if k = id then some (leaseRow cx { row with provider := p }) else db.scheduled.get k := by
    intro k
    simp only [Db.putTask, Table.get_put, hs]
  simp only
  split
  · next run hrun =>
    refine ⟨⟨p, ?_⟩, ?_, hl, he, hb, ?_, henv⟩
    · exact (hput id).trans (if_pos rfl)
    · intro k hk
      exact (hput k).trans (if_neg hk)
    · have hrun' : db.schedulerRuns.get row.runId = some run := hruns ▸ hrun
      have hsame : Table.Evolves SameBarrier FreshRun db.schedulerRuns
          (db.schedulerRuns.put row.runId { run with lastClaimedAt := some cx.now }) :=
        Table.evolves_put SameBarrier.refl _ _ run _ hrun' ⟨rfl, rfl⟩
      rw [← hruns] at hsame ⊢
      exact hsame
  · refine ⟨⟨p, ?_⟩, ?_, hl, he, hb, ?_, henv⟩
    · exact (hput id).trans (if_pos rfl)
    · intro k hk
      exact (hput k).trans (if_neg hk)
    · rw [← hruns]
      exact .refl SameBarrier.refl _

theorem GrantFrom.drift {db db' : Db} {cx : ClaimContext} {id : UUID} {row : ScheduledTask}
    (h : GrantFrom db db' cx id row) (hget : db.scheduled.get id = some row) : Drift db db' := by
  obtain ⟨p, hp⟩ := h.task
  refine ⟨?_, h.logical, ?_, ?_⟩
  · intro k
    by_cases hk : k = id
    · subst hk
      rw [hget, hp]
      exact .changed _ _ ⟨rfl, rfl, rfl, rfl, Or.inl rfl⟩
    · rw [h.others k hk]
      exact RowStep.refl Kin.refl _
  · rw [h.effects]
    exact .refl Settles.refl _
  · intro k b hb
    rw [h.bindings]
    exact hb

/-- A claim that returns nothing is quiet; one that returns a lease has checked the
task where the loop stood, and granted it. -/
theorem claimReady_eq_ok (db db' : Db) (cx : ClaimContext) (result : Option TaskLease)
    (h : claimReady pathKey db cx = .ok (db', result)) :
    (result = none ∧ Quiet db db') ∨ ∃ mid id row run, Quiet db mid ∧
      ClaimChecks pathKey mid id row run ∧ GrantFrom mid db' cx id row ∧
      result = some ⟨row.runId, id, cx.owner, row.leaseGeneration + 1, cx.now + cx.leaseFor⟩ := by
  unfold claimReady at h
  rw [bind_eq_ok] at h
  obtain ⟨-, -, h⟩ := h
  split at h
  · cases h
    exact Or.inl ⟨rfl, Quiet.refl _⟩
  · simp only [bind_eq_ok, Prod.exists] at h
    obtain ⟨mid, chosen, hloop, h⟩ := h
    obtain ⟨hq, hx⟩ := claimLoop_eq_ok cx _ _ mid chosen hloop
    have hquiet := (expireLeases_quiet cx db).trans hq
    split at h
    · cases h
      exact Or.inl ⟨rfl, hquiet⟩
    · next id route =>
      obtain ⟨row, run, hc, hr⟩ := examine_checks mid cx id route (hx id route rfl)
      rw [hc.get] at h
      cases h
      obtain ⟨hg, hlease⟩ := grant_frame cx mid id row route hr
      exact Or.inr ⟨mid, id, row, run, hquiet, hc, hg, congrArg some hlease⟩

end claim

section classification

/-- The checks a newly admitted effect has passed. -/
structure AdmitChecks (pathKey : String → String) (db : Db) (lease : TaskLease)
    (request : EffectRequest) (now : ℤ) (row : ScheduledTask) (run : SchedulerRun) : Prop where
  holds : Holds db lease now row
  ofRun : db.schedulerRuns.get lease.runId = some run
  unstopped : row.stopped = false
  new : db.effects.get request.effectId = none
  worktree : requireWorktree pathKey db lease row request.effectId
    (readEffect pathKey db lease row request.effectId)
    (admittedExclusive pathKey db lease row request) = .ok ()
  barrier : run.candidateState = .opened ∨
    (run.candidateState = .closed ∧ readEffect pathKey db lease row request.effectId = true)

theorem AdmitChecks.owner {db : Db} {lease : TaskLease} {request : EffectRequest} {now : ℤ}
    {row : ScheduledTask} {run : SchedulerRun}
    (h : AdmitChecks pathKey db lease request now row run) :
    db.taskOf lease.runId lease.taskId = some row :=
  (taskOf_eq_some _ _ _ _).mpr ⟨h.holds.get, h.holds.runId⟩

theorem admitEffect_eq_ok (db db' : Db) (lease : TaskLease) (request : EffectRequest) (now : ℤ)
    (granted : TaskEffectLease)
    (h : admitEffect pathKey db lease request now = .ok (db', granted)) :
    (∃ row, Holds db lease now row) ∧ (db' = db ∨ ∃ row run,
      AdmitChecks pathKey db lease request now row run ∧
      db' = db.putEffect request.effectId (newEffect lease run.candidateEpoch
        (admittedExclusive pathKey db lease row request))) := by
  unfold admitEffect at h
  simp only [bind_eq_ok, leasedTask_eq_ok, orRaise_eq_ok, Option.filter_eq_some_iff,
    Bool.not_eq_true'] at h
  obtain ⟨-, -, -, -, row, hrow, run, ⟨hrun, hstop⟩, -, -, -, -, -, -, h⟩ := h
  refine ⟨⟨row, hrow⟩, ?_⟩
  cases he : db.effects.get request.effectId with
  | some e =>
    rw [he] at h
    simp only [bind_eq_ok] at h
    obtain ⟨-, -, h⟩ := h
    cases h
    exact Or.inl rfl
  | none =>
    rw [he] at h
    simp only [bind_eq_ok, require_eq_ok] at h
    obtain ⟨u, hw, -, hb, h⟩ := h
    cases h
    exact Or.inr ⟨row, run, ⟨hrow, hrun, hstop, he, hw, hb⟩, rfl⟩

/-- A step is quiet, a granted claim, a newly admitted effect, or a move of a
candidate. -/
inductive StepKind (pathKey : String → String) (db : Db) (a : Action) (db' : Db) : Prop
  | quiet (h : Quiet db db')
  | granted (cx : ClaimContext) (mid : Db) (id : UUID) (row : ScheduledTask) (run : SchedulerRun)
      (ha : a = .claim cx) (hq : Quiet db mid) (hc : ClaimChecks pathKey mid id row run)
      (hg : GrantFrom mid db' cx id row)
  | admitted (lease : TaskLease) (request : EffectRequest) (now : ℤ) (row : ScheduledTask)
      (run : SchedulerRun) (ha : a = .admitEffect lease request now)
      (hc : AdmitChecks pathKey db lease request now row run)
      (hd : db' = db.putEffect request.effectId (newEffect lease run.candidateEpoch
        (admittedExclusive pathKey db lease row request)))
  | began (runId : UUID) (run : SchedulerRun) (ha : a = .beginCandidate runId)
      (hr : db.schedulerRuns.get runId = some run) (hs : run.candidateState = .opened)
      (hd : db' = db.putRun runId { run with candidateState := .draining })
  | closed (runId : UUID) (epoch : ℕ) (run : SchedulerRun) (ha : a = .closeCandidate runId epoch)
      (hr : db.schedulerRuns.get runId = some run) (hs : run.candidateState = .draining)
      (ht : ∀ k r, db.scheduled.get k = some r → r.runId = runId → r.live = false)
      (he : ∀ k e, db.effects.get k = some e → e.runId = runId → e.unsettled = false)
      (hd : db' = db.putRun runId
        { run with candidateState := .closed, candidateEpoch := run.candidateEpoch + 1 })
  | reopened (mid : Db) (runId : UUID) (run : SchedulerRun) (hq : Quiet db mid)
      (hr : mid.schedulerRuns.get runId = some run) (hs : run.candidateState = .closed)
      (hd : Quiet (mid.putRun runId (reopenCandidate run)) db')

theorem closeCandidate_kind (db db' : Db) (runId : UUID) (epoch : ℕ)
    (h : closeCandidate db runId epoch = .ok db') :
    StepKind pathKey db (.closeCandidate runId epoch) db' := by
  unfold closeCandidate at h
  simp only [bind_eq_ok, orRaise_eq_ok, Option.filter_eq_some_iff, Bool.and_eq_true, beq_iff_eq,
    require_eq_ok] at h
  obtain ⟨-, -, run, ⟨hr, hs, -⟩, -, ht, -, he, h⟩ := h
  cases h
  rw [Table.any_eq_false] at ht he
  refine .closed runId epoch run rfl hr hs ?_ ?_ rfl
  · intro k r hk hrun
    simpa [hrun] using ht k r hk
  · intro k e hk hrun
    simpa [hrun] using he k e hk

theorem beginCandidate_kind (db db' : Db) (runId : UUID) (epoch : ℕ)
    (h : beginCandidate db runId = .ok (db', epoch)) :
    StepKind pathKey db (.beginCandidate runId) db' := by
  unfold beginCandidate at h
  simp only [bind_eq_ok, orRaise_eq_ok, Option.filter_eq_some_iff, require_eq_ok] at h
  obtain ⟨-, -, run, ⟨hr, -⟩, -, hs, h⟩ := h
  cases h
  exact .began runId run rfl hr hs rfl

theorem closedCandidate_eq_ok (db : Db) (runId id : UUID) (task : LogicalTask) (row : ScheduledTask)
    (run : SchedulerRun) (h : closedCandidate db runId id = .ok (task, row, run)) :
    db.logical.get id = some task ∧ db.scheduled.get id = some row ∧
      db.schedulerRuns.get runId = some run ∧ run.candidateState = .closed := by
  unfold closedCandidate at h
  simp only [bind_eq_ok, orRaise_eq_ok, Option.filter_eq_some_iff, taskOf_eq_some,
    beq_iff_eq] at h
  obtain ⟨t, ⟨ht, -⟩, r, ⟨⟨hr, -⟩, -⟩, s, ⟨hs, hc⟩, h⟩ := h
  cases h
  exact ⟨ht, hr, hs, hc⟩

theorem reopenWith_kind (db : Db) (a : Action) (runId id : UUID) (task : LogicalTask)
    (row : ScheduledTask) (run : SchedulerRun) (repair : Bool)
    (h : closedCandidate db runId id = .ok (task, row, run)) :
    StepKind pathKey db a (reopenWith db runId id task row run repair) := by
  obtain ⟨ht, hr, hs, hc⟩ := closedCandidate_eq_ok db runId id task row run h
  unfold reopenWith
  refine .reopened _ runId run ?_ ?_ hc (Quiet.refl _)
  rotate_left
  · exact hs
  refine (Quiet.putTask db id row _ hr ?_).trans (Quiet.putLogical _ id task _ ht (Stay.moveTo _ _))
  refine Touch.idle row _ rfl rfl rfl rfl rfl rfl ?_ (Or.inl rfl)
  cases repair <;> rfl

theorem reopenForRepair_kind (db db' : Db) (a : Action) (runId id : UUID) (affordable : Bool)
    (h : reopenForRepair db runId id affordable = .ok db') : StepKind pathKey db a db' := by
  unfold reopenForRepair at h
  simp only [bind_eq_ok, Prod.exists] at h
  obtain ⟨task, row, run, hc, h⟩ := h
  split at h <;> cases h
  · exact reopenWith_kind db a runId id task row run true hc
  · exact .quiet (Quiet.refl _)

theorem rejectCandidateMismatch_kind (db db' : Db) (a : Action) (runId id : UUID)
    (affordable : Bool) (h : rejectCandidateMismatch db runId id affordable = .ok db') :
    StepKind pathKey db a db' := by
  unfold rejectCandidateMismatch at h
  simp only [bind_eq_ok, Prod.exists] at h
  obtain ⟨task, row, run, hc, h⟩ := h
  cases h
  exact reopenWith_kind db a runId id task row run _ hc

theorem applyDelegate_kind (db db' : Db) (a : Action) (cx : DecisionContext) (runId id : UUID)
    (children : List LogicalTaskContract) (reopening : Bool)
    (h : applyDelegate pathKey db cx runId id children reopening = .ok db') :
    StepKind pathKey db a db' := by
  unfold applyDelegate at h
  simp only [bind_eq_ok] at h
  obtain ⟨-, -, src, hsrc, h⟩ := h
  have hf := decisionSource_eq_ok db cx runId id false reopening src hsrc
  split at h
  · exact .quiet (rejectDecision_quiet db db' cx runId id src hf.scheduled hf.task h)
  · simp only [bind_eq_ok] at h
    obtain ⟨-, -, db1, h1, h⟩ := h
    cases h
    obtain ⟨hq, hadd⟩ := delegateRounds_quiet src.scheduled.worktreeId cx.now _ _ children _ db1 h1
    cases reopening with
    | false =>
      exact .quiet (hq.trans (finishDecision_quiet db1 cx id src _ _ _
        (hadd.1 id _ hf.scheduled) (hadd.2 id _ hf.task)))
    | true =>
      have hclosed : src.scheduler.candidateState = .closed := by
        rcases hf.barrier with ⟨-, hb⟩ | ⟨hb, -⟩
        · cases hb
        · exact hb
      exact .reopened db runId src.scheduler (Quiet.refl db) hf.scheduler hclosed
        (hq.trans (finishDecision_quiet db1 cx id src _ _ _ (hadd.1 id _ hf.scheduled)
          (hadd.2 id _ hf.task)))

/-- What an action that commits does. -/
theorem transaction_kind (db db' : Db) (a : Action) (h : a.transaction pathKey db = .ok db') :
    StepKind pathKey db a db' := by
  cases a with
  | environment env => exact .quiet (Quiet.environment db db' env h)
  | attempt id at' => cases h; exact .quiet (Quiet.putAttempt db id at')
  | logicalState id state =>
    cases h
    exact .quiet (Quiet.modifyTasks db _ _ (.refl Touch.refl _)
      (Table.evolves_modify Stay.refl _ id _ fun t _ => Stay.moveTo t state))
  | taskControl id cancel => cases h; exact .quiet (taskControl_quiet db id cancel)
  | bindOperation effectId b => cases h; exact .quiet (bindOperation_quiet db effectId b)
  | createTask c => exact .quiet (createTask_quiet db db' c h)
  | enqueue task now => exact .quiet (enqueue_quiet db db' task now h)
  | admitRun runId => cases h; exact .quiet (admitRun_quiet db runId)
  | claim cx =>
    simp only [Action.transaction, map_eq_ok, Prod.exists] at h
    obtain ⟨db1, result, h, rfl⟩ := h
    rcases claimReady_eq_ok db db1 cx result h with ⟨-, hq⟩ | ⟨mid, id, row, run, hq, hc, hg, -⟩
    · exact .quiet hq
    · exact .granted cx mid id row run rfl hq hc hg
  | admitAttempt lease current now => exact .quiet (admitAttempt_quiet db db' lease current now h)
  | retireAttempt lease disposition => cases h; exact .quiet (retireAttempt_quiet db lease disposition)
  | markExpired lease now => cases h; exact .quiet (markExpired_quiet db lease now)
  | renew lease leaseFor now =>
    simp only [Action.transaction, map_eq_ok, Prod.exists] at h
    obtain ⟨db1, renewed, h, rfl⟩ := h
    exact .quiet (renew_quiet db db1 lease renewed leaseFor now h).1
  | finish lease successful allowRepair now =>
    exact .quiet (finish_quiet db db' lease successful allowRepair now h).1
  | deferQuota lease now => exact .quiet (deferQuota_quiet db db' lease now h).1
  | admitEffect lease request now =>
    simp only [Action.transaction, map_eq_ok, Prod.exists] at h
    obtain ⟨db1, granted, h, rfl⟩ := h
    rcases (admitEffect_eq_ok db db1 lease request now granted h).2 with rfl | ⟨row, run, hc, hd⟩
    · exact .quiet (Quiet.refl _)
    · exact .admitted lease request now row run rfl hc hd
  | settleEffect effect accepted now =>
    simp only [Action.transaction, map_eq_ok, Prod.exists] at h
    obtain ⟨db1, result, h, rfl⟩ := h
    exact .quiet (settleEffect_quiet db db1 effect accepted result now h)
  | reconcileEffect effect => exact .quiet (reconcileEffect_quiet db db' effect h)
  | yieldToChildren lease children now =>
    exact .quiet (yieldToChildren_quiet db db' lease children now h)
  | reconcileExpired runId taskId retry =>
    exact .quiet (reconcileExpired_quiet db db' runId taskId retry h)
  | beginCandidate runId =>
    simp only [Action.transaction, map_eq_ok, Prod.exists] at h
    obtain ⟨db1, epoch, h, rfl⟩ := h
    exact beginCandidate_kind db db1 runId epoch h
  | closeCandidate runId epoch => exact closeCandidate_kind db db' runId epoch h
  | requestStop runId taskId cancel => exact .quiet (requestStop_quiet db db' runId taskId cancel h)
  | resumeTask id restored => cases h; exact .quiet (resumeTask_quiet db id restored)
  | delegate cx runId id children reopening =>
    exact applyDelegate_kind db db' _ cx runId id children reopening h
  | wait cx runId id ids => exact .quiet (applyWait_quiet db db' cx runId id ids h)
  | scopeRequest cx runId id paths =>
    exact .quiet (applyScopeRequest_quiet db db' cx runId id paths h)
  | scopeResponse cx runId id childId granted denied =>
    exact .quiet (applyScopeResponse_quiet db db' cx runId id childId granted denied h)
  | reassign cx runId id childId route =>
    exact .quiet (applyReassign_quiet db db' cx runId id childId route h)
  | forwardFeedback cx fx runId id targetId receiptId =>
    exact .quiet (applyForwardFeedback_quiet db db' cx fx runId id targetId receiptId h)
  | requeueUndelivered runId taskId delivering remaining capacityPending =>
    cases h
    exact .quiet (requeueUndelivered_quiet db runId taskId delivering remaining capacityPending)
  | reopenForRepair runId id affordable => exact reopenForRepair_kind db db' _ runId id affordable h
  | rejectCandidateMismatch runId id affordable =>
    exact rejectCandidateMismatch_kind db db' _ runId id affordable h

/-- Every step is of one of the kinds; one that raises is quiet. -/
theorem step_kind (db : Db) (a : Action) : StepKind pathKey db a (step pathKey db a) := by
  unfold step
  split
  · next db' h => exact transaction_kind db db' a h
  · exact .quiet (Quiet.refl db)

/-- A step that admits no effect is a drift. -/
theorem StepKind.drift {db db' : Db} {a : Action} (h : StepKind pathKey db a db') :
    Drift db db' ∨ ∃ lease request now row run, a = .admitEffect lease request now ∧
      AdmitChecks pathKey db lease request now row run ∧
      db' = db.putEffect request.effectId (newEffect lease run.candidateEpoch
        (admittedExclusive pathKey db lease row request)) := by
  cases h with
  | quiet hq => exact Or.inl hq.drift
  | granted cx mid id row run ha hq hc hg => exact Or.inl (hq.drift.trans (hg.drift hc.get))
  | admitted lease request now row run ha hc hd =>
    exact Or.inr ⟨lease, request, now, row, run, ha, hc, hd⟩
  | began runId run ha hr hs hd => rw [hd]; exact Or.inl (Drift.putRun db runId _)
  | closed runId epoch run ha hr hs ht he hd => rw [hd]; exact Or.inl (Drift.putRun db runId _)
  | reopened mid runId run hq hr hs hd =>
    exact Or.inl ((hq.drift.trans (Drift.putRun mid runId _)).trans hd.drift)

end classification

end ParallelForge.Scheduling
