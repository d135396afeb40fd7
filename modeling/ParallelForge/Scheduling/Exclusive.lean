import ParallelForge.Scheduling.Steps

/-!
# Exclusive effects

While an exclusive effect of a worktree is unsettled, no mutating effect is
admitted there. The converse admission is guarded by less: an exclusive effect
that is not a snapshot read looks at the live tasks of the worktree and at the
unsettled effects of its own task, so it passes by the effect of a task that
was released before the effect settled.
-/

namespace ParallelForge.Scheduling
open Base Run

variable {pathKey : String → String}

/-- An effect that may write: its task is not read-only, and it is not a read
bound to a coordinator. -/
def Mutating (pathKey : String → String) (db : Db) (k : UUID) (e : ScheduledEffect)
    (owner : ScheduledTask) : Prop :=
  owner.readOnly = false ∧ ¬ (isCoordinator pathKey db e.taskId owner = true ∧
    isBoundRead db k e.taskId owner e.leaseOwner e.leaseGeneration false = true)

/-- Beside an unsettled exclusive effect of a worktree there is no other unsettled
mutating effect in it, of whatever task. -/
def ExclusiveEffects (pathKey : String → String) (db : Db) : Prop :=
  ∀ i j e f a b, db.effects.get i = some e → db.effects.get j = some f → i ≠ j →
    db.taskOf e.runId e.taskId = some a → db.taskOf f.runId f.taskId = some b →
    a.worktreeId = b.worktreeId → e.unsettled = true → e.wholeWorktreeExclusive = true →
    f.unsettled = true → ¬ Mutating pathKey db j f b

/-- Every unsettled mutating effect of the worktree belongs to a task that is
leased or reconciling. -/
def Drained (pathKey : String → String) (db : Db) (worktreeId : String) : Prop :=
  ∀ j f b, db.effects.get j = some f → db.taskOf f.runId f.taskId = some b →
    b.worktreeId = worktreeId → f.unsettled = true → Mutating pathKey db j f b → b.live = true

/-- The effect is a snapshot read, which looks at the whole worktree. -/
def snapshotRead (db : Db) (lease : TaskLease) (request : EffectRequest) (row : ScheduledTask) :
    Bool := isBoundRead db request.effectId lease.taskId row lease.owner lease.generation true

/-- An exclusive effect other than a snapshot read is asked for only where every
released task has settled its mutating effects. -/
def AskedWhenDrained (pathKey : String → String) (db : Db) : Action → Prop
  | .admitEffect lease request _ => ∀ row, db.taskOf lease.runId lease.taskId = some row →
      db.effects.get request.effectId = none →
      admittedExclusive pathKey db lease row request = true →
      snapshotRead db lease request row = false → Drained pathKey db row.worktreeId
  | _ => True

/-- Every effect belongs to a scheduled task. -/
def EffectsOwned (db : Db) : Prop :=
  ∀ k e, db.effects.get k = some e → ∃ owner, db.taskOf e.runId e.taskId = some owner

theorem effectsOwned_drift (db db' : Db) (h : EffectsOwned db) (hd : Drift db db') :
    EffectsOwned db' := by
  intro k e' he'
  obtain ⟨e, he, hs⟩ := hd.effects.origin k e' he'
  obtain ⟨owner, howner⟩ := h k e he
  obtain ⟨owner', howner', -⟩ := hd.owner e.runId e.taskId owner howner
  exact ⟨owner', by rw [hs.runId, hs.taskId]; exact howner'⟩

/- An effect after a drift, and its owner, were there before. -/
theorem drift_effect (db db' : Db) (h : EffectsOwned db) (hd : Drift db db') (k : UUID)
    (e' : ScheduledEffect) (b' : ScheduledTask) (he : db'.effects.get k = some e')
    (hb : db'.taskOf e'.runId e'.taskId = some b') :
    ∃ e b, db.effects.get k = some e ∧ db.taskOf e.runId e.taskId = some b ∧ Settles e e' ∧
      Kin b b' := by
  obtain ⟨e, hget, hs⟩ := hd.effects.origin k e' he
  obtain ⟨b, howner⟩ := h k e hget
  obtain ⟨b1, hb1, hkin⟩ := hd.owner e.runId e.taskId b howner
  rw [hs.runId, hs.taskId, hb1] at hb
  cases hb
  exact ⟨e, b, hget, howner, hs, hkin⟩

/- What writes after a drift wrote before it: coordinators and bound reads stay. -/
theorem mutating_of_drift (db db' : Db) (hd : Drift db db') (k : UUID) (e e' : ScheduledEffect)
    (b b' : ScheduledTask) (hs : Settles e e') (hk : Kin b b')
    (h : Mutating pathKey db' k e' b') : Mutating pathKey db k e b := by
  refine ⟨hk.readOnly ▸ h.1, ?_⟩
  rintro ⟨hc, hr⟩
  refine h.2 ⟨?_, ?_⟩
  · rw [hs.taskId]
    exact hd.coordinator e.taskId b b' hk hc
  · rw [hs.taskId, hs.owner, hs.generation]
    exact isBoundRead_mono db db' k e.taskId b b' _ _ _ hd.bindings hk.runId hr

theorem exclusive_drift (db db' : Db) (ho : EffectsOwned db) (h : ExclusiveEffects pathKey db)
    (hd : Drift db db') : ExclusiveEffects pathKey db' := by
  intro i j e' f' a' b' he hf hij ha hb hwt hue hex huf hmut
  obtain ⟨e, a, he0, ha0, hse, hka⟩ := drift_effect db db' ho hd i e' a' he ha
  obtain ⟨f, b, hf0, hb0, hsf, hkb⟩ := drift_effect db db' ho hd j f' b' hf hb
  refine h i j e f a b he0 hf0 hij ha0 hb0 ?_ (hse.unsettled hue) (hse.exclusive ▸ hex)
    (hsf.unsettled huf) (mutating_of_drift db db' hd j f f' b b' hsf hkb hmut)
  exact hka.worktree.symm.trans (hwt.trans hkb.worktree)

section admission
variable {db : Db} {lease : TaskLease} {request : EffectRequest} {now : ℤ} {row : ScheduledTask}
  {run : SchedulerRun}

theorem requireWorktree_eq_ok (db : Db) (lease : TaskLease) (row : ScheduledTask) (effectId : UUID)
    (read exclusive : Bool)
    (h : requireWorktree pathKey db lease row effectId read exclusive = .ok ()) :
    (row.readOnly = false → read = false → hasExclusiveEffectBarrier pathKey db row = false) ∧
      (exclusive = true → hasExclusiveEffectBarrier pathKey db row = false ∧
        hasEffectConflict pathKey db lease.taskId row
          (isBoundRead db effectId lease.taskId row lease.owner lease.generation true) = false) := by
  unfold requireWorktree at h
  simp only [bind_eq_ok, require_eq_ok] at h
  obtain ⟨-, hbar, hconf⟩ := h
  constructor
  · intro hro hread
    simpa [hro, hread] using hbar
  · intro hex
    subst hex
    exact ⟨by simpa using hbar, by simpa using hconf⟩

/- An unsettled exclusive effect or coordinator mutation of the worktree is a barrier. -/
theorem barrier_of_effect (db : Db) (row : ScheduledTask) (k : UUID) (e : ScheduledEffect)
    (owner : ScheduledTask) (he : db.effects.get k = some e)
    (ho : db.taskOf e.runId e.taskId = some owner) (hwt : owner.worktreeId = row.worktreeId)
    (hu : e.unsettled = true)
    (hx : e.wholeWorktreeExclusive = true ∨ (isCoordinator pathKey db e.taskId owner = true ∧
      isBoundRead db k e.taskId owner e.leaseOwner e.leaseGeneration false = false)) :
    hasExclusiveEffectBarrier pathKey db row = true := by
  unfold hasExclusiveEffectBarrier
  rw [Bool.or_eq_true, Table.any_iff]
  refine Or.inr ⟨k, e, he, ?_⟩
  rw [ho]
  simp only [hu, hwt, beq_self_eq_true, Bool.true_and]
  rcases hx with hx | ⟨hc, hb⟩
  · simp [hx]
  · simp [hc, hb]

/- A conflict-free exclusive admission leaves no unsettled mutation beside it,
provided that released tasks have none. -/
theorem no_mutation_beside (h : AdmitChecks pathKey db lease request now row run)
    (hex : admittedExclusive pathKey db lease row request = true)
    (hdrain : snapshotRead db lease request row = false → Drained pathKey db row.worktreeId)
    (j : UUID) (f : ScheduledEffect) (b : ScheduledTask) (hf : db.effects.get j = some f)
    (hb : db.taskOf f.runId f.taskId = some b) (hwt : row.worktreeId = b.worktreeId)
    (hu : f.unsettled = true) : ¬ Mutating pathKey db j f b := by
  intro hmut
  obtain ⟨hbar, hconf⟩ := (requireWorktree_eq_ok db lease row _ _ _ h.worktree).2 hex
  unfold hasEffectConflict at hconf
  rw [Bool.or_eq_false_iff] at hconf
  obtain ⟨hlive, hpending⟩ := hconf
  cases hsnap : snapshotRead db lease request row with
  | true =>
    -- a snapshot looks at every unsettled effect of the worktree
    unfold snapshotRead at hsnap
    rw [hsnap, if_pos rfl] at hpending
    have := (Table.any_eq_false _ _).mp hpending j f hf
    rw [hb] at this
    simp [hu, hwt] at this
  | false =>
    have hblive := hdrain hsnap j f b hf hb hwt.symm hu hmut
    unfold snapshotRead at hsnap
    rw [hsnap] at hlive hpending
    rw [taskOf_eq_some] at hb
    by_cases htask : f.taskId = lease.taskId
    · -- an effect of the task itself
      have hsame := hb.1
      rw [htask, h.holds.get] at hsame
      cases hsame
      have hnone : db.hasUnsettledEffect row.runId lease.taskId = false := by simpa using hpending
      have := (Table.any_eq_false _ _).mp hnone j f hf
      simp [hb.2, htask, hu] at this
    · cases hco : isCoordinator pathKey db f.taskId b with
      | false =>
        -- a live writer of the worktree
        have := (Table.any_eq_false _ _).mp hlive f.taskId b hb.1
        simp [hwt, htask, hblive, hmut.1, hco] at this
      | true =>
        -- a coordinator's mutation is a barrier of its own
        have hread : isBoundRead db j f.taskId b f.leaseOwner f.leaseGeneration false = false := by
          cases hr : isBoundRead db j f.taskId b f.leaseOwner f.leaseGeneration false with
          | false => rfl
          | true => exact absurd ⟨hco, hr⟩ hmut.2
        have := barrier_of_effect db row j f b hf ((taskOf_eq_some _ _ _ _).mpr hb) hwt.symm hu
          (Or.inr ⟨hco, hread⟩)
        rw [hbar] at this
        cases this

/- No mutation is admitted beside an unsettled exclusive effect. -/
theorem not_mutating_beside_exclusive (h : AdmitChecks pathKey db lease request now row run)
    (i : UUID) (e : ScheduledEffect) (a : ScheduledTask) (he : db.effects.get i = some e)
    (ha : db.taskOf e.runId e.taskId = some a) (hwt : a.worktreeId = row.worktreeId)
    (hu : e.unsettled = true) (hex : e.wholeWorktreeExclusive = true) :
    ¬ (row.readOnly = false ∧ ¬ (isCoordinator pathKey db lease.taskId row = true ∧
      isBoundRead db request.effectId lease.taskId row lease.owner lease.generation false = true)) := by
  rintro ⟨hro, hmut⟩
  have hread : readEffect pathKey db lease row request.effectId = false := by
    unfold readEffect
    rw [hro, Bool.or_false, Bool.eq_false_iff]
    intro hr
    rw [Bool.and_eq_true] at hr
    exact hmut hr
  have hbar := (requireWorktree_eq_ok db lease row _ _ _ h.worktree).1 hro hread
  rw [barrier_of_effect db row i e a he ha hwt hu (Or.inl hex)] at hbar
  cases hbar

/-- An admission keeps exclusion exactly when it is not exclusive, is a snapshot
read, or finds the worktree drained. -/
theorem exclusive_admission_iff (h : AdmitChecks pathKey db lease request now row run)
    (hinv : ExclusiveEffects pathKey db) :
    ExclusiveEffects pathKey (db.putEffect request.effectId (newEffect lease run.candidateEpoch
        (admittedExclusive pathKey db lease row request))) ↔
      (admittedExclusive pathKey db lease row request = true →
        snapshotRead db lease request row = false → Drained pathKey db row.worktreeId) := by
  have hnew : ∀ k f, db.effects.get k = some f → k ≠ request.effectId := by
    rintro k f hk rfl
    rw [h.new] at hk
    cases hk
  constructor
  · intro hall hex _ j f b hf hb hwt hu hmut
    refine absurd hmut (hall request.effectId j (newEffect lease run.candidateEpoch
      (admittedExclusive pathKey db lease row request)) f row b ?_ ?_ (Ne.symm (hnew j f hf))
      h.owner hb hwt.symm rfl hex hu)
    · exact Table.get_put_self _ _ _
    · exact (Table.get_put_ne _ _ (hnew j f hf)).trans hf
  · intro hdrain i j e f a b he hf hij ha hb hwt hue hex huf hmut
    simp only [Db.putEffect, Table.get_put] at he hf
    split at he <;> split at hf
    · next hi hj => exact hij (hi.trans hj.symm)
    · next hi hj =>
      -- the new effect is the exclusive one
      cases he
      cases h.owner.symm.trans ha
      exact no_mutation_beside h hex (hdrain hex) j f b hf hb hwt huf hmut
    · next hi hj =>
      -- the new effect is the mutation
      cases hf
      cases h.owner.symm.trans hb
      subst hj
      exact not_mutating_beside_exclusive h i e a he ha hwt hue hex hmut
    · exact hinv i j e f a b he hf hij ha hb hwt hue hex huf hmut

end admission

theorem exclusive_step (db : Db) (a : Action) (hok : AskedWhenDrained pathKey db a)
    (h : EffectsOwned db ∧ ExclusiveEffects pathKey db) :
    EffectsOwned (step pathKey db a) ∧ ExclusiveEffects pathKey (step pathKey db a) := by
  rcases (@step_kind pathKey db a).drift with hd | ⟨lease, request, now, row, run, ha, hc, hd⟩
  · exact ⟨effectsOwned_drift db _ h.1 hd, exclusive_drift db _ h.1 h.2 hd⟩
  · subst ha
    rw [hd]
    refine ⟨?_, (exclusive_admission_iff hc h.2).mpr (hok row hc.owner hc.new)⟩
    intro k e he
    simp only [Db.putEffect, Table.get_put] at he
    split at he
    · cases he
      exact ⟨row, hc.owner⟩
    · exact h.1 k e he

/-- In every run that asks for exclusive effects, snapshot reads apart, only where
released tasks have settled their mutating effects, an unsettled exclusive
effect is never beside another unsettled mutating effect of its worktree. -/
theorem exclusive_of_drained (pathKey : String → String) (env : Surroundings)
    (actions : List Action)
    (hok : Along (step pathKey) (AskedWhenDrained pathKey) (Db.init env) actions) :
    ExclusiveEffects pathKey (reach pathKey env actions) := by
  have hinit : EffectsOwned (Db.init env) ∧ ExclusiveEffects pathKey (Db.init env) := by
    constructor
    · intro k e he
      cases he
    · intro i j e f a b he
      cases he
  exact (run_invariant_along (step pathKey) (AskedWhenDrained pathKey) _
    (fun db a h hk => exclusive_step db a hk h) (Db.init env) actions hinit hok).2

theorem drained_of_settled (db : Db) (worktreeId : String)
    (h : (db.effects.any fun _ f => f.unsettled) = false) : Drained pathKey db worktreeId := by
  intro j f b hf _ _ hu
  rw [(Table.any_eq_false _ _).mp h j f hf] at hu
  cases hu

/-- The primary 1 and the workers 2 and 3 are leased in one worktree, and worker 2
has an effect admitted. -/
def sharedWorktree : List Action :=
  .admitRun 9 :: sampleTask (sampleContract 1 none [] ["src"]) 0 ++
    sampleTask (sampleContract 2 (some 1) [] ["src/a"]) 1 ++
    sampleTask (sampleContract 3 (some 1) [] ["src/b"]) 2 ++
    [.claim (sampleClaim "p" 10), .claim (sampleClaim "a" 20),
      .admitEffect ⟨9, 2, "a", 1, 60000020⟩ ⟨100, ["src/a"], false, none⟩ 30]

def finishWorker : List Action := [.finish ⟨9, 2, "a", 1, 60000020⟩ true true 40]

/-- Worker 3 takes its lease and asks for an exclusive effect. -/
def askExclusive : List Action :=
  [.claim (sampleClaim "b" 50), .admitEffect ⟨9, 3, "b", 1, 60000050⟩ ⟨200, [], true, none⟩ 60]

theorem exclusive_after_settlement :
    let actions := sharedWorktree ++ [.settleEffect ⟨100, ⟨9, 2, "a", 1, 60000020⟩, 0⟩ true 35] ++
      finishWorker ++ askExclusive
    ((reach id sampleEnv actions).effects.get 200).any
        (fun e => e.unsettled && e.wholeWorktreeExclusive) = true ∧
      ExclusiveEffects id (reach id sampleEnv actions) := by
  refine ⟨by decide +kernel, exclusive_of_drained id sampleEnv _ ?_⟩
  refine ⟨trivial, trivial, trivial, trivial, trivial, trivial, trivial, trivial, trivial, ?_, trivial,
    trivial, trivial, ?_, trivial⟩
  · exact fun row _ _ _ _ => drained_of_settled _ _ (by decide +kernel)
  · exact fun row _ _ _ _ => drained_of_settled _ _ (by decide +kernel)

/- Worker 2 finishes with its effect still admitted; the exclusive effect of worker 3
is admitted beside it. -/
theorem released_mutation_beside_exclusive :
    ¬ ExclusiveEffects id (reach id sampleEnv (sharedWorktree ++ finishWorker ++ askExclusive)) := by
  intro h
  have hx : ((reach id sampleEnv (sharedWorktree ++ finishWorker ++ askExclusive)).effects.get 200).any
      (fun e => e.unsettled && e.wholeWorktreeExclusive && e.runId == 9 && e.taskId == 3) = true := by
    decide +kernel
  have hm : ((reach id sampleEnv (sharedWorktree ++ finishWorker ++ askExclusive)).effects.get 100).any
      (fun e => e.unsettled && e.runId == 9 && e.taskId == 2) = true := by decide +kernel
  have ha : ((reach id sampleEnv (sharedWorktree ++ finishWorker ++ askExclusive)).taskOf 9 3).any
      (fun r => r.worktreeId == "worktree") = true := by decide +kernel
  have hb : ((reach id sampleEnv (sharedWorktree ++ finishWorker ++ askExclusive)).taskOf 9 2).any
      (fun r => r.worktreeId == "worktree" && !r.readOnly && !isCoordinator id
        (reach id sampleEnv (sharedWorktree ++ finishWorker ++ askExclusive)) 2 r) = true := by
    decide +kernel
  generalize reach id sampleEnv (sharedWorktree ++ finishWorker ++ askExclusive) = db at *
  rw [Option.any_eq_true] at hx hm ha hb
  obtain ⟨e, he, hpe⟩ := hx
  obtain ⟨f, hf, hpf⟩ := hm
  obtain ⟨a, ha, hpa⟩ := ha
  obtain ⟨b, hb, hpb⟩ := hb
  simp only [Bool.and_eq_true, beq_iff_eq, Bool.not_eq_true'] at hpe hpf hpa hpb
  refine h 200 100 e f a b he hf (by decide) ?_ ?_ (hpa.trans hpb.1.1.symm) hpe.1.1.1 hpe.1.1.2
    hpf.1.1 ⟨hpb.1.2, ?_⟩
  · rw [hpe.1.2, hpe.2]; exact ha
  · rw [hpf.1.2, hpf.2]; exact hb
  · rintro ⟨hc, -⟩
    rw [hpf.2, hpb.2] at hc
    cases hc

end ParallelForge.Scheduling
