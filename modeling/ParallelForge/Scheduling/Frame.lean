import ParallelForge.Scheduling.System

/-!
# What a transaction leaves alone

Almost every action is quiet: it inserts tasks that are not leased, moves rows
without giving anyone a lease, settles effects, and does not touch a candidate
barrier. The exceptions are a granted claim, a newly admitted effect, and the
moves of a candidate.
-/

namespace ParallelForge.Scheduling
open Base Run

/-- A change of a scheduled task that grants nothing: its identity and lease
generation stay, it is live only if it was, a lease that runs on is the same
lease with no stop withdrawn, and its paths change only on an idle child. -/
structure Touch (r r' : ScheduledTask) : Prop where
  runId : r'.runId = r.runId
  parent : r'.parentTaskId = r.parentTaskId
  worktree : r'.worktreeId = r.worktreeId
  dependencies : r'.dependencyTaskIds = r.dependencyTaskIds
  readOnly : r'.readOnly = r.readOnly
  generation : r'.leaseGeneration = r.leaseGeneration
  live : r'.live = true → r.live = true
  leased : r'.state = .leased →
    r.state = .leased ∧ r'.leaseOwner = r.leaseOwner ∧ (r.stopped = true → r'.stopped = true)
  paths : r'.ownedPaths = r.ownedPaths ∨ (r'.live = false ∧ r.parentTaskId ≠ none)

def FreshTask (r : ScheduledTask) : Prop := r.live = false ∧ r.leaseGeneration = 0

structure Stay (t t' : LogicalTask) : Prop where
  runId : t'.runId = t.runId
  parent : t'.parentTaskId = t.parentTaskId
  primary : ∀ c, t.contract = some c → c.purpose = .primary → t.parentTaskId = none →
    t'.contract = some c

structure Settles (e e' : ScheduledEffect) : Prop where
  runId : e'.runId = e.runId
  taskId : e'.taskId = e.taskId
  owner : e'.leaseOwner = e.leaseOwner
  generation : e'.leaseGeneration = e.leaseGeneration
  epoch : e'.candidateEpoch = e.candidateEpoch
  exclusive : e'.wholeWorktreeExclusive = e.wholeWorktreeExclusive
  unsettled : e'.unsettled = true → e.unsettled = true

structure SameBarrier (r r' : SchedulerRun) : Prop where
  state : r'.candidateState = r.candidateState
  epoch : r'.candidateEpoch = r.candidateEpoch

def FreshRun (r : SchedulerRun) : Prop := r.candidateState = .opened ∧ r.candidateEpoch = 0

structure Quiet (db db' : Db) : Prop where
  tasks : Table.Evolves Touch FreshTask db.scheduled db'.scheduled
  logical : Table.Evolves Stay (fun _ => True) db.logical db'.logical
  effects : Table.Evolves Settles (fun _ => False) db.effects db'.effects
  runs : Table.Evolves SameBarrier FreshRun db.schedulerRuns db'.schedulerRuns
  bindings : ∀ k b, db.bindings.get k = some b → db'.bindings.get k = some b
  stops : ∀ runId, runStopped db.env runId = true → runStopped db'.env runId = true ∨
    ∀ k r, db'.scheduled.get k = some r → r.runId = runId → r.state ≠ .leased

namespace Touch

theorem refl (r : ScheduledTask) : Touch r r :=
  ⟨rfl, rfl, rfl, rfl, rfl, rfl, id, fun h => ⟨h, rfl, id⟩, Or.inl rfl⟩

theorem trans (a b c : ScheduledTask) (h : Touch a b) (k : Touch b c) : Touch a c := by
  refine ⟨k.runId.trans h.runId, k.parent.trans h.parent, k.worktree.trans h.worktree,
    k.dependencies.trans h.dependencies, k.readOnly.trans h.readOnly,
    k.generation.trans h.generation, fun hc => h.live (k.live hc), ?_, ?_⟩
  · intro hc
    obtain ⟨hb, howner, hstop⟩ := k.leased hc
    obtain ⟨ha, howner', hstop'⟩ := h.leased hb
    exact ⟨ha, howner.trans howner', fun hs => hstop (hstop' hs)⟩
  · rcases k.paths with hp | ⟨hl, hp⟩
    · rcases h.paths with hp' | ⟨hl', hp'⟩
      · exact Or.inl (hp.trans hp')
      · -- an idle row stays idle
        refine Or.inr ⟨?_, hp'⟩
        cases hc : c.live with
        | false => rfl
        | true => rw [k.live hc] at hl'; cases hl'
    · exact Or.inr ⟨hl, h.parent ▸ hp⟩

/- A row that ends up not live may be reached from any row of its identity. -/
theorem idle (r r' : ScheduledTask) (hrun : r'.runId = r.runId)
    (hparent : r'.parentTaskId = r.parentTaskId) (hwt : r'.worktreeId = r.worktreeId)
    (hdeps : r'.dependencyTaskIds = r.dependencyTaskIds) (hro : r'.readOnly = r.readOnly)
    (hgen : r'.leaseGeneration = r.leaseGeneration) (hlive : r'.live = false)
    (hpaths : r'.ownedPaths = r.ownedPaths ∨ r.parentTaskId ≠ none) : Touch r r' := by
  refine ⟨hrun, hparent, hwt, hdeps, hro, hgen, ?_, ?_, ?_⟩
  · intro h; rw [hlive] at h; cases h
  · intro h
    have : r'.live = true := by simp [ScheduledTask.live, h]
    rw [hlive] at this
    cases this
  · exact hpaths.imp id fun h => ⟨hlive, h⟩

theorem released (r : ScheduledTask) (terminal : Bool) : Touch r (releasedTask r terminal) := by
  refine idle r _ rfl rfl rfl rfl rfl rfl ?_ (Or.inl rfl)
  cases terminal <;> rfl

theorem reconciling (r : ScheduledTask) (h : r.live = true) :
    Touch r { r with state := .reconciling } := by
  refine ⟨rfl, rfl, rfl, rfl, rfl, rfl, fun _ => h, ?_, Or.inl rfl⟩
  intro hc
  cases hc

theorem fresh (r r' : ScheduledTask) (hf : FreshTask r) (h : Touch r r') : FreshTask r' := by
  refine ⟨?_, h.generation.trans hf.2⟩
  cases hl : r'.live with
  | false => rfl
  | true => exact absurd (h.live hl) (by simp [hf.1])

end Touch

theorem Stay.refl (t : LogicalTask) : Stay t t := ⟨rfl, rfl, fun _ h _ _ => h⟩

theorem Stay.moveTo (t : LogicalTask) (state : LogicalState) : Stay t (t.moveTo state) :=
  ⟨rfl, rfl, fun _ h _ _ => h⟩

theorem Stay.trans (a b c : LogicalTask) (h : Stay a b) (k : Stay b c) : Stay a c :=
  ⟨k.runId.trans h.runId, k.parent.trans h.parent, fun x hx hp ha =>
    k.primary x (h.primary x hx hp ha) hp (h.parent.trans ha)⟩

theorem Settles.refl (e : ScheduledEffect) : Settles e e := ⟨rfl, rfl, rfl, rfl, rfl, rfl, id⟩

theorem Settles.trans (a b c : ScheduledEffect) (h : Settles a b) (k : Settles b c) : Settles a c :=
  ⟨k.runId.trans h.runId, k.taskId.trans h.taskId, k.owner.trans h.owner,
    k.generation.trans h.generation, k.epoch.trans h.epoch, k.exclusive.trans h.exclusive,
    fun hc => h.unsettled (k.unsettled hc)⟩

theorem SameBarrier.refl (r : SchedulerRun) : SameBarrier r r := ⟨rfl, rfl⟩

theorem SameBarrier.trans (a b c : SchedulerRun) (h : SameBarrier a b) (k : SameBarrier b c) :
    SameBarrier a c := ⟨k.state.trans h.state, k.epoch.trans h.epoch⟩

theorem SameBarrier.fresh (a b : SchedulerRun) (hf : FreshRun a) (h : SameBarrier a b) : FreshRun b :=
  ⟨h.state.trans hf.1, h.epoch.trans hf.2⟩

namespace Quiet

theorem refl (db : Db) : Quiet db db :=
  ⟨.refl Touch.refl _, .refl Stay.refl _, .refl Settles.refl _, .refl SameBarrier.refl _,
    fun _ _ h => h, fun _ h => Or.inl h⟩

theorem trans {a b c : Db} (h : Quiet a b) (k : Quiet b c) : Quiet a c := by
  refine ⟨h.tasks.trans Touch.trans Touch.fresh k.tasks,
    h.logical.trans Stay.trans (fun _ _ _ _ => trivial) k.logical,
    h.effects.trans Settles.trans (fun _ _ hf _ => hf) k.effects,
    h.runs.trans SameBarrier.trans SameBarrier.fresh k.runs,
    fun i x hx => k.bindings i x (h.bindings i x hx), ?_⟩
  intro runId hs
  rcases h.stops runId hs with hb | hb
  · exact k.stops runId hb
  · -- a task leased now was leased when the stop was withdrawn
    right
    intro i r hr hrun hl
    rcases k.tasks.back i r hr with ⟨-, hf⟩ | ⟨r0, hr0, ht⟩
    · have hlive : r.live = true := by simp [ScheduledTask.live, hl]
      rw [hf.1] at hlive
      cases hlive
    · exact hb i r0 hr0 (ht.runId.symm.trans hrun) (ht.leased hl).1

theorem environment (db db' : Db) (env : Surroundings) (h : changeSurroundings db env = .ok db') :
    Quiet db db' := by
  unfold changeSurroundings at h
  simp only [bind_eq_ok, require_eq_ok, Table.any_eq_false] at h
  obtain ⟨-, hguard, h⟩ := h
  cases h
  refine ⟨.refl Touch.refl _, .refl Stay.refl _, .refl Settles.refl _, .refl SameBarrier.refl _,
    fun _ _ h => h, ?_⟩
  intro runId hs
  cases hs' : runStopped env runId with
  | true => exact Or.inl rfl
  | false =>
    right
    intro k r hr hrun hl
    have := hguard k r hr
    simp [hl, hrun, hs, hs'] at this

/- A change of the surroundings that leaves the runs alone. -/
theorem sameRuns (db : Db) (env : Surroundings) (h : env.runs = db.env.runs) :
    Quiet db { db with env := env } := by
  refine ⟨.refl Touch.refl _, .refl Stay.refl _, .refl Settles.refl _, .refl SameBarrier.refl _,
    fun _ _ h => h, ?_⟩
  intro runId hs
  left
  rw [runStopped, h]
  exact hs

theorem putAttempt (db : Db) (id : UUID) (a : LatestAttempt) : Quiet db (db.putAttempt id a) :=
  ⟨.refl Touch.refl _, .refl Stay.refl _, .refl Settles.refl _, .refl SameBarrier.refl _,
    fun _ _ h => h, fun _ h => Or.inl h⟩

theorem putTask (db : Db) (id : UUID) (r r' : ScheduledTask) (h : db.scheduled.get id = some r)
    (ht : Touch r r') : Quiet db (db.putTask id r') :=
  ⟨Table.evolves_put Touch.refl _ id r r' h ht, .refl Stay.refl _, .refl Settles.refl _,
    .refl SameBarrier.refl _, fun _ _ h => h, fun _ h => Or.inl h⟩

theorem insertTask (db : Db) (id : UUID) (r : ScheduledTask) (h : db.scheduled.get id = none)
    (hf : FreshTask r) : Quiet db (db.putTask id r) :=
  ⟨Table.evolves_insert Touch.refl _ id r h hf, .refl Stay.refl _, .refl Settles.refl _,
    .refl SameBarrier.refl _, fun _ _ h => h, fun _ h => Or.inl h⟩

theorem putLogical (db : Db) (id : UUID) (t t' : LogicalTask) (h : db.logical.get id = some t)
    (ht : Stay t t') : Quiet db (db.putLogical id t') :=
  ⟨.refl Touch.refl _, Table.evolves_put Stay.refl _ id t t' h ht, .refl Settles.refl _,
    .refl SameBarrier.refl _, fun _ _ h => h, fun _ h => Or.inl h⟩

theorem insertLogical (db : Db) (id : UUID) (t : LogicalTask) (h : db.logical.get id = none) :
    Quiet db (db.putLogical id t) :=
  ⟨.refl Touch.refl _, Table.evolves_insert Stay.refl _ id t h trivial, .refl Settles.refl _,
    .refl SameBarrier.refl _, fun _ _ h => h, fun _ h => Or.inl h⟩

theorem putEffect (db : Db) (id : UUID) (e e' : ScheduledEffect) (h : db.effects.get id = some e)
    (he : Settles e e') : Quiet db (db.putEffect id e') :=
  ⟨.refl Touch.refl _, .refl Stay.refl _, Table.evolves_put Settles.refl _ id e e' h he,
    .refl SameBarrier.refl _, fun _ _ h => h, fun _ h => Or.inl h⟩

theorem putRun (db : Db) (id : UUID) (r r' : SchedulerRun) (h : db.schedulerRuns.get id = some r)
    (hr : SameBarrier r r') : Quiet db (db.putRun id r') :=
  ⟨.refl Touch.refl _, .refl Stay.refl _, .refl Settles.refl _,
    Table.evolves_put SameBarrier.refl _ id r r' h hr, fun _ _ h => h, fun _ h => Or.inl h⟩

theorem insertRun (db : Db) (id : UUID) (r : SchedulerRun) (h : db.schedulerRuns.get id = none)
    (hf : FreshRun r) : Quiet db (db.putRun id r) :=
  ⟨.refl Touch.refl _, .refl Stay.refl _, .refl Settles.refl _,
    Table.evolves_insert SameBarrier.refl _ id r h hf, fun _ _ h => h, fun _ h => Or.inl h⟩

/- Bulk changes of both task tables. -/
theorem modifyTasks (db : Db) (f : Table UUID ScheduledTask) (g : Table UUID LogicalTask)
    (hf : Table.Evolves Touch FreshTask db.scheduled f)
    (hg : Table.Evolves Stay (fun _ => True) db.logical g) :
    Quiet db { db with scheduled := f, logical := g } :=
  ⟨hf, hg, .refl Settles.refl _, .refl SameBarrier.refl _, fun _ _ h => h, fun _ h => Or.inl h⟩

end Quiet

section coordinator
variable {pathKey : String → String}

theorem isCoordinator_iff (db : Db) (id : UUID) (row : ScheduledTask) :
    isCoordinator pathKey db id row = true ↔ ∃ t c, db.logical.get id = some t ∧
      t.contract = some c ∧ t.parentTaskId = none ∧ row.parentTaskId = none ∧
      row.readOnly = false ∧ c.purpose = .primary ∧ c.parentTaskId = none ∧
      c.route.isPrimary = true ∧ c.runId = t.runId ∧ t.runId = row.runId ∧ c.taskId = id ∧
      c.ownedPaths.map pathKey = row.ownedPaths := by
  unfold isCoordinator
  cases hl : db.logical.get id with
  | none => simp
  | some t =>
    cases hc : t.contract with
    | none => simp [hc]
    | some c =>
      simp only [Bool.and_eq_true, Option.isNone_iff_eq_none, Bool.not_eq_true', Option.any_some,
        beq_iff_eq, hc]
      constructor
      · rintro ⟨⟨⟨h1, h2⟩, h3⟩, ⟨⟨⟨⟨⟨h4, h5⟩, h6⟩, h7⟩, h8⟩, h9⟩, h10⟩
        exact ⟨t, c, rfl, hc, h1, h2, h3, h4, h5, h6, h7, h8, h9, h10⟩
      · rintro ⟨t', c', ht', hc', h1, h2, h3, h4, h5, h6, h7, h8, h9, h10⟩
        cases ht'
        cases hc.symm.trans hc'
        exact ⟨⟨⟨h1, h2⟩, h3⟩, ⟨⟨⟨⟨⟨h4, h5⟩, h6⟩, h7⟩, h8⟩, h9⟩, h10⟩

/-- A coordinator stays one: its contract and its paths are those of a primary
root, which nothing rewrites. -/
theorem isCoordinator_mono (db db' : Db) (id : UUID) (r r' : ScheduledTask)
    (hl : Table.Evolves Stay (fun _ => True) db.logical db'.logical)
    (hrun : r'.runId = r.runId) (hparent : r'.parentTaskId = r.parentTaskId)
    (hro : r'.readOnly = r.readOnly)
    (hpaths : r'.ownedPaths = r.ownedPaths ∨ r.parentTaskId ≠ none)
    (h : isCoordinator pathKey db id r = true) : isCoordinator pathKey db' id r' = true := by
  rw [isCoordinator_iff] at h ⊢
  obtain ⟨t, c, ht, hc, htp, hrp, hr, hp, hcp, hprim, hcr, htr, hci, hcpaths⟩ := h
  obtain ⟨t', ht', hstay⟩ := hl.forth id t ht
  refine ⟨t', c, ht', hstay.primary c hc hp htp, hstay.parent.trans htp, hparent.trans hrp,
    hro.trans hr, hp, hcp, hprim, hcr.trans hstay.runId.symm, ?_, hci, ?_⟩
  · exact hstay.runId.trans (htr.trans hrun.symm)
  · rcases hpaths with hs | hs
    · exact hcpaths.trans hs.symm
    · exact absurd hrp hs

theorem isBoundRead_mono (db db' : Db) (k taskId : UUID) (r r' : ScheduledTask) (owner : String)
    (generation : ℕ) (snapshotOnly : Bool)
    (hb : ∀ k b, db.bindings.get k = some b → db'.bindings.get k = some b)
    (hrun : r'.runId = r.runId)
    (h : isBoundRead db k taskId r owner generation snapshotOnly = true) :
    isBoundRead db' k taskId r' owner generation snapshotOnly = true := by
  unfold isBoundRead at h ⊢
  obtain ⟨b, hget, hread⟩ := (Option.any_eq_true _ _).mp h
  rw [hb k b hget, hrun]
  exact hread

end coordinator

section drift
variable {pathKey : String → String}

/-- A change that keeps what says where a task writes and whether it may. -/
structure Kin (r r' : ScheduledTask) : Prop where
  runId : r'.runId = r.runId
  parent : r'.parentTaskId = r.parentTaskId
  worktree : r'.worktreeId = r.worktreeId
  readOnly : r'.readOnly = r.readOnly
  paths : r'.ownedPaths = r.ownedPaths ∨ r.parentTaskId ≠ none

theorem Kin.refl (r : ScheduledTask) : Kin r r := ⟨rfl, rfl, rfl, rfl, Or.inl rfl⟩

theorem Kin.trans (a b c : ScheduledTask) (h : Kin a b) (k : Kin b c) : Kin a c := by
  refine ⟨k.runId.trans h.runId, k.parent.trans h.parent, k.worktree.trans h.worktree,
    k.readOnly.trans h.readOnly, ?_⟩
  rcases h.paths with hp | hp
  · rcases k.paths with hp' | hp'
    · exact Or.inl (hp'.trans hp)
    · exact Or.inr (h.parent ▸ hp')
  · exact Or.inr hp

theorem Touch.kin {r r' : ScheduledTask} (h : Touch r r') : Kin r r' :=
  ⟨h.runId, h.parent, h.worktree, h.readOnly, h.paths.imp id And.right⟩

/-- No effect is admitted; leases and barriers may move. -/
structure Drift (db db' : Db) : Prop where
  tasks : Table.Evolves Kin (fun _ => True) db.scheduled db'.scheduled
  logical : Table.Evolves Stay (fun _ => True) db.logical db'.logical
  effects : Table.Evolves Settles (fun _ => False) db.effects db'.effects
  bindings : ∀ k b, db.bindings.get k = some b → db'.bindings.get k = some b

theorem Drift.trans {a b c : Db} (h : Drift a b) (k : Drift b c) : Drift a c :=
  ⟨h.tasks.trans Kin.trans (fun _ _ _ _ => trivial) k.tasks,
    h.logical.trans Stay.trans (fun _ _ _ _ => trivial) k.logical,
    h.effects.trans Settles.trans (fun _ _ hf _ => hf) k.effects,
    fun i b hb => k.bindings i b (h.bindings i b hb)⟩

theorem Quiet.drift {db db' : Db} (h : Quiet db db') : Drift db db' := by
  refine ⟨?_, h.logical, h.effects, h.bindings⟩
  intro k
  exact (h.tasks k).mono (fun _ _ hab => hab.kin) (fun _ _ => trivial)

theorem Drift.putRun (db : Db) (runId : UUID) (run : SchedulerRun) : Drift db (db.putRun runId run) :=
  ⟨.refl Kin.refl _, .refl Stay.refl _, .refl Settles.refl _, fun _ _ h => h⟩

/- The owner of an effect after a drift, if it had one before. -/
theorem Drift.owner {db db' : Db} (h : Drift db db') (runId id : UUID) (r : ScheduledTask)
    (hr : db.taskOf runId id = some r) :
    ∃ r', db'.taskOf runId id = some r' ∧ Kin r r' := by
  rw [Db.taskOf, Option.filter_eq_some_iff, beq_iff_eq] at hr
  obtain ⟨r', hget, hk⟩ := h.tasks.forth id r hr.1
  refine ⟨r', ?_, hk⟩
  rw [Db.taskOf, Option.filter_eq_some_iff, beq_iff_eq]
  exact ⟨hget, hk.runId.trans hr.2⟩

theorem Drift.coordinator {db db' : Db} (h : Drift db db') (k : UUID) (r r' : ScheduledTask)
    (hk : Kin r r') (hc : isCoordinator pathKey db k r = true) :
    isCoordinator pathKey db' k r' = true :=
  isCoordinator_mono db db' k r r' h.logical hk.runId hk.parent hk.readOnly hk.paths hc

end drift

end ParallelForge.Scheduling
