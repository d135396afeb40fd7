import ParallelForge.Scheduling.Steps

/-!
# Dependency order

A claim refuses a task while an unfinished dependency row exists in its run. A
dependency that has no row there does not hold the task back, although its
contract names it: a logical task may be created and enqueued later or never.
-/

namespace ParallelForge.Scheduling
open Base Run

variable {pathKey : String → String}

/-- Every dependency is a scheduled task of the same run. -/
def DependenciesScheduled (db : Db) (row : ScheduledTask) : Prop :=
  ∀ d ∈ row.dependencyTaskIds, ∃ r, db.scheduled.get d = some r ∧ r.runId = row.runId

/-- Every dependency is a scheduled task of the same run, and is over. -/
def DependenciesTerminal (db : Db) (row : ScheduledTask) : Prop :=
  ∀ d ∈ row.dependencyTaskIds,
    ∃ r, db.scheduled.get d = some r ∧ r.runId = row.runId ∧ r.state = .terminal

/-- Whenever a claim runs, the dependencies of every queued task have rows. -/
def EnqueuedFirst (db : Db) : Action → Prop
  | .claim _ => ∀ k r, db.scheduled.get k = some r → r.state = .queued → DependenciesScheduled db r
  | _ => True

/-- A change of rows that ends no task and keeps run and dependencies. -/
structure Postpones (r r' : ScheduledTask) : Prop where
  runId : r'.runId = r.runId
  dependencies : r'.dependencyTaskIds = r.dependencyTaskIds
  terminal : r'.state = .terminal ↔ r.state = .terminal
  queued : r'.state = .queued → r.state = .queued

theorem Postpones.refl (r : ScheduledTask) : Postpones r r := ⟨rfl, rfl, Iff.rfl, id⟩

theorem Postpones.trans (a b c : ScheduledTask) (h : Postpones a b) (k : Postpones b c) :
    Postpones a c :=
  ⟨k.runId.trans h.runId, k.dependencies.trans h.dependencies, k.terminal.trans h.terminal,
    fun hc => h.queued (k.queued hc)⟩

/-- What a claim does before its grant: leases expire, stale contracts are blocked. -/
def Waits (db db' : Db) : Prop :=
  Table.Evolves Postpones (fun _ => False) db.scheduled db'.scheduled

theorem Waits.trans {a b c : Db} (h : Waits a b) (k : Waits b c) : Waits a c :=
  Table.Evolves.trans Postpones.trans (fun _ _ hf _ => hf) h k

theorem expireLeases_waits (cx : ClaimContext) (db : Db) : Waits db (expireLeases cx db) := by
  refine Table.evolves_mapRows _ _ ?_
  intro k r _
  unfold expireTask
  split
  · next he =>
    simp only [expires, Bool.and_eq_true, beq_iff_eq] at he
    have hs : r.state = .leased := he.1.1.1
    refine ⟨rfl, rfl, by simp [hs], ?_⟩
    intro h
    cases h
  · exact Postpones.refl r

theorem blockStale_waits (db : Db) (id : UUID)
    (h : ∀ r, db.scheduled.get id = some r → r.state = .queued) : Waits db (blockStale db id) := by
  refine Table.evolves_modify Postpones.refl _ id _ ?_
  intro r hr
  refine ⟨rfl, rfl, by simp [h r hr], ?_⟩
  intro hc
  cases hc

/- Only a queued task is blocked as stale. -/
theorem examine_stale (db : Db) (cx : ClaimContext) (id : UUID)
    (h : examine pathKey db cx id = .stale) (r : ScheduledTask)
    (hr : db.scheduled.get id = some r) : r.state = .queued := by
  unfold examine at h
  rw [hr] at h
  simp only at h
  split at h
  · cases h
  · split at h
    · next ho =>
      simp only [offered, claimable, Bool.and_eq_true, beq_iff_eq] at ho
      exact ho.1.2.1
    · cases h

theorem claimLoop_waits (cx : ClaimContext) (ids : List UUID) (db db' : Db)
    (chosen : Option (UUID × Option RouteBinding))
    (h : claimLoop pathKey cx ids db = .ok (db', chosen)) : Waits db db' := by
  induction ids generalizing db with
  | nil =>
    cases h
    exact Table.Evolves.refl Postpones.refl _
  | cons i ids ih =>
    unfold claimLoop at h
    split at h
    · exact ih db h
    · next hs => exact (blockStale_waits db i (examine_stale db cx i hs)).trans (ih _ h)
    · cases h
    · cases h
      exact Table.Evolves.refl Postpones.refl _

/-- A claim that returns a lease found the task queued, and all of its dependencies
that have a row in the run over. -/
theorem claimReady_dependencies (db db' : Db) (cx : ClaimContext) (lease : TaskLease)
    (h : claimReady pathKey db cx = .ok (db', some lease)) :
    ∃ row, db.scheduled.get lease.taskId = some row ∧ row.state = .queued ∧
      ∀ d ∈ row.dependencyTaskIds, ∀ r, db.scheduled.get d = some r → r.runId = row.runId →
        r.state = .terminal := by
  unfold claimReady at h
  rw [bind_eq_ok] at h
  obtain ⟨-, -, h⟩ := h
  split at h
  · cases h
  · simp only [bind_eq_ok, Prod.exists] at h
    obtain ⟨mid, chosen, hloop, h⟩ := h
    have hwait := (expireLeases_waits cx db).trans (claimLoop_waits cx _ _ mid chosen hloop)
    split at h
    · cases h
    · next id route =>
      obtain ⟨row, run, hc, hr⟩ := examine_checks mid cx id route
        ((claimLoop_eq_ok cx _ _ mid _ hloop).2 id route rfl)
      rw [hc.get] at h
      cases h
      rw [(grant_frame cx mid id row route hr).2]
      obtain ⟨row0, hrow0, hp⟩ := hwait.origin id row hc.get
      refine ⟨row0, hrow0, hp.queued hc.queued, ?_⟩
      intro d hd r hget hrun
      obtain ⟨r', hget', hp'⟩ := hwait.forth d r hget
      have hnone := (Table.any_eq_false _ _).mp hc.dependencies d r' hget'
      rw [← hp.dependencies] at hd
      have hsame : r'.runId = row.runId := hp'.runId.trans (hrun.trans hp.runId.symm)
      have hterm : d ∈ row.dependencyTaskIds → r'.state = .terminal := by
        simpa [hsame] using hnone
      exact hp'.terminal.mp (hterm hd)

/-- For a granted task, its dependencies are over exactly when they are scheduled. -/
theorem granted_dependencies_iff (db db' : Db) (cx : ClaimContext) (lease : TaskLease)
    (h : claimReady pathKey db cx = .ok (db', some lease)) :
    ∃ row, db.scheduled.get lease.taskId = some row ∧
      (DependenciesTerminal db row ↔ DependenciesScheduled db row) := by
  obtain ⟨row, hrow, -, hdep⟩ := claimReady_dependencies db db' cx lease h
  refine ⟨row, hrow, ?_, ?_⟩
  · intro ht d hd
    obtain ⟨r, hr, hrun, -⟩ := ht d hd
    exact ⟨r, hr, hrun⟩
  · intro hs d hd
    obtain ⟨r, hr, hrun⟩ := hs d hd
    exact ⟨r, hr, hrun, hdep d hd r hr hrun⟩

/-- In every run whose claims find the dependencies of all queued tasks scheduled,
every lease is granted to a task whose dependencies are scheduled and over. -/
theorem granted_after_dependencies (pathKey : String → String) (env : Surroundings)
    (actions : List Action) (hok : Along (step pathKey) EnqueuedFirst (Db.init env) actions)
    (before after : List Action) (cx : ClaimContext) (hsplit : actions = before ++ .claim cx :: after)
    (db' : Db) (lease : TaskLease)
    (h : claimReady pathKey (reach pathKey env before) cx = .ok (db', some lease)) :
    ∃ row, (reach pathKey env before).scheduled.get lease.taskId = some row ∧
      DependenciesTerminal (reach pathKey env before) row := by
  obtain ⟨row, hrow, hq, -⟩ := claimReady_dependencies _ db' cx lease h
  obtain ⟨row', hrow', hiff⟩ := granted_dependencies_iff _ db' cx lease h
  cases hrow.symm.trans hrow'
  subst hsplit
  have hfirst := along_at (step pathKey) EnqueuedFirst (Db.init env) before after (.claim cx) hok
  exact ⟨row, hrow, hiff.mpr (hfirst lease.taskId row hrow hq)⟩

theorem enqueuedFirst_of_any (db : Db) (cx : ClaimContext)
    (h : (db.scheduled.any fun _ r => r.state == .queued &&
      !r.dependencyTaskIds.all fun d => (db.taskOf r.runId d).isSome) = false) :
    EnqueuedFirst db (.claim cx) := by
  intro k r hr hq d hd
  have hall := (Table.any_eq_false _ _).mp h k r hr
  simp only [hq, beq_self_eq_true, Bool.true_and, Bool.not_eq_false', List.all_eq_true] at hall
  obtain ⟨s, hs⟩ := Option.isSome_iff_exists.mp (hall d hd)
  rw [taskOf_eq_some] at hs
  exact ⟨s, hs.1, hs.2⟩

/-- The lease a claim returns on a concrete state. -/
def grantedLease (db : Db) (cx : ClaimContext) : Option TaskLease :=
  (claimReady id db cx).toOption.bind Prod.snd

theorem claimReady_of_grantedLease (db : Db) (cx : ClaimContext) (lease : TaskLease)
    (h : grantedLease db cx = some lease) : ∃ db', claimReady id db cx = .ok (db', some lease) := by
  unfold grantedLease at h
  cases hc : claimReady id db cx with
  | error e => rw [hc] at h; cases h
  | ok out =>
    rw [hc] at h
    obtain ⟨db', result⟩ := out
    cases h
    exact ⟨db', rfl⟩

/-- Worker 3 depends on worker 2, which is enqueued, claimed and finished before it. -/
def orderedRun : List Action :=
  .admitRun 9 :: sampleTask (sampleContract 1 none [] ["src"]) 0 ++
    sampleTask (sampleContract 2 (some 1) [] ["src/a"]) 1 ++
    sampleTask (sampleContract 3 (some 1) [2] ["src/b"]) 2 ++
    [.claim (sampleClaim "w" 10), .claim (sampleClaim "w" 20),
      .finish ⟨9, 2, "w", 1, 60000020⟩ true true 30]

theorem granted_after_finished_dependency :
    ∃ db' row, claimReady id (reach id sampleEnv orderedRun) (sampleClaim "w" 40)
        = .ok (db', some ⟨9, 3, "w", 1, 60000040⟩) ∧
      (reach id sampleEnv orderedRun).scheduled.get 3 = some row ∧ row.dependencyTaskIds = [2] ∧
      DependenciesTerminal (reach id sampleEnv orderedRun) row := by
  obtain ⟨db', h⟩ := claimReady_of_grantedLease (reach id sampleEnv orderedRun) (sampleClaim "w" 40)
    ⟨9, 3, "w", 1, 60000040⟩ (by decide +kernel)
  have hok : Along (step id) EnqueuedFirst (Db.init sampleEnv)
      (orderedRun ++ [.claim (sampleClaim "w" 40)]) := by
    refine ⟨trivial, trivial, trivial, trivial, trivial, trivial, trivial, ?_, ?_, trivial, ?_, trivial⟩
    · exact enqueuedFirst_of_any _ _ (by decide +kernel)
    · exact enqueuedFirst_of_any _ _ (by decide +kernel)
    · exact enqueuedFirst_of_any _ _ (by decide +kernel)
  obtain ⟨row, hrow, hterm⟩ := granted_after_dependencies id sampleEnv _ hok orderedRun []
    (sampleClaim "w" 40) rfl db' _ h
  have hdeps : ((reach id sampleEnv orderedRun).scheduled.get 3).map (·.dependencyTaskIds)
      = some [2] := by decide +kernel
  refine ⟨db', row, h, hrow, ?_, hterm⟩
  rw [hrow] at hdeps
  exact Option.some.inj hdeps

/-- Worker 2 is created, but only its dependent is enqueued. -/
def unorderedRun : List Action :=
  .admitRun 9 :: .createTask (sampleContract 1 none [] ["src"]) ::
    .createTask (sampleContract 2 (some 1) [] ["src/a"]) ::
    sampleTask (sampleContract 3 (some 1) [2] ["src/b"]) 2

/- The claim leases worker 3 although worker 2 has not been scheduled. -/
theorem unscheduled_dependency_ignored :
    ∃ db' lease row, claimReady id (reach id sampleEnv unorderedRun) (sampleClaim "w" 10)
        = .ok (db', some lease) ∧
      (reach id sampleEnv unorderedRun).scheduled.get lease.taskId = some row ∧
      ¬ DependenciesTerminal (reach id sampleEnv unorderedRun) row := by
  obtain ⟨db', h⟩ := claimReady_of_grantedLease (reach id sampleEnv unorderedRun)
    (sampleClaim "w" 10) ⟨9, 3, "w", 1, 60000010⟩ (by decide +kernel)
  obtain ⟨row, hrow, -⟩ := claimReady_dependencies _ db' _ _ h
  refine ⟨db', _, row, h, hrow, ?_⟩
  intro hterm
  have hdeps : ((reach id sampleEnv unorderedRun).scheduled.get 3).map (·.dependencyTaskIds)
      = some [2] := by decide +kernel
  have habsent : ((reach id sampleEnv unorderedRun).scheduled.get 2).isNone = true := by
    decide +kernel
  have hmem : 2 ∈ row.dependencyTaskIds := by
    have hrow3 : (reach id sampleEnv unorderedRun).scheduled.get 3 = some row := hrow
    rw [hrow3] at hdeps
    have hd : row.dependencyTaskIds = [2] := Option.some.inj hdeps
    rw [hd]
    exact List.mem_singleton_self 2
  obtain ⟨r, hr, -⟩ := hterm 2 hmem
  rw [hr] at habsent
  cases habsent

end ParallelForge.Scheduling
