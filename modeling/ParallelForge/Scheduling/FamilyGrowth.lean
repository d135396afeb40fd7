import ParallelForge.Scheduling.FamilyDecisions

/-!
# How a family grows

The primary is created and enqueued first. Children join it by a delegation,
each after everybody it depends on.
-/

namespace ParallelForge.Scheduling
open Base Run Relation

variable {pathKey : String → String} {R P : UUID} {db db' mid : Db} {c : LogicalTaskContract}

section joins

/-- A new task with both of its rows. -/
structure Joins (db db' : Db) (c : LogicalTaskContract) : Prop where
  fresh : db.logical.get c.taskId = none
  row : ∃ r, db'.scheduled.get c.taskId = some r ∧ r.runId = c.runId ∧
    r.parentTaskId = c.parentTaskId ∧ r.dependencyTaskIds = c.dependencyTaskIds ∧ r.state = .queued
  others : ∀ k, k ≠ c.taskId → db'.scheduled.get k = db.scheduled.get k
  task : db'.logical.get c.taskId = some (newLogicalTask c)
  otherTasks : ∀ k, k ≠ c.taskId → db'.logical.get k = db.logical.get k
  attempts : db'.attempts = db.attempts
  dependencies : ∀ d ∈ c.dependencyTaskIds, ∃ t, db.logical.get d = some t

theorem createTask_eq_ok (h : createTask pathKey db c = .ok db') :
    db.logical.get c.taskId = none ∧ db' = db.putLogical c.taskId (newLogicalTask c) ∧
      (c.parentTaskId = none → ∀ k t, db.logical.get k = some t → t.runId ≠ c.runId) ∧
      ∀ d ∈ c.dependencyTaskIds, ∃ t, db.logical.get d = some t ∧ t.runId = c.runId := by
  unfold createTask at h
  simp only [bind_eq_ok, require_eq_ok] at h
  obtain ⟨-, -, -, -, -, hv, h⟩ := h
  cases h
  simp only [validateNewTask, Bool.and_eq_true, Option.isNone_iff_eq_none, List.all_eq_true] at hv
  obtain ⟨⟨hfresh, hparent⟩, hdeps⟩ := hv
  refine ⟨hfresh, rfl, ?_, ?_⟩
  · intro hnone k t ht hrun
    rw [hnone] at hparent
    simp only [Bool.and_eq_true, Bool.not_eq_true', Table.any_eq_false] at hparent
    have hother := hparent.2 k t ht
    simp [hrun] at hother
  · intro d hd
    obtain ⟨contract, hc⟩ := Option.isSome_iff_exists.mp (hdeps d hd)
    unfold contractOf at hc
    rw [Option.bind_eq_some_iff] at hc
    obtain ⟨t, ht, -⟩ := hc
    rw [Option.filter_eq_some_iff, beq_iff_eq] at ht
    exact ⟨t, ht⟩

/-- A task is enqueued with the lineage of its contract, or it has a row already. -/
theorem enqueue_eq_ok (task : ScheduleTask) (now : ℤ) (h : enqueue pathKey db task now = .ok db') :
    ∃ t contract, db.logical.get task.taskId = some t ∧ t.runId = task.runId ∧
      t.contract = some contract ∧ task.parentTaskId = contract.parentTaskId ∧
      task.dependencyTaskIds = contract.dependencyTaskIds ∧
      ((db' = db ∧ ∃ r, db.scheduled.get task.taskId = some r) ∨
        (db.scheduled.get task.taskId = none ∧
          db' = db.putTask task.taskId (enqueuedTask task contract.route.effective.provider now))) := by
  unfold enqueue at h
  simp only [bind_eq_ok, orRaise_eq_ok, Option.filter_eq_some_iff, beq_iff_eq] at h
  obtain ⟨-, -, t, ⟨ht, hrun⟩, contract, ⟨hc, hauth⟩, -, -, h⟩ := h
  simp only [authorityMatches, Bool.and_eq_true, beq_iff_eq] at hauth
  obtain ⟨⟨⟨⟨hparent, hdeps⟩, -⟩, -⟩, -⟩ := hauth
  refine ⟨t, contract, ht, hrun, hc, hparent, hdeps, ?_⟩
  split at h
  · next r hr =>
    simp only [bind_eq_ok] at h
    obtain ⟨-, -, -, -, h⟩ := h
    cases h
    exact Or.inl ⟨rfl, r, hr⟩
  · next hnone =>
    cases h
    exact Or.inr ⟨hnone, rfl⟩

/- A task that no member of the family is gets both of its rows. -/
theorem Family.new_joins (h : Family R P db) (worktreeId : String) (now : ℤ)
    (hc : createTask pathKey db c = .ok mid)
    (he : enqueue pathKey mid (scheduleOf pathKey c worktreeId) now = .ok db') : Joins db db' c := by
  obtain ⟨hfresh, rfl, -, hdeps⟩ := createTask_eq_ok hc
  obtain ⟨t, contract, -, -, -, -, -, hrow⟩ := enqueue_eq_ok _ now he
  rcases hrow with ⟨-, r, hr⟩ | ⟨-, rfl⟩
  · exact absurd hr (h.unscheduled c.taskId hfresh r)
  · refine ⟨hfresh, ⟨_, Table.get_put_self _ _ _, rfl, rfl, rfl, rfl⟩,
      fun k hk => Table.get_put_ne _ _ hk, Table.get_put_self _ _ _,
      fun k hk => Table.get_put_ne _ _ hk, rfl, ?_⟩
    intro d hd
    obtain ⟨t, ht, -⟩ := hdeps d hd
    exact ⟨t, ht⟩

/-- What a delegated contract says of its place. -/
structure ChildContract (R P : UUID) (c : LogicalTaskContract) : Prop where
  ofRun : c.runId = R
  parent : c.parentTaskId = some P
  dependencies : P ∉ c.dependencyTaskIds

theorem Family.joins (h : Family R P db) (j : Joins db db' c) (hc : ChildContract R P c)
    (p : ScheduledTask) (hp : db.scheduled.get P = some p) : Family R P db' := by
  have hnew : ∀ k r, db.scheduled.get k = some r → k ≠ c.taskId := by
    rintro k r hr rfl
    exact h.unscheduled c.taskId j.fresh r hr
  have hkeep : ∀ k r, db.scheduled.get k = some r → db'.scheduled.get k = some r :=
    fun k r hr => (j.others k (hnew k r hr)).trans hr
  have hP : c.taskId ≠ P := fun he => hnew P p hp he.symm
  obtain ⟨row, hrow, hrun, hparent, hdeps, hqueued⟩ := j.row
  -- the newcomer, or a row that was there
  have hold : ∀ k r, db'.scheduled.get k = some r →
      (k = c.taskId ∧ r = row) ∨ (k ≠ c.taskId ∧ db.scheduled.get k = some r) := by
    intro k r hr
    by_cases hk : k = c.taskId
    · subst hk
      cases hrow.symm.trans hr
      exact Or.inl ⟨rfl, rfl⟩
    · exact Or.inr ⟨hk, (j.others k hk).symm.trans hr⟩
  refine ⟨?_, ?_, ?_, ?_, ?_, ?_, ?_, ?_⟩
  · intro k r hr
    rcases hold k r hr with ⟨-, rfl⟩ | ⟨-, hr0⟩
    · exact hrun.trans hc.ofRun
    · exact h.ofRun k r hr0
  · intro r hr
    rcases hold P r hr with ⟨he, -⟩ | ⟨-, hr0⟩
    · exact absurd he.symm hP
    · exact h.primary r hr0
  · intro k r hr hk
    rcases hold k r hr with ⟨-, rfl⟩ | ⟨-, hr0⟩
    · exact hparent.trans hc.parent
    · exact h.child k r hr0 hk
  · exact fun _ _ _ => ⟨p, hkeep P p hp⟩
  · intro k r hr
    rcases hold k r hr with ⟨rfl, -⟩ | ⟨hk, hr0⟩
    · exact ⟨_, j.task⟩
    · obtain ⟨t, ht⟩ := h.named k r hr0
      exact ⟨t, (j.otherTasks k hk).trans ht⟩
  · intro k t ht
    by_cases hk : k = c.taskId
    · subst hk
      cases j.task.symm.trans ht
      exact ⟨hc.ofRun, fun he => absurd he hP, fun _ => ⟨hc.parent, row, hrow⟩⟩
    · refine (h.roles k t ((j.otherTasks k hk).symm.trans ht)).keeps (Keeps.refl t) ?_
      exact fun r hr => ⟨r, hkeep k r hr⟩
  · obtain ⟨rank, hrank⟩ := h.ranked
    obtain ⟨n, hn⟩ := exists_rank_above rank c.dependencyTaskIds
    -- the newcomer is ranked above its dependencies, and nobody depends on it yet
    refine ⟨Function.update rank c.taskId n, ?_⟩
    intro k r hr d hd
    have hplace : d ≠ P ∧ (∃ s, db.scheduled.get d = some s) ∧
        rank d < Function.update rank c.taskId n k := by
      rcases hold k r hr with ⟨rfl, rfl⟩ | ⟨hk, hr0⟩
      · rw [hdeps] at hd
        have hdP : d ≠ P := fun he => hc.dependencies (he ▸ hd)
        obtain ⟨t, ht⟩ := j.dependencies d hd
        refine ⟨hdP, ((h.roles d t ht).child hdP).2, ?_⟩
        rw [Function.update_self]
        exact hn d hd
      · rw [Function.update_of_ne hk]
        exact hrank k r hr0 d hd
    obtain ⟨hdP, ⟨s, hs⟩, hlt⟩ := hplace
    refine ⟨hdP, ⟨s, hkeep d s hs⟩, ?_⟩
    rw [Function.update_of_ne (hnew d s hs)]
    exact hlt
  · intro k r hr hkP hb
    rcases hold k r hr with ⟨-, rfl⟩ | ⟨-, hr0⟩
    · rw [hqueued] at hb
      cases hb
    · exact (asks_congr k r r hr0 hr rfl rfl (by rw [j.attempts])).mp (h.asking k r hr0 hkP hb)

end joins

section delegation

/-- The tables after some children joined. -/
structure Grows (db db' : Db) (children : List LogicalTaskContract) : Prop where
  rows : ∀ k r, db.scheduled.get k = some r → db'.scheduled.get k = some r
  tasks : ∀ k t, db.logical.get k = some t → db'.logical.get k = some t
  attempts : db'.attempts = db.attempts
  origin : ∀ k r, db'.scheduled.get k = some r →
    db.scheduled.get k = some r ∨ ∃ c ∈ children, k = c.taskId
  joined : ∀ c ∈ children, ∃ r, db'.scheduled.get c.taskId = some r ∧
    r.dependencyTaskIds = c.dependencyTaskIds ∧ r.state = .queued

theorem Grows.refl (db : Db) : Grows db db [] :=
  ⟨fun _ _ h => h, fun _ _ h => h, rfl, fun _ _ h => Or.inl h, fun _ h => by cases h⟩

theorem Grows.trans {children more all : List LogicalTaskContract} (h : Grows db mid children)
    (k : Grows mid db' more) (hall : ∀ c, c ∈ all ↔ c ∈ children ∨ c ∈ more) : Grows db db' all := by
  refine ⟨fun i r hr => k.rows i r (h.rows i r hr), fun i t ht => k.tasks i t (h.tasks i t ht),
    k.attempts.trans h.attempts, ?_, ?_⟩
  · intro i r hr
    rcases k.origin i r hr with hr | ⟨c, hc, rfl⟩
    · rcases h.origin i r hr with hr | ⟨c, hc, rfl⟩
      · exact Or.inl hr
      · exact Or.inr ⟨c, (hall c).mpr (Or.inl hc), rfl⟩
    · exact Or.inr ⟨c, (hall c).mpr (Or.inr hc), rfl⟩
  · intro c hc
    rcases (hall c).mp hc with hc | hc
    · obtain ⟨r, hr, hrest⟩ := h.joined c hc
      exact ⟨r, k.rows _ r hr, hrest⟩
    · exact k.joined c hc

theorem Family.grows (h : Family R P db) (j : Joins db db' c) : Grows db db' [c] := by
  refine ⟨?_, ?_, j.attempts, ?_, ?_⟩
  · intro k r hr
    have hne : k ≠ c.taskId := by
      rintro rfl
      exact h.unscheduled c.taskId j.fresh r hr
    exact (j.others k hne).trans hr
  · intro k t ht
    have hne : k ≠ c.taskId := by
      rintro rfl
      rw [j.fresh] at ht
      cases ht
    exact (j.otherTasks k hne).trans ht
  · intro k r hr
    by_cases hk : k = c.taskId
    · exact Or.inr ⟨c, List.mem_singleton_self c, hk⟩
    · exact Or.inl ((j.others k hk).symm.trans hr)
  · intro x hx
    cases List.mem_singleton.mp hx
    obtain ⟨r, hr, -, -, hdeps, hq⟩ := j.row
    exact ⟨r, hr, hdeps, hq⟩

theorem Family.delegateBatch (worktreeId : String) (now : ℤ) (batch : List LogicalTaskContract)
    (h : Family R P db) (p : ScheduledTask) (hp : db.scheduled.get P = some p)
    (hc : ∀ c ∈ batch, ChildContract R P c)
    (hb : delegateBatch pathKey worktreeId now batch db = .ok db') :
    Family R P db' ∧ Grows db db' batch := by
  induction batch generalizing db with
  | nil =>
    cases hb
    exact ⟨h, Grows.refl _⟩
  | cons c rest ih =>
    unfold Scheduling.delegateBatch at hb
    simp only [bind_eq_ok] at hb
    obtain ⟨db1, h1, db2, h2, hb⟩ := hb
    have hjoin := h.new_joins worktreeId now h1 h2
    have hgrow := h.grows hjoin
    have hfam := h.joins hjoin (hc c List.mem_cons_self) p hp
    obtain ⟨hfam', hgrow'⟩ := ih hfam (hgrow.rows P p hp)
      (fun x hx => hc x (List.mem_cons_of_mem c hx)) hb
    refine ⟨hfam', hgrow.trans hgrow' ?_⟩
    intro x
    rw [List.mem_cons, List.mem_singleton]

theorem Family.delegateRounds (worktreeId : String) (now : ℤ) (n : ℕ) (created : List UUID)
    (pending : List LogicalTaskContract) (h : Family R P db) (p : ScheduledTask)
    (hp : db.scheduled.get P = some p) (hc : ∀ c ∈ pending, ChildContract R P c)
    (hd : delegateRounds pathKey worktreeId now n created pending db = .ok db') :
    Family R P db' ∧ Grows db db' pending := by
  induction n generalizing created pending db with
  | zero =>
    unfold Scheduling.delegateRounds at hd
    split at hd
    · next hnil =>
      cases hd
      subst hnil
      exact ⟨h, Grows.refl _⟩
    · cases hd
  | succ n ih =>
    unfold Scheduling.delegateRounds at hd
    split at hd
    · next hnil =>
      cases hd
      subst hnil
      exact ⟨h, Grows.refl _⟩
    · simp only [bind_eq_ok] at hd
      obtain ⟨-, -, db1, h1, hd⟩ := hd
      obtain ⟨hfam, hgrow⟩ := h.delegateBatch worktreeId now _ p hp
        (fun c hmem => hc c (List.mem_filter.mp hmem).1) h1
      obtain ⟨hfam', hgrow'⟩ := ih _ _ hfam (hgrow.rows P p hp)
        (fun c hmem => hc c (List.mem_filter.mp hmem).1) hd
      refine ⟨hfam', hgrow.trans hgrow' ?_⟩
      -- a pending child is ready now or waits for a later round
      intro c
      simp only [List.mem_filter, Bool.not_eq_true']
      cases c.dependencyTaskIds.all created.contains <;> simp

/- Those who were there are bound only if they were. -/
theorem Grows.bound {children : List LogicalTaskContract} (hg : Grows db mid children)
    (h : Family R P db) (x : UUID) (hx : ∃ r, db.scheduled.get x = some r)
    (hb : ScopeBound mid x) : ScopeBound db x := by
  obtain ⟨rank, hrank⟩ := h.ranked
  refine Stuck.shrinks (fun k => ∃ r, db.scheduled.get k = some r) ?_ ?_ x hx hb
  · rintro k ⟨r, hr⟩ hk
    exact (asks_congr k r r hr (hg.rows k r hr) rfl rfl (by rw [hg.attempts])).mpr hk
  · rintro k y ⟨r, hr⟩ ⟨r', hr', hopen, hd, s, hs, ho⟩
    cases (hg.rows k r hr).symm.trans hr'
    obtain ⟨-, ⟨q, hq⟩, -⟩ := hrank k r hr y hd
    cases hs.symm.trans (hg.rows y q hq)
    exact ⟨⟨s, hq⟩, Or.inl ⟨r, hr, hopen, hd, s, hq, ho⟩⟩

/-- Somebody unfinished, old or new, is not bound to a request. -/
def SomebodyFree (P : UUID) (db : Db) (children : List LogicalTaskContract) : Prop :=
  (∃ k, k ≠ P ∧ Unfinished db k ∧ ¬ ScopeBound db k) ∨
    ∃ c ∈ children, ∀ d ∈ c.dependencyTaskIds,
      d ∉ children.map (·.taskId) ∧ ¬ ScopeBound db d

theorem Grows.parked {children : List LogicalTaskContract} (hg : Grows db mid children)
    (h : Family R P db) (hP : ∀ c ∈ children, c.taskId ≠ P) (hfree : SomebodyFree P db children) :
    ParkedOn P mid .anyChild := by
  rcases hfree with ⟨k, hne, ⟨r, hr, hopen⟩, hfree⟩ | ⟨c, hc, hdeps⟩
  · exact ⟨k, hne, ⟨r, hg.rows k r hr, hopen⟩, fun hb => hfree (hg.bound h k ⟨r, hr⟩ hb)⟩
  · obtain ⟨r, hr, hd, hq⟩ := hg.joined c hc
    refine ⟨c.taskId, hP c hc, ⟨r, hr, by rw [hq]; decide⟩, ?_⟩
    intro hb
    rcases hb.cases with hask | ⟨y, ⟨r', hr', -, hy, s, hs, -⟩, hyb⟩
    · exact not_asks c.taskId r hr (by rw [hq]; decide) hask
    · cases hr.symm.trans hr'
      rw [hd] at hy
      obtain ⟨hout, hfree⟩ := hdeps y hy
      rcases hg.origin y s hs with hold | ⟨c', hc', rfl⟩
      · exact hfree (hg.bound h y ⟨s, hold⟩ hyb)
      · exact hout (List.mem_map_of_mem hc')

theorem Sound.delegate (h : Sound R P db) (cx : DecisionContext) (runId id : UUID)
    (children : List LogicalTaskContract)
    (hw : applyDelegate pathKey db cx runId id children false = .ok db')
    (halive : ∀ p, db'.scheduled.get P = some p → p.state ≠ .terminal)
    (hok : cx.pendingFeedback = false → SomebodyFree P db children) : Sound R P db' := by
  unfold applyDelegate at hw
  simp only [bind_eq_ok] at hw
  obtain ⟨-, -, src, hsrc, hw⟩ := hw
  have hf := decisionSource_eq_ok db cx runId id false false src hsrc
  have hrun := h.family.source_run hf
  have hid := h.family.source_primary hf
  subst hrun hid
  split at hw
  · exact h.rejectDecision hf cx hw halive
  · next hcond =>
    simp only [bind_eq_ok] at hw
    obtain ⟨-, -, mid, hmid, hw⟩ := hw
    cases hw
    have hchildren : ∀ c ∈ children, ChildContract runId id c := by
      intro c hc
      have hall : children.all (childAuthority src.contract) = true := by
        by_contra hno
        exact hcond (Or.inr (Or.inr (by simpa using hno)))
      have hauth := List.all_eq_true.mp hall c hc
      simp only [childAuthority, Bool.and_eq_true, beq_iff_eq, Bool.not_eq_true', hf.identity.1,
        hf.identity.2] at hauth
      obtain ⟨⟨⟨-, hrun⟩, hparent⟩, hdeps⟩ := hauth.1
      exact ⟨hrun, hparent, by simpa using hdeps⟩
    obtain ⟨hfam, hgrow⟩ := h.family.delegateRounds _ _ _ _ children src.scheduled hf.scheduled
      hchildren hmid
    have hnotP : ∀ c ∈ children, c.taskId ≠ id := by
      intro c hc hP
      obtain ⟨r, hr, -, hq⟩ := hgrow.joined c hc
      rw [hP, hgrow.rows id _ hf.scheduled] at hr
      cases hr
      rw [hf.reconciling] at hq
      cases hq
    refine hfam.decides src cx (hgrow.rows id _ hf.scheduled) hf.reconciling
      (hgrow.tasks id _ hf.task) false _ _ (by decide) ?_
    intro hidle
    rw [parking_delegated src cx false (parkedTask src.scheduled false) runId hf.ofRun]
    exact hgrow.parked h.family hnotP (hok hidle)

end delegation

section head

/-- The first task of the run. -/
theorem Sound.createPrimary (h : Sound R P db) (hid : c.taskId = P) (hrun : c.runId = R)
    (hroot : c.parentTaskId = none) (hc : createTask pathKey db c = .ok db') : Sound R P db' := by
  obtain ⟨hfresh, rfl, hfirst, hdeps⟩ := createTask_eq_ok hc
  have hnobody : ∀ k t, db.logical.get k ≠ some t := by
    intro k t ht
    exact hfirst hroot k t ht ((h.family.roles k t ht).ofRun.trans hrun.symm)
  have hnone : ∀ k r, db.scheduled.get k ≠ some r := by
    intro k r hr
    obtain ⟨t, ht⟩ := h.family.named k r hr
    exact hnobody k t ht
  have hfree : c.dependencyTaskIds = [] := by
    rw [List.eq_nil_iff_forall_not_mem]
    intro d hd
    obtain ⟨t, ht, -⟩ := hdeps d hd
    exact hnobody d t ht
  refine Sound.of_unscheduled hnone ?_
  intro k t ht
  have hk : k = c.taskId := by
    by_contra hne
    exact hnobody k t ((Table.get_put_ne db.logical _ hne).symm.trans ht)
  subst hk
  cases (Table.get_put_self db.logical _ _).symm.trans ht
  refine ⟨hrun, fun _ => ⟨hroot, ?_⟩, fun hne => absurd hid hne⟩
  intro c' hc'
  cases hc'
  exact ⟨hroot, hfree⟩

theorem Sound.enqueuePrimary (h : Sound R P db) (task : ScheduleTask) (now : ℤ) (hid : task.taskId = P)
    (he : enqueue pathKey db task now = .ok db') : Sound R P db' := by
  obtain ⟨t, contract, ht, hrun, hc, hparent, hdeps, hrow⟩ := enqueue_eq_ok task now he
  subst hid
  rcases hrow with ⟨rfl, -⟩ | ⟨hnone, rfl⟩
  · exact h
  · have hrole := h.family.roles _ t ht
    obtain ⟨hcp, hcd⟩ := (hrole.root rfl).2 contract hc
    have halone : ∀ k r, db.scheduled.get k ≠ some r := by
      intro k r hr
      obtain ⟨p, hp⟩ := h.family.headed k r hr
      rw [hnone] at hp
      cases hp
    have hgone : ∀ k r, (db.putTask task.taskId
        (enqueuedTask task contract.route.effective.provider now)).scheduled.get k = some r →
        k = task.taskId ∧ r = enqueuedTask task contract.route.effective.provider now := by
      intro k r hr
      by_cases hk : k = task.taskId
      · subst hk
        exact ⟨rfl, (Option.some.inj ((Table.get_put_self db.scheduled _ _).symm.trans hr)).symm⟩
      · exact absurd ((Table.get_put_ne db.scheduled _ hk).symm.trans hr) (halone k r)
    refine ⟨⟨?_, ?_, ?_, ?_, ?_, ?_, ⟨fun _ => 0, ?_⟩, ?_⟩, ?_⟩
    · intro k r hr
      obtain ⟨-, rfl⟩ := hgone k r hr
      exact hrun.symm.trans hrole.ofRun
    · intro r hr
      obtain ⟨-, rfl⟩ := hgone _ r hr
      exact ⟨hparent.trans hcp, hdeps.trans hcd⟩
    · exact fun k r hr hne => absurd (hgone k r hr).1 hne
    · exact fun _ _ _ => ⟨_, Table.get_put_self _ _ _⟩
    · intro k r hr
      rw [(hgone k r hr).1]
      exact ⟨t, ht⟩
    · intro k t' ht'
      refine (h.family.roles k t' ht').keeps (Keeps.refl t') ?_
      exact fun r hr => absurd hr (halone k r)
    · intro k r hr d hd
      obtain ⟨-, rfl⟩ := hgone k r hr
      rw [show (enqueuedTask task contract.route.effective.provider now).dependencyTaskIds
        = [] from hdeps.trans hcd] at hd
      cases hd
    · exact fun k r hr hne => absurd (hgone k r hr).1 hne
    · intro p hp hb
      obtain ⟨-, rfl⟩ := hgone _ p hp
      cases hb

end head

end ParallelForge.Scheduling
