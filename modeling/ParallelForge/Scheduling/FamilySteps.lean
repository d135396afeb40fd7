import ParallelForge.Scheduling.Family

/-!
# What work, endings and wake-ups do to a family

Most operations let a task go on with its work. A child that ends may wake the
primary: a delegation is over with any child, a selection with its last one.
-/

namespace ParallelForge.Scheduling
open Base Run Relation

variable {pathKey : String → String} {R P : UUID} {db db' : Db}

section works

theorem works_putTask (k : UUID) (r r' : ScheduledTask) (hr : db.scheduled.get k = some r)
    (hb : Busy r r') : Works db (db.putTask k r') :=
  ⟨Table.evolves_put Busy.refl _ k r r' hr hb, .refl Keeps.refl _, fun _ _ _ _ => rfl⟩

theorem works_putLogical (k : UUID) (t t' : LogicalTask) (ht : db.logical.get k = some t)
    (hk : Keeps t t') : Works db (db.putLogical k t') :=
  ⟨.refl Busy.refl _, Table.evolves_put Keeps.refl _ k t t' ht hk, fun _ _ _ _ => rfl⟩

/- The attempt of a task that is not parked. -/
theorem works_putAttempt (k : UUID) (a : LatestAttempt)
    (h : ∀ r, db.scheduled.get k = some r → r.state ≠ .blocked) : Works db (db.putAttempt k a) := by
  refine ⟨.refl Busy.refl _, .refl Keeps.refl _, ?_⟩
  intro i r hr hs
  have hne : i ≠ k := by
    rintro rfl
    exact h r hr hs
  exact Table.get_put_ne _ _ hne

theorem live_open (r : ScheduledTask) (h : r.live = true) :
    r.state ≠ .terminal ∧ r.state ≠ .blocked := by
  unfold ScheduledTask.live at h
  cases hs : r.state <;> simp_all

/- A held task stays held or returns to the queue. -/
theorem Busy.held (r r' : ScheduledTask) (hsame : SameTask r r') (h : r.live = true)
    (hs : r'.live = true ∨ r'.state = .queued) : Busy r r' := by
  obtain ⟨ht, hb⟩ := live_open r h
  rcases hs with hl | hq
  · obtain ⟨ht', hb'⟩ := live_open r' hl
    exact Busy.of_open r r' hsame ht hb ht' hb'
  · refine Busy.of_open r r' hsame ht hb ?_ ?_ <;> rw [hq] <;> decide

theorem markExpired_works (lease : TaskLease) (now : ℤ) : Works db (markExpired db lease now) := by
  unfold markExpired
  split
  · exact Works.of_eq rfl rfl rfl
  · next row hrow =>
    split
    · next hc =>
      rw [taskOf_eq_some] at hrow
      have hlive : row.live = true := by simp [ScheduledTask.live, hc.1]
      exact works_putTask _ row _ hrow.1 (Busy.held row _ ⟨rfl, rfl, rfl⟩ hlive (Or.inl rfl))
    · exact Works.of_eq rfl rfl rfl

theorem renew_works (lease renewed : TaskLease) (leaseFor now : ℤ)
    (h : renew db lease leaseFor now = .ok (db', renewed)) : Works db db' := by
  unfold renew at h
  simp only [bind_eq_ok, leasedTask_eq_ok] at h
  obtain ⟨-, -, run, -, -, -, -, -, row, hrow, -, -, h⟩ := h
  cases h
  exact works_putTask _ row _ hrow.get
    (Busy.held row _ ⟨rfl, rfl, rfl⟩ hrow.live (Or.inl hrow.live))

theorem deferQuota_works (lease : TaskLease) (now : ℤ) (h : deferQuota db lease now = .ok db') :
    Works db db' := by
  unfold deferQuota at h
  simp only [bind_eq_ok, leasedTask_eq_ok] at h
  obtain ⟨-, -, row, hrow, -, -, h⟩ := h
  cases h
  exact works_putTask _ row _ hrow.get (Busy.held row _ ⟨rfl, rfl, rfl⟩ hrow.live (Or.inr rfl))

theorem admitAttempt_works (lease : TaskLease) (current : Bool) (now : ℤ)
    (h : admitAttempt pathKey db lease current now = .ok db') : Works db db' := by
  unfold admitAttempt at h
  simp only [bind_eq_ok, leasedTask_eq_ok, orRaise_eq_ok, Option.filter_eq_some_iff] at h
  obtain ⟨row, hrow, run, -, task, ⟨ht, -⟩, -, -, -, -, -, -, h⟩ := h
  cases h
  refine (works_putLogical _ task _ ht (Keeps.moveTo task _)).trans (works_putAttempt _ _ ?_)
  intro r hr
  cases hrow.get.symm.trans hr
  rw [hrow.leased]
  decide

theorem retireAttempt_works (lease : TaskLease) (disposition : Disposition) :
    Works db (retireAttempt db lease disposition) := by
  unfold retireAttempt
  split
  · next row task attempt hr ht _ =>
    rw [taskOf_eq_some] at hr
    split
    · next hc =>
      have hbusy : Busy row { row with state := .reconciling } :=
        Busy.held row _ ⟨rfl, rfl, rfl⟩ hc.1 (Or.inl rfl)
      refine ((works_putTask _ row _ hr.1 hbusy).trans
        (works_putLogical _ task _ ht (Keeps.moveTo task _))).trans (works_putAttempt _ _ ?_)
      intro r hrow hblocked
      cases (Table.get_put_self db.scheduled _ _).symm.trans hrow
      cases hblocked
    · exact Works.of_eq rfl rfl rfl
  · exact Works.of_eq rfl rfl rfl

theorem settleEffect_works (effect : TaskEffectLease) (accepted result : Bool) (now : ℤ)
    (h : settleEffect db effect accepted now = .ok (db', result)) : Works db db' := by
  obtain ⟨e, -, -, -, rfl⟩ := settleEffect_eq_ok db db' effect accepted result now h
  exact Works.of_eq rfl rfl rfl

theorem reconcileEffect_works (effect : TaskEffectLease)
    (h : reconcileEffect db effect = .ok db') : Works db db' := by
  unfold reconcileEffect at h
  rw [bind_eq_ok] at h
  obtain ⟨e, -, h⟩ := h
  split at h <;> cases h <;> exact Works.of_eq rfl rfl rfl

theorem admitEffect_works (lease : TaskLease) (request : EffectRequest) (now : ℤ)
    (granted : TaskEffectLease) (h : admitEffect pathKey db lease request now = .ok (db', granted)) :
    Works db db' := by
  rcases (admitEffect_eq_ok db db' lease request now granted h).2 with rfl | ⟨row, run, -, rfl⟩
  · exact Works.of_eq rfl rfl rfl
  · exact Works.of_eq rfl rfl rfl

theorem admitRun_works (runId : UUID) : Works db (admitRun db runId) := by
  unfold admitRun
  split
  · exact Works.of_eq rfl rfl rfl
  · split <;> exact Works.of_eq rfl rfl rfl

theorem bindOperation_works (effectId : UUID) (b : OperationBinding) :
    Works db (bindOperation db effectId b) := by
  unfold bindOperation
  split <;> exact Works.of_eq rfl rfl rfl

theorem changeSurroundings_works (env : Surroundings) (h : changeSurroundings db env = .ok db') :
    Works db db' := by
  unfold changeSurroundings at h
  rw [bind_eq_ok] at h
  obtain ⟨-, -, h⟩ := h
  cases h
  exact Works.of_eq rfl rfl rfl

end works

section claim

/- A claim that meets no stale contract only looks. -/
theorem claimLoop_unchanged (cx : ClaimContext) (ids : List UUID)
    (chosen : Option (UUID × Option RouteBinding))
    (hfresh : ∀ k ∈ ids, examine pathKey db cx k ≠ .stale)
    (hl : claimLoop pathKey cx ids db = .ok (db', chosen)) : db' = db := by
  induction ids with
  | nil =>
    cases hl
    rfl
  | cons i ids ih =>
    unfold claimLoop at hl
    split at hl
    · exact ih (fun k hk => hfresh k (List.mem_cons_of_mem i hk)) hl
    · next hs => exact absurd hs (hfresh i List.mem_cons_self)
    · cases hl
    · cases hl
      rfl

theorem expireLeases_works (cx : ClaimContext) : Works db (expireLeases cx db) := by
  refine ⟨Table.evolves_mapRows _ _ ?_, .refl Keeps.refl _, fun _ _ _ _ => rfl⟩
  intro k r _
  unfold expireTask
  split
  · next he =>
    simp only [expires, Bool.and_eq_true, beq_iff_eq] at he
    have hlive : r.live = true := by simp [ScheduledTask.live, he.1.1.1]
    exact Busy.held r _ ⟨rfl, rfl, rfl⟩ hlive (Or.inl rfl)
  · exact Busy.refl r

theorem substituteRoute_works (id : UUID) (row : ScheduledTask) (route : Option RouteBinding) :
    Works db (substituteRoute db id row route).1 ∧
      (substituteRoute db id row route).1.scheduled = db.scheduled ∧
      ∃ p, (substituteRoute db id row route).2 = { row with provider := p } := by
  unfold substituteRoute
  split
  · next r logical hl =>
    split
    · next c hc =>
      split
      · exact ⟨Works.of_eq rfl rfl rfl, rfl, row.provider, rfl⟩
      · refine ⟨works_putLogical id logical _ hl ⟨rfl, rfl, ?_⟩, rfl, _, rfl⟩
        intro c' hc'
        cases hc'
        exact ⟨c, hc, rfl, rfl⟩
    · exact ⟨Works.of_eq rfl rfl rfl, rfl, row.provider, rfl⟩
  · exact ⟨Works.of_eq rfl rfl rfl, rfl, row.provider, rfl⟩

theorem grant_works (cx : ClaimContext) (id : UUID) (row : ScheduledTask)
    (route : Option RouteBinding) (hr : db.scheduled.get id = some row) (hq : row.state = .queued) :
    Works db (grant cx db id row route).1 := by
  have hsub := @substituteRoute_works db id row route
  obtain ⟨hw, hs, p, hp⟩ := hsub
  unfold grant
  generalize substituteRoute db id row route = out at *
  obtain ⟨db1, row1⟩ := out
  simp only at hw hs hp
  subst hp
  have hget : db1.scheduled.get id = some row := by rw [hs]; exact hr
  have hbusy : Busy row (leaseRow cx { row with provider := p }) := by
    refine Busy.of_open row _ ⟨rfl, rfl, rfl⟩ ?_ ?_ ?_ ?_
    · rw [hq]; decide
    · rw [hq]; decide
    · exact fun h => by cases h
    · exact fun h => by cases h
  have hlease := hw.trans (works_putTask id row _ hget hbusy)
  simp only
  split
  · exact hlease.trans (Works.of_eq rfl rfl rfl)
  · exact hlease

theorem claim_works (cx : ClaimContext) (result : Option TaskLease)
    (hfresh : ∀ k ∈ candidates (expireLeases cx db) cx,
      examine pathKey (expireLeases cx db) cx k ≠ .stale)
    (hc : claimReady pathKey db cx = .ok (db', result)) : Works db db' := by
  unfold claimReady at hc
  rw [bind_eq_ok] at hc
  obtain ⟨-, -, hc⟩ := hc
  split at hc
  · cases hc
    exact Works.of_eq rfl rfl rfl
  · simp only [bind_eq_ok, Prod.exists] at hc
    obtain ⟨mid, chosen, hloop, hc⟩ := hc
    have hexp : Works db (expireLeases cx db) := expireLeases_works cx
    have hsame := claimLoop_unchanged cx _ chosen hfresh hloop
    split at hc
    · cases hc
      rw [hsame]
      exact hexp
    · next id route =>
      obtain ⟨row, run, hchecks, -⟩ := examine_checks mid cx id route
        ((claimLoop_eq_ok cx _ _ mid _ hloop).2 id route rfl)
      rw [hchecks.get] at hc
      cases hc
      subst hsame
      exact hexp.trans (grant_works cx id row route hchecks.get hchecks.queued)

end claim

section endings

/- A woken primary is queued. -/
theorem Family.wakeTask (h : Family R P db) (p : ScheduledTask) (hp : db.scheduled.get P = some p) :
    Sound R P (wakeTask db P p) := by
  have htasks : Table.Evolves SameTask (fun _ => False) db.scheduled
      (Scheduling.wakeTask db P p).scheduled :=
    Table.evolves_put SameTask.refl _ P p _ hp ⟨rfl, rfl, rfl⟩
  have hlogical : Table.Evolves Keeps (fun _ => False) db.logical
      (Scheduling.wakeTask db P p).logical := by
    refine Table.evolves_modify Keeps.refl _ P _ ?_
    intro t _
    unfold wakeLogical
    split
    · exact Keeps.moveTo t _
    · exact Keeps.refl t
  refine ⟨h.evolves htasks hlogical ?_, ?_⟩
  · intro k r hr hne hs
    have hold : db.scheduled.get k = some r := (Table.get_put_ne _ _ hne).symm.trans hr
    exact (asks_congr k r r hold hr rfl rfl rfl).mp (h.asking k r hold hne hs)
  · intro q hq hs
    cases (Table.get_put_self db.scheduled P _).symm.trans hq
    cases hs

/- Every selected child is found again when the primary is looked at. -/
theorem Family.found (h : Family R P db) (ids : List UUID) (hn : ids.Nodup)
    (hc : ∀ i ∈ ids, i ≠ P ∧ ∃ r, db.scheduled.get i = some r) (p : ScheduledTask)
    (hp : db.scheduled.get P = some p) :
    (childrenOf db p.runId P ids.contains).length = ids.length := by
  have hiff := Table.length_select_iff db.scheduled
    (fun _ r => r.runId == p.runId && r.parentTaskId == some P) ids hn
  refine hiff.mpr ?_
  intro i hi
  obtain ⟨hne, r, hr⟩ := hc i hi
  refine ⟨r, hr, ?_⟩
  rw [h.ofRun i r hr, h.ofRun P p hp, h.child i r hr hne]
  simp

theorem wakes_selected {ids : List UUID} (h : Family R P db) (hsel : Selection P db ids)
    (p : ScheduledTask) (hp : db.scheduled.get P = some p) (hpark : parking db P p = .selected ids)
    (child : UUID) (hw : wakes db P p child false = false) : ∃ i ∈ ids, Unfinished db i := by
  by_contra hnone
  have hall : ((childrenOf db p.runId P ids.contains).all fun c => c.2.state == .terminal) = true := by
    rw [List.all_eq_true]
    rintro ⟨i, r⟩ hi
    rw [childrenOf, Table.mem_select_iff, Bool.and_eq_true, List.contains_iff_mem] at hi
    rw [beq_iff_eq]
    by_contra hopen
    exact hnone ⟨i, hi.2.2, r, hi.1, hopen⟩
  unfold wakes at hw
  rw [hpark] at hw
  simp only [h.found ids hsel.nodup hsel.children p hp, beq_self_eq_true, Bool.true_and,
    Bool.false_eq_true, ↓reduceIte, hall] at hw
  cases hw

/- A selected child that asks wakes the primary. -/
theorem wakes_asked (h : Family R P db) (ids : List UUID) (hn : ids.Nodup)
    (hc : ∀ i ∈ ids, i ≠ P ∧ ∃ r, db.scheduled.get i = some r) (p : ScheduledTask)
    (hp : db.scheduled.get P = some p) (hpark : parking db P p = .selected ids) (child : UUID)
    (hw : wakes db P p child true = false) : child ∉ ids := by
  intro hmem
  unfold wakes at hw
  rw [hpark] at hw
  simp only [h.found ids hn hc p hp, beq_self_eq_true, Bool.true_and, ↓reduceIte] at hw
  rw [List.contains_iff_mem.mpr hmem] at hw
  cases hw

theorem wakes_any (p : ScheduledTask) (hpark : parking db P p = .anyChild) (child : UUID) (ask : Bool) :
    wakes db P p child ask = true := by
  unfold wakes
  rw [hpark]

/- The look at the primary that follows an ending. `mid` are the tables after it,
in which nobody is newly bound. -/
theorem Sound.look {mid : Db} (h : Sound R P db) (hfam : Family R P mid) (p : ScheduledTask)
    (hp : db.scheduled.get P = some p) (hp' : mid.scheduled.get P = some p)
    (hatt : mid.attempts.get P = db.attempts.get P)
    (hrow : ∀ k r, db.scheduled.get k = some r → ∃ r', mid.scheduled.get k = some r')
    (hb : ∀ x, ScopeBound mid x → ScopeBound db x)
    (k : UUID) (child : ScheduledTask) (hrun : child.runId = R)
    (hparent : child.parentTaskId = some P) : Sound R P (wakeReadyParents mid k child false) := by
  have htask : mid.taskOf child.runId P = some p := by
    rw [taskOf_eq_some]
    exact ⟨hp', (hfam.ofRun P p hp').trans hrun.symm⟩
  unfold wakeReadyParents
  rw [hparent]
  simp only [htask]
  split
  · exact hfam.wakeTask p hp'
  · next hasleep =>
    refine ⟨hfam, ?_⟩
    intro q hq hs
    cases hp'.symm.trans hq
    have hw : wakes mid P p k false = false := by simpa [hs] using hasleep
    have hsame : parking mid P p = parking db P p := parking_congr p p hatt rfl
    have hpark := h.parked p hp hs
    rw [← hsame] at hpark
    cases hkind : parking mid P p with
    | anyChild =>
      rw [wakes_any p hkind k false] at hw
      cases hw
    | selected ids =>
      rw [hkind] at hpark
      have hsel : Selection P mid ids := hpark.1.evolves hrow fun i _ => hb i
      exact ⟨hsel, wakes_selected hfam hsel p hp' hkind k hw⟩
    | allChildren =>
      rw [hkind] at hpark
      exact hpark
    | unwakeable =>
      rw [hkind] at hpark
      exact hpark

/-- A child ends. Whoever it kept waiting is freed, and a primary that it kept
parked is woken. -/
theorem Sound.ends (h : Sound R P db) (k : UUID) (r row : ScheduledTask) (hne : k ≠ P)
    (hr : db.scheduled.get k = some r) (hrow : SameTask r row) :
    Sound R P (releaseTask db k row true) := by
  have hfam := h.family
  have hsame : SameTask r (releasedTask row true) := ⟨hrow.runId, hrow.parent, hrow.dependencies⟩
  have hev : Table.Evolves SameTask (fun _ => False) db.scheduled
      (db.putTask k (releasedTask row true)).scheduled :=
    Table.evolves_put SameTask.refl _ k r _ hr hsame
  have hgone : ∀ x q, (db.putTask k (releasedTask row true)).scheduled.get x = some q →
      q.state ≠ .terminal → db.scheduled.get x = some q := by
    intro x q hq hs
    by_cases hx : x = k
    · subst hx
      cases (Table.get_put_self db.scheduled _ _).symm.trans hq
      exact absurd rfl hs
    · exact (Table.get_put_ne db.scheduled _ hx).symm.trans hq
  have hasks : ∀ x, Asks (db.putTask k (releasedTask row true)) x → Asks db x := by
    intro x hx
    obtain ⟨q, hq, hs⟩ := hx.unfinished
    exact (asks_congr x q q (hgone x q hq hs) hq rfl rfl rfl).mpr hx
  have hbound : ∀ x, ScopeBound (db.putTask k (releasedTask row true)) x → ScopeBound db x := by
    refine scopeBound_mono ?_ hasks
    intro x q hq hs
    exact ⟨q, hgone x q hq hs, hs, rfl⟩
  have hfam1 : Family R P (db.putTask k (releasedTask row true)) := by
    refine hfam.evolves hev (.refl Keeps.refl _) ?_
    intro x q hq hxP hs
    have hold := hgone x q hq (by rw [hs]; decide)
    exact (asks_congr x q q hold hq rfl rfl rfl).mp (hfam.asking x q hold hxP hs)
  obtain ⟨p, hp⟩ := hfam.headed k r hr
  exact h.look hfam1 p hp ((Table.get_put_ne db.scheduled _ hne.symm).trans hp) rfl hev.kept hbound k _
    (hsame.runId.trans (hfam.ofRun k r hr)) (hsame.parent.trans (hfam.child k r hr hne))

/-- A task leaves its lease: it returns to the queue, or it was a child and is over. -/
theorem Sound.releases (h : Sound R P db) (k : UUID) (r row : ScheduledTask) (terminal : Bool)
    (hr : db.scheduled.get k = some r) (hlive : r.live = true) (hrow : SameTask r row)
    (halive : ∀ p, (releaseTask db k row terminal).scheduled.get P = some p → p.state ≠ .terminal) :
    Sound R P (releaseTask db k row terminal) := by
  cases terminal with
  | true =>
    refine h.ends k r row ?_ hr hrow
    rintro rfl
    -- the primary has nobody above it to wake
    have hnone : (releasedTask row true).parentTaskId = none :=
      hrow.parent.trans (h.family.primary r hr).1
    have hput : releaseTask db k row true = db.putTask k (releasedTask row true) := by
      show wakeReadyParents (db.putTask k (releasedTask row true)) k (releasedTask row true) false = _
      unfold wakeReadyParents
      rw [hnone]
    rw [hput] at halive
    exact halive _ (Table.get_put_self _ _ _) rfl
  | false =>
    have hsame : SameTask r (releasedTask row false) := ⟨hrow.runId, hrow.parent, hrow.dependencies⟩
    exact h.works (works_putTask k r _ hr (Busy.held r _ hsame hlive (Or.inr rfl)))

theorem Sound.finish (h : Sound R P db) (lease : TaskLease) (successful allowRepair : Bool) (now : ℤ)
    (hf : finish db lease successful allowRepair now = .ok db')
    (halive : ∀ p, db'.scheduled.get P = some p → p.state ≠ .terminal) : Sound R P db' := by
  unfold Scheduling.finish at hf
  simp only [bind_eq_ok, leasedTask_eq_ok] at hf
  obtain ⟨-, -, row, hrow, hf⟩ := hf
  split at hf <;> cases hf
  · exact h.releases _ row row true hrow.get hrow.live (SameTask.refl row) halive
  · exact h.releases _ row _ false hrow.get hrow.live ⟨rfl, rfl, rfl⟩ halive

theorem Sound.reconcileExpired (h : Sound R P db) (runId k : UUID) (retry : Bool)
    (hr : reconcileExpired db runId k retry = .ok db')
    (halive : ∀ p, db'.scheduled.get P = some p → p.state ≠ .terminal) : Sound R P db' := by
  unfold Scheduling.reconcileExpired at hr
  simp only [bind_eq_ok, orRaise_eq_ok, taskOf_eq_some, require_eq_ok] at hr
  obtain ⟨-, -, row, ⟨hget, -⟩, -, hstate, -, -, hr⟩ := hr
  cases hr
  have hlive : row.live = true := by simp [ScheduledTask.live, hstate]
  exact h.releases k row row _ hget hlive (SameTask.refl row) halive

end endings

end ParallelForge.Scheduling
