import ParallelForge.Scheduling.FamilySteps

/-!
# What decisions do to a family

The primary parks itself by a wait, a delegation, a reassignment or a forwarded
feedback; a child parks itself by a scope request. Each lemma says on what
condition the primary is then parked on somebody who can end.
-/

namespace ParallelForge.Scheduling
open Base Run Relation

variable {pathKey : String → String} {R P : UUID} {db db' mid : Db}

section source
variable {runId id : UUID} {worker reopening : Bool} {src : DecisionSource}

theorem Family.source_run (h : Family R P db) (hf : SourceFacts db runId id worker reopening src) :
    runId = R := hf.ofRun.symm.trans (h.ofRun id src.scheduled hf.scheduled)

theorem Family.source_primary (h : Family R P db) (hf : SourceFacts db runId id false reopening src) :
    id = P := by
  by_contra hne
  have hparent := ((h.roles id src.task hf.task).child hne).1
  have hrole := hf.role
  simp only [decidesAs, Bool.false_eq_true, ↓reduceIte, Bool.and_eq_true,
    Option.isNone_iff_eq_none] at hrole
  rw [hf.parent, hparent] at hrole
  cases hrole.2

theorem Family.source_child (h : Family R P db) (hf : SourceFacts db runId id true reopening src) :
    id ≠ P := by
  intro hP
  have hparent := ((h.roles id src.task hf.task).root hP).1
  have hrole := hf.role
  simp only [decidesAs, ↓reduceIte, Bool.and_eq_true] at hrole
  rw [hf.parent, hparent] at hrole
  cases hrole.2

/- Who has a parent is not the primary. -/
theorem Family.primary_ne (h : Family R P db) (k : UUID) (t : LogicalTask)
    (ht : db.logical.get k = some t) (hparent : t.parentTaskId = some P) : P ≠ k := by
  rintro rfl
  rw [((h.roles P t ht).root rfl).1] at hparent
  cases hparent

theorem SourceFacts.live (hf : SourceFacts db runId id worker reopening src) :
    src.scheduled.live = true := by
  simp [ScheduledTask.live, hf.reconciling]

/-- A refused decision is a repair of its task or its end. -/
theorem Sound.rejectDecision (h : Sound R P db) (hf : SourceFacts db runId id worker reopening src)
    (cx : DecisionContext) (hr : rejectDecision db cx runId id src = .ok db')
    (halive : ∀ p, db'.scheduled.get P = some p → p.state ≠ .terminal) : Sound R P db' := by
  unfold Scheduling.rejectDecision at hr
  refine (h.works ?_).reconcileExpired runId id _ hr halive
  refine ((works_putTask id src.scheduled _ hf.scheduled ?_).trans
    (works_putLogical id src.task _ hf.task (Keeps.moveTo _ _))).trans (works_putAttempt id _ ?_)
  · exact Busy.held _ _ ⟨rfl, rfl, rfl⟩ hf.live (Or.inl hf.live)
  · intro r hr'
    cases (Table.get_put_self db.scheduled id _).symm.trans hr'
    exact (live_open _ hf.live).2

end source

section decided
variable {src : DecisionSource} {cx : DecisionContext} {id : UUID} {queued : Bool}
  {disposition : Disposition} {decision : Decision}

theorem decided_get : (finishDecision mid cx id src queued disposition decision).scheduled.get id
    = some (parkedTask src.scheduled (queued || cx.pendingFeedback)) := Table.get_put_self _ _ _

theorem decided_get_ne (x : UUID) (hx : x ≠ id) :
    (finishDecision mid cx id src queued disposition decision).scheduled.get x
      = mid.scheduled.get x := Table.get_put_ne _ _ hx

theorem decided_attempt : (finishDecision mid cx id src queued disposition decision).attempts.get id
    = some { src.attempt with terminal := true, result := some ⟨true, disposition, some decision⟩ } :=
  Table.get_put_self _ _ _

theorem decided_attempt_ne (x : UUID) (hx : x ≠ id) :
    (finishDecision mid cx id src queued disposition decision).attempts.get x
      = mid.attempts.get x := Table.get_put_ne _ _ hx

theorem decided_asks_ne (x : UUID) (hx : x ≠ id) :
    Asks mid x ↔ Asks (finishDecision mid cx id src queued disposition decision) x := by
  constructor
  · intro h
    obtain ⟨r, hr, -⟩ := h.unfinished
    exact (asks_congr x r r hr ((decided_get_ne x hx).trans hr) rfl rfl
      (decided_attempt_ne x hx)).mp h
  · intro h
    obtain ⟨r, hr, -⟩ := h.unfinished
    exact (asks_congr x r r ((decided_get_ne x hx).symm.trans hr) hr rfl rfl
      (decided_attempt_ne x hx)).mpr h

/- Everybody is who they were, and the task that decided is unfinished as before. -/
theorem decided_same (hrow : mid.scheduled.get id = some src.scheduled) :
    Table.Evolves SameTask (fun _ => False) mid.scheduled
      (finishDecision mid cx id src queued disposition decision).scheduled :=
  Table.evolves_put SameTask.refl _ id src.scheduled _ hrow ⟨rfl, rfl, rfl⟩

theorem decided_keeps (htask : mid.logical.get id = some src.task) :
    Table.Evolves Keeps (fun _ => False) mid.logical
      (finishDecision mid cx id src queued disposition decision).logical :=
  Table.evolves_put Keeps.refl _ id src.task _ htask (Keeps.moveTo _ _)

theorem decided_unfinished (x : UUID) (h : Unfinished mid x) :
    Unfinished (finishDecision mid cx id src queued disposition decision) x := by
  obtain ⟨r, hr, hopen⟩ := h
  by_cases hx : x = id
  · subst hx
    refine ⟨_, decided_get, ?_⟩
    cases queued || cx.pendingFeedback <;> exact fun ht => by cases ht
  · exact ⟨r, (decided_get_ne x hx).trans hr, hopen⟩

theorem decided_waitsFor (hrow : mid.scheduled.get id = some src.scheduled)
    (hs : src.scheduled.state = .reconciling) (x : UUID) (r' : ScheduledTask)
    (hr' : (finishDecision mid cx id src queued disposition decision).scheduled.get x = some r')
    (hs' : r'.state ≠ .terminal) : ∃ r, mid.scheduled.get x = some r ∧ r.state ≠ .terminal ∧
      r'.dependencyTaskIds = r.dependencyTaskIds := by
  by_cases hx : x = id
  · subst hx
    cases decided_get.symm.trans hr'
    refine ⟨src.scheduled, hrow, ?_, rfl⟩
    rw [hs]
    decide
  · exact ⟨r', (decided_get_ne x hx).symm.trans hr', hs', rfl⟩

end decided

section primary

/- Only an accepted scope request makes a task ask. -/
theorem asks_disposition (x : UUID) (a : LatestAttempt) (result : AttemptResult)
    (ha : db.attempts.get x = some a) (hr : a.result = some result) (h : Asks db x) :
    result.disposition = .scopeRequested := by
  obtain ⟨r, -, hp⟩ := h
  unfold scopeRequestPending at hp
  split at hp
  · cases hp
  · rw [ha, Option.bind_some] at hp
    split at hp
    · cases hp
    · rw [hr, Option.bind_some] at hp
      split at hp
      · assumption
      · cases hp

/-- The primary leaves its lease with an applied decision: queued, or parked on
somebody who can end. -/
theorem Family.decides (h : Family R P mid) (src : DecisionSource) (cx : DecisionContext)
    (hrow : mid.scheduled.get P = some src.scheduled) (hs : src.scheduled.state = .reconciling)
    (htask : mid.logical.get P = some src.task) (queued : Bool) (disposition : Disposition)
    (decision : Decision) (hd : disposition ≠ .scopeRequested)
    (hpark : (queued || cx.pendingFeedback) = false → ParkedOn P mid
      (parking (finishDecision mid cx P src queued disposition decision) P
        (parkedTask src.scheduled false))) :
    Sound R P (finishDecision mid cx P src queued disposition decision) := by
  have hasks : ∀ x, Asks (finishDecision mid cx P src queued disposition decision) x → Asks mid x := by
    intro x hx
    by_cases hxP : x = P
    · subst hxP
      exact absurd (asks_disposition x _ _ decided_attempt rfl hx) hd
    · exact (decided_asks_ne x hxP).mpr hx
  have hbound := scopeBound_mono (decided_waitsFor hrow hs) hasks
  refine ⟨h.evolves (decided_same hrow) (decided_keeps htask) ?_, ?_⟩
  · intro k r hr hne hb
    exact (decided_asks_ne k hne).mp (h.asking k r ((decided_get_ne k hne).symm.trans hr) hne hb)
  · intro p hp hb
    cases decided_get.symm.trans hp
    cases hq : queued || cx.pendingFeedback with
    | true =>
      rw [hq] at hb
      cases hb
    | false =>
      exact (hpark hq).evolves _ (decided_same hrow).kept decided_unfinished hbound

/- The parking that each decision asks for. -/
theorem parking_delegated (src : DecisionSource) (cx : DecisionContext) (queued : Bool)
    (p : ScheduledTask) (runId : UUID) (hrun : p.runId = runId) :
    parking (finishDecision mid cx P src queued .delegated (.delegate runId P)) P p = .anyChild := by
  unfold parking
  rw [decided_attempt]
  simp [hrun]

theorem parking_waiting (src : DecisionSource) (cx : DecisionContext) (queued : Bool)
    (p : ScheduledTask) (runId : UUID) (ids : List UUID) (hrun : p.runId = runId)
    (hlen : ids.length ≤ 64) :
    parking (finishDecision mid cx P src queued .waiting (.wait runId P ids)) P p
      = .selected ids := by
  unfold parking
  rw [decided_attempt]
  simp [hrun, hlen]

theorem parking_reassigned (src : DecisionSource) (cx : DecisionContext) (queued : Bool)
    (p : ScheduledTask) (runId child : UUID) (hrun : p.runId = runId) :
    parking (finishDecision mid cx P src queued .reassigned (.reassign runId child)) P p
      = .selected [child] := by
  unfold parking
  rw [decided_attempt]
  simp [hrun]

theorem parking_forwarded (src : DecisionSource) (cx : DecisionContext) (queued : Bool)
    (p : ScheduledTask) (runId child : UUID) (hrun : p.runId = runId) :
    parking (finishDecision mid cx P src queued .feedbackForwarded (.forwardFeedback runId child)) P p
      = .selected [child] := by
  unfold parking
  rw [decided_attempt]
  simp [hrun]

end primary

section wait

/- The named rows are all there, and they are children. -/
theorem Family.waiting (h : Family R P db) (worktreeId : String) (ids : List UUID) (hn : ids.Nodup)
    (hlen : (waitingChildren db R P worktreeId ids).length = ids.length) :
    ∀ i ∈ ids, i ≠ P ∧ ∃ r, db.scheduled.get i = some r := by
  have hle : (waitingChildren db R P worktreeId ids).length
      ≤ (childrenOf db R P ids.contains).length := List.length_filter_le _ _
  have hge : (childrenOf db R P ids.contains).length ≤ ids.length :=
    Table.length_select_le db.scheduled (fun _ r => r.runId == R && r.parentTaskId == some P) ids
  have hall := (Table.length_select_iff db.scheduled
    (fun _ r => r.runId == R && r.parentTaskId == some P) ids hn).mp (by
      show (childrenOf db R P ids.contains).length = ids.length
      omega)
  intro i hi
  obtain ⟨r, hr, hq⟩ := hall i hi
  refine ⟨?_, r, hr⟩
  rintro rfl
  simp only [Bool.and_eq_true, beq_iff_eq, (h.primary r hr).1] at hq
  cases hq.2

theorem hasScopeRequest_eq_false (h : Family R P db) (p : UUID → Bool)
    (hs : hasScopeRequest db R p = false) (x : UUID) (hx : p x = true) : ¬ Asks db x := by
  rintro ⟨r, hr, hp⟩
  have hnone := (Table.any_eq_false _ _).mp hs x r hr
  simp [h.ofRun x r hr, hx, hp] at hnone

theorem Sound.wait (h : Sound R P db) (cx : DecisionContext) (runId id : UUID) (ids : List UUID)
    (hw : applyWait pathKey db cx runId id ids = .ok db')
    (halive : ∀ p, db'.scheduled.get P = some p → p.state ≠ .terminal)
    (hok : cx.pendingFeedback = false → (∀ i ∈ ids, ¬ Asks db i) → ∀ i ∈ ids, ¬ ScopeBound db i) :
    Sound R P db' := by
  unfold applyWait at hw
  simp only [bind_eq_ok, require_eq_ok] at hw
  obtain ⟨-, -, -, hnodup, src, hsrc, hw⟩ := hw
  have hf := decisionSource_eq_ok db cx runId id false false src hsrc
  have hrun := h.family.source_run hf
  have hid := h.family.source_primary hf
  subst hrun hid
  split at hw
  · exact h.rejectDecision hf cx hw halive
  · next hfew =>
    cases hw
    obtain ⟨hshort, hlen⟩ := not_or.mp hfew
    have hchildren := h.family.waiting src.scheduled.worktreeId ids hnodup (by omega)
    refine h.family.decides src cx hf.scheduled hf.reconciling hf.task _ _ _ (by decide) ?_
    intro hpark
    simp only [Bool.or_eq_false_iff] at hpark
    obtain ⟨⟨hopen, hquiet⟩, hidle⟩ := hpark
    have hfree := hok hidle fun i hi => hasScopeRequest_eq_false h.family ids.contains hquiet i
      (List.contains_iff_mem.mpr hi)
    have hsel : Selection id db ids := ⟨hnodup, hchildren, fun i hi _ => hfree i hi⟩
    have hlast : ∃ i ∈ ids, Unfinished db i := by
      obtain ⟨⟨i, r⟩, hmem, hstate⟩ := List.all_eq_false.mp hopen
      rw [waitingChildren, List.mem_filter, childrenOf, Table.mem_select_iff, Bool.and_eq_true,
        List.contains_iff_mem] at hmem
      exact ⟨i, hmem.1.2.2, r, hmem.1.1, by simpa using hstate⟩
    have hshort' : ids.length ≤ 64 := by omega
    rw [parking_waiting src cx _ (parkedTask src.scheduled false) runId ids hf.ofRun hshort']
    exact ⟨hsel, hlast⟩

end wait

section scope

/- The look at the primary that follows a scope request. -/
theorem Sound.asked (h : Sound R P db) (hfam : Family R P mid) (id : UUID) (hne : id ≠ P)
    (child : ScheduledTask) (hchild : mid.scheduled.get id = some child)
    (hsame : Table.Evolves SameTask (fun _ => False) db.scheduled mid.scheduled)
    (hP : mid.scheduled.get P = db.scheduled.get P)
    (hatt : mid.attempts.get P = db.attempts.get P) (hu : ∀ x, Unfinished db x → Unfinished mid x)
    (hbound : ∀ x, ScopeBound mid x → ScopeBound db x ∨ ReflTransGen (WaitsFor db) x id)
    (hok : ∀ p ids, db.scheduled.get P = some p → p.state = .blocked →
      parking db P p = .selected ids → id ∉ ids → ∀ i ∈ ids, ¬ ReflTransGen (WaitsFor db) i id) :
    Sound R P (wakeReadyParents mid id child true) := by
  obtain ⟨p, hp'⟩ := hfam.headed id child hchild
  have hp : db.scheduled.get P = some p := hP.symm.trans hp'
  have htask : mid.taskOf child.runId P = some p := by
    rw [taskOf_eq_some]
    exact ⟨hp', (hfam.ofRun P p hp').trans (hfam.ofRun id child hchild).symm⟩
  unfold wakeReadyParents
  rw [hfam.child id child hchild hne]
  simp only [htask]
  split
  · exact hfam.wakeTask p hp'
  · next hasleep =>
    refine ⟨hfam, ?_⟩
    intro q hq hs
    cases hp'.symm.trans hq
    have hw : wakes mid P p id true = false := by simpa [hs] using hasleep
    have hpk : parking mid P p = parking db P p := parking_congr p p hatt rfl
    have hpark := h.parked p hp hs
    cases hkind : parking db P p with
    | anyChild =>
      rw [wakes_any p (hpk.trans hkind) id true] at hw
      cases hw
    | selected ids =>
      rw [hkind] at hpark
      rw [hpk, hkind]
      obtain ⟨hsel, i, hi, hui⟩ := hpark
      have hchildren : ∀ j ∈ ids, j ≠ P ∧ ∃ r, mid.scheduled.get j = some r := by
        intro j hj
        obtain ⟨hjP, r, hr⟩ := hsel.children j hj
        exact ⟨hjP, hsame.kept j r hr⟩
      have hout := wakes_asked hfam ids hsel.nodup hchildren p hp' (hpk.trans hkind) id hw
      refine ⟨hsel.evolves hsame.kept ?_, i, hi, hu i hui⟩
      intro j hj hb
      rcases hbound j hb with hold | hreach
      · exact hold
      · exact absurd hreach (hok p ids hp hs hkind hout j hj)
    | allChildren =>
      rw [hkind] at hpark
      exact hpark.elim
    | unwakeable =>
      rw [hkind] at hpark
      exact hpark.elim

/-- A child parks itself with a scope request. The primary is woken, unless it is
parked on other children, none of whom may then wait for the one that asks. -/
theorem Sound.scopeRequest (h : Sound R P db) (cx : DecisionContext) (runId id : UUID)
    (paths : List String) (hw : applyScopeRequest pathKey db cx runId id paths = .ok db')
    (halive : ∀ p, db'.scheduled.get P = some p → p.state ≠ .terminal)
    (hok : ∀ p ids, db.scheduled.get P = some p → p.state = .blocked →
      parking db P p = .selected ids → id ∉ ids → ∀ i ∈ ids, ¬ ReflTransGen (WaitsFor db) i id) :
    Sound R P db' := by
  unfold applyScopeRequest at hw
  simp only [bind_eq_ok] at hw
  obtain ⟨src, hsrc, -, -, hw⟩ := hw
  have hf := decisionSource_eq_ok db cx runId id true false src hsrc
  have hrun := h.family.source_run hf
  have hne := h.family.source_child hf
  subst hrun
  split at hw
  · exact h.rejectDecision hf cx hw halive
  · unfold wakeParentForScopeRequest at hw
    simp only [bind_eq_ok, orRaise_eq_ok, Option.filter_eq_some_iff, taskOf_eq_some] at hw
    obtain ⟨-, -, child, ⟨⟨hchild, -⟩, hpend⟩, hw⟩ := hw
    cases hw
    have hasker : Asks (finishDecision db cx id src false .scopeRequested
        (.scopeRequest runId id paths)) id := ⟨child, hchild, hpend⟩
    have hfam : Family runId P (finishDecision db cx id src false .scopeRequested
        (.scopeRequest runId id paths)) := by
      refine h.family.evolves (decided_same hf.scheduled) (decided_keeps hf.task) ?_
      intro k r hr hkP hb
      by_cases hk : k = id
      · subst hk
        exact hasker
      · exact (decided_asks_ne k hk).mp
          (h.family.asking k r ((decided_get_ne k hk).symm.trans hr) hkP hb)
    have hbound : ∀ x, ScopeBound (finishDecision db cx id src false .scopeRequested
        (.scopeRequest runId id paths)) x → ScopeBound db x ∨ ReflTransGen (WaitsFor db) x id := by
      refine Stuck.of_new_ask id ?_ ?_
      · intro x hx
        by_cases hk : x = id
        · exact Or.inr hk
        · exact Or.inl ((decided_asks_ne x hk).mpr hx)
      · exact waitsFor_mono (decided_waitsFor hf.scheduled hf.reconciling)
    exact h.asked hfam id hne child hchild (decided_same hf.scheduled) (decided_get_ne P hne.symm)
      (decided_attempt_ne P hne.symm) decided_unfinished hbound hok

end scope

section retaken

/-- A child is put back into the queue, whatever it was doing. -/
structure Retaken (db mid : Db) (k : UUID) (row : ScheduledTask) : Prop where
  before : db.scheduled.get k = some row
  after : ∃ row', mid.scheduled.get k = some row' ∧ SameTask row row' ∧ row'.state = .queued
  others : ∀ x, x ≠ k → mid.scheduled.get x = db.scheduled.get x
  logical : Table.Evolves Keeps (fun _ => False) db.logical mid.logical
  logicalOthers : ∀ x, x ≠ k → mid.logical.get x = db.logical.get x
  attempts : mid.attempts = db.attempts

/- Both rows are written. -/
theorem retaken_put (k : UUID) (task task' : LogicalTask) (row row' : ScheduledTask)
    (ht : db.logical.get k = some task) (hr : db.scheduled.get k = some row)
    (hk : Keeps task task') (hs : SameTask row row') (hq : row'.state = .queued) :
    Retaken db ((db.putLogical k task').putTask k row') k row :=
  ⟨hr, ⟨row', Table.get_put_self _ _ _, hs, hq⟩, fun _ hx => Table.get_put_ne _ _ hx,
    Table.evolves_put Keeps.refl _ k task task' ht hk, fun _ hx => Table.get_put_ne _ _ hx, rfl⟩

variable {k : UUID} {row : ScheduledTask}

theorem Retaken.same (h : Retaken db mid k row) :
    Table.Evolves SameTask (fun _ => False) db.scheduled mid.scheduled := by
  intro x
  by_cases hx : x = k
  · subst hx
    obtain ⟨row', hrow', hs, -⟩ := h.after
    rw [h.before, hrow']
    exact .changed _ _ hs
  · rw [h.others x hx]
    exact RowStep.refl SameTask.refl _

theorem Retaken.asks (h : Retaken db mid k row) (x : UUID) (hx : Asks mid x) : x ≠ k ∧ Asks db x := by
  obtain ⟨r, hr, -⟩ := hx.unfinished
  have hne : x ≠ k := by
    rintro rfl
    obtain ⟨row', hrow', -, hq⟩ := h.after
    exact not_asks x row' hrow' (by rw [hq]; decide) hx
  refine ⟨hne, (asks_congr x r r ?_ hr rfl rfl (by rw [h.attempts])).mpr hx⟩
  exact (h.others x hne).symm.trans hr

theorem Retaken.family (h : Retaken db mid k row) (hfam : Family R P db) : Family R P mid := by
  refine hfam.evolves h.same h.logical ?_
  intro x r hr hxP hb
  have hne : x ≠ k := by
    rintro rfl
    obtain ⟨row', hrow', -, hq⟩ := h.after
    cases hrow'.symm.trans hr
    rw [hq] at hb
    cases hb
  have hold := (h.others x hne).symm.trans hr
  exact (asks_congr x r r hold hr rfl rfl (by rw [h.attempts])).mp (hfam.asking x r hold hxP hb)

/-- If no dependency of the child is bound, nobody is bound anew. -/
theorem Retaken.bound (h : Retaken db mid k row)
    (hfree : ∀ d ∈ row.dependencyTaskIds, ¬ ScopeBound db d) (x : UUID) (hb : ScopeBound mid x) :
    ScopeBound db x := by
  refine Stuck.shrinks (fun _ => True) (fun x _ hx => (h.asks x hx).2) ?_ x trivial hb
  rintro a b - ⟨r, hr, hs, hd, q, hq, ho⟩
  refine ⟨trivial, ?_⟩
  by_cases ha : a = k
  · subst ha
    obtain ⟨row', hrow', hsame, -⟩ := h.after
    cases hrow'.symm.trans hr
    rw [hsame.dependencies] at hd
    exact Or.inr (hfree b hd)
  · have hr0 := (h.others a ha).symm.trans hr
    by_cases hu : Unfinished db b
    · exact Or.inl ⟨r, hr0, hs, hd, hu⟩
    · exact Or.inr fun hbound => hu (ScopeBound.unfinished hbound)

theorem Retaken.unfinished (h : Retaken db mid k row) : Unfinished mid k := by
  obtain ⟨row', hrow', -, hq⟩ := h.after
  exact ⟨row', hrow', by rw [hq]; decide⟩

theorem Retaken.free (h : Retaken db mid k row)
    (hfree : ∀ d ∈ row.dependencyTaskIds, ¬ ScopeBound db d) : ¬ ScopeBound mid k := by
  intro hb
  obtain ⟨row', hrow', hsame, hq⟩ := h.after
  rcases hb.cases with hask | ⟨d, ⟨r, hr, -, hd, -⟩, hd'⟩
  · exact not_asks k row' hrow' (by rw [hq]; decide) hask
  · cases hrow'.symm.trans hr
    rw [hsame.dependencies] at hd
    exact hfree d hd (h.bound hfree d hd')

theorem Retaken.selects (h : Retaken db mid k row) (hne : k ≠ P) (hfree : ¬ ScopeBound mid k) :
    ParkedOn P mid (.selected [k]) := by
  refine ⟨⟨List.nodup_singleton k, ?_, ?_⟩, k, List.mem_singleton_self k, h.unfinished⟩
  · intro i hi
    cases List.mem_singleton.mp hi
    obtain ⟨row', hrow', -⟩ := h.after
    exact ⟨hne, row', hrow'⟩
  · intro i hi _
    cases List.mem_singleton.mp hi
    exact hfree

end retaken

section answers

theorem Sound.scopeResponse (h : Sound R P db) (cx : DecisionContext) (runId id childId : UUID)
    (granted denied : List String)
    (hw : applyScopeResponse pathKey db cx runId id childId granted denied = .ok db')
    (halive : ∀ p, db'.scheduled.get P = some p → p.state ≠ .terminal) : Sound R P db' := by
  unfold applyScopeResponse at hw
  simp only [bind_eq_ok] at hw
  obtain ⟨src, hsrc, hw⟩ := hw
  have hf := decisionSource_eq_ok db cx runId id false false src hsrc
  have hrun := h.family.source_run hf
  have hid := h.family.source_primary hf
  subst hrun hid
  split at hw
  · exact h.rejectDecision hf cx hw halive
  · simp only [bind_eq_ok, orRaise_eq_ok] at hw
    obtain ⟨child, hchild, requested, -, hw⟩ := hw
    obtain ⟨ht, hc, hr, -, -⟩ := decidedChild_eq_some db runId childId child hchild
    split at hw
    · exact h.rejectDecision hf cx hw halive
    · simp only [bind_eq_ok, require_eq_ok] at hw
      obtain ⟨-, ⟨hcur, -⟩, hw⟩ := hw
      cases hw
      have hne := h.family.primary_ne childId child.task ht
        (childCurrent_parent runId id src child hcur).1
      have hmid : Retaken db (widenChild pathKey db childId child.task child.row
          { child.contract with ownedPaths := grantPaths pathKey child.contract.ownedPaths granted })
          childId child.row := by
        refine retaken_put childId child.task _ child.row _ ht hr ⟨rfl, rfl, ?_⟩ ⟨rfl, rfl, rfl⟩ rfl
        intro c' hc'
        cases hc'
        exact ⟨child.contract, hc, rfl, rfl⟩
      refine (hmid.family h.family).decides src cx ((hmid.others id hne).trans hf.scheduled)
        hf.reconciling ((hmid.logicalOthers id hne).trans hf.task) true _ _ (by decide) ?_
      intro hq
      cases hq

/-- A reassigned child is queued, with the primary parked on it alone. -/
theorem Sound.reassign (h : Sound R P db) (cx : DecisionContext) (runId id childId : UUID)
    (route : RouteSpec) (hw : applyReassign pathKey db cx runId id childId route = .ok db')
    (halive : ∀ p, db'.scheduled.get P = some p → p.state ≠ .terminal)
    (hok : cx.pendingFeedback = false → ∀ r, db.scheduled.get childId = some r →
      ∀ d ∈ r.dependencyTaskIds, ¬ ScopeBound db d) : Sound R P db' := by
  unfold applyReassign at hw
  simp only [bind_eq_ok] at hw
  obtain ⟨src, hsrc, hw⟩ := hw
  have hf := decisionSource_eq_ok db cx runId id false false src hsrc
  have hrun := h.family.source_run hf
  have hid := h.family.source_primary hf
  subst hrun hid
  split at hw
  · exact h.rejectDecision hf cx hw halive
  · simp only [bind_eq_ok, orRaise_eq_ok] at hw
    obtain ⟨child, hchild, hw⟩ := hw
    obtain ⟨ht, hc, hr, -, -⟩ := decidedChild_eq_some db runId childId child hchild
    split at hw
    · next expected binding _ _ =>
      simp only [bind_eq_ok, require_eq_ok] at hw
      obtain ⟨-, ⟨hcur, -⟩, hw⟩ := hw
      cases hw
      have hne := h.family.primary_ne childId child.task ht
        (childCurrent_parent runId id src child hcur).1
      have hmid : Retaken db (requeueChild db childId child.task child.row
          { child.contract with route := binding }) childId child.row := by
        refine retaken_put childId child.task _ child.row _ ht hr ⟨rfl, rfl, ?_⟩ ⟨rfl, rfl, rfl⟩ rfl
        intro c' hc'
        cases hc'
        exact ⟨child.contract, hc, rfl, rfl⟩
      refine (hmid.family h.family).decides src cx ((hmid.others id hne).trans hf.scheduled)
        hf.reconciling ((hmid.logicalOthers id hne).trans hf.task) false _ _ (by decide) ?_
      intro hidle
      rw [parking_reassigned src cx false (parkedTask src.scheduled false) runId childId hf.ofRun]
      exact hmid.selects hne.symm (hmid.free (hok hidle child.row hr))
    · exact h.rejectDecision hf cx hw halive

/- The forwarding looks at all children, so that a parked primary has nobody asking. -/
theorem Family.nobody_asks (h : Family R P mid) (p : ScheduledTask)
    (hp : mid.scheduled.get P = some p) (hs : p.state = .reconciling)
    (hq : hasScopeRequest mid R (fun k => (mid.logical.get k).any fun t =>
      t.runId == R && t.parentTaskId == some P) = false) (x : UUID) : ¬ Asks mid x := by
  by_cases hx : x = P
  · subst hx
    exact not_asks x p hp (by rw [hs]; decide)
  · intro hask
    obtain ⟨r, hr, -⟩ := hask.unfinished
    obtain ⟨t, ht⟩ := h.named x r hr
    have hrole := h.roles x t ht
    refine hasScopeRequest_eq_false h _ hq x ?_ hask
    simp [ht, hrole.ofRun, (hrole.child hx).1]

/-- The primary is parked on the target of its feedback alone. -/
theorem Family.forwards (h : Family R P mid) (src : DecisionSource) (cx : DecisionContext)
    (hrow : mid.scheduled.get P = some src.scheduled) (hs : src.scheduled.state = .reconciling)
    (htask : mid.logical.get P = some src.task) (closing : Bool) (targetId : UUID)
    (hne : targetId ≠ P) (row : ScheduledTask) (hr : mid.scheduled.get targetId = some row)
    (hopen : cx.pendingFeedback = false → closing = false → (∀ x, ¬ Asks mid x) →
      row.state ≠ .terminal) :
    Sound R P (finishDecision mid cx P src (closing || hasScopeRequest mid R fun k =>
      (mid.logical.get k).any fun t => t.runId == R && t.parentTaskId == some P)
      .feedbackForwarded (.forwardFeedback R targetId)) := by
  refine h.decides src cx hrow hs htask _ _ _ (by decide) ?_
  intro hpark
  simp only [Bool.or_eq_false_iff] at hpark
  obtain ⟨⟨hclosing, hquiet⟩, hidle⟩ := hpark
  have hnobody := h.nobody_asks src.scheduled hrow hs hquiet
  rw [parking_forwarded src cx _ (parkedTask src.scheduled false) R targetId
    (h.ofRun P src.scheduled hrow)]
  refine ⟨⟨List.nodup_singleton targetId, ?_, ?_⟩, targetId, List.mem_singleton_self targetId, row,
    hr, hopen hidle hclosing hnobody⟩
  · intro i hi
    cases List.mem_singleton.mp hi
    exact ⟨hne, row, hr⟩
  · rintro i - - ⟨a, -, hask⟩
    exact hnobody a hask

/-- Forwarded feedback parks the primary on its target, when nobody asks. -/
theorem Sound.forwardFeedback (h : Sound R P db) (cx : DecisionContext) (fx : ForwardContext)
    (runId id targetId receiptId : UUID)
    (hw : applyForwardFeedback pathKey db cx fx runId id targetId receiptId = .ok db')
    (hok : cx.pendingFeedback = false → ∀ target row, db.logical.get targetId = some target →
      db.scheduled.get targetId = some row → row.state = .terminal → (∀ x, ¬ Asks db x) →
      if forwardCloses fx target row then fx.primaryBudget = true
      else forwardSettled target row = true) : Sound R P db' := by
  unfold applyForwardFeedback at hw
  simp only [bind_eq_ok, orRaise_eq_ok, Option.filter_eq_some_iff, taskOf_eq_some,
    Bool.and_eq_true, beq_iff_eq] at hw
  obtain ⟨src, hsrc, f, -, target, ⟨ht, -, htp⟩, row, ⟨⟨hr, -⟩, -⟩, hw⟩ := hw
  have hf := decisionSource_eq_ok db cx runId id false false src hsrc
  have hrun := h.family.source_run hf
  have hid := h.family.source_primary hf
  subst hrun hid
  have hne := h.family.primary_ne targetId target ht htp
  generalize setFeedback db.env receiptId _ = env at hw
  have hfam : Family runId id { db with env := env } := h.family.works (Works.of_eq rfl rfl rfl)
  by_cases hcase : (!forwardCloses fx target row) = true ∧ forwardSettled target row = true
  · rw [if_pos hcase] at hw
    cases hw
    have hmid : Retaken { db with env := env } (requeueTarget { db with env := env } targetId target row)
        targetId row :=
      retaken_put targetId target _ row _ ht hr (Keeps.moveTo _ _) ⟨rfl, rfl, rfl⟩ rfl
    obtain ⟨row', hrow', -, hq⟩ := hmid.after
    refine (hmid.family hfam).forwards src cx ((hmid.others id hne).trans hf.scheduled) hf.reconciling
      ((hmid.logicalOthers id hne).trans hf.task) _ targetId hne.symm row' hrow' ?_
    intro _ _ _
    rw [hq]
    decide
  · rw [if_neg hcase] at hw
    cases hw
    refine hfam.forwards src cx hf.scheduled hf.reconciling hf.task _ targetId hne.symm row hr ?_
    intro hidle hclosing hnobody hterminal
    have hgood := hok hidle target row ht hr hterminal hnobody
    split at hgood
    · next hcloses =>
      rw [hcloses, hgood] at hclosing
      cases hclosing
    · next hopen => exact hcase ⟨by simpa using hopen, hgood⟩

/-- A child that ended without its feedback is queued again. -/
theorem Sound.requeueUndelivered (h : Sound R P db) (runId taskId : UUID)
    (delivering remaining capacityPending : Bool)
    (hok : ∀ p, db.scheduled.get P = some p → p.state = .blocked →
      ∀ r, db.scheduled.get taskId = some r → ∀ d ∈ r.dependencyTaskIds, ¬ ScopeBound db d) :
    Sound R P (requeueUndelivered db runId taskId delivering remaining capacityPending) := by
  unfold Scheduling.requeueUndelivered
  split
  · next task row ht hr =>
    rw [taskOf_eq_some] at hr
    simp only
    split
    · next hcond =>
      split
      · exact h.works (Works.of_eq rfl rfl rfl)
      · have hmid : Retaken db (requeueTarget db taskId task row) taskId row :=
          retaken_put taskId task _ row _ ht hr.1 (Keeps.moveTo _ _) ⟨rfl, rfl, rfl⟩ rfl
        have hne : P ≠ taskId := by
          rintro rfl
          simp only [Bool.and_eq_true] at hcond
          obtain ⟨c, hc, hchild⟩ := Option.any_eq_true _ _ |>.mp hcond.1.1.2
          have hroot := ((h.family.roles P task ht).root rfl).2 c hc
          simp [hroot.1] at hchild
        refine ⟨hmid.family h.family, ?_⟩
        intro p hp hs
        have hold := (hmid.others P hne).symm.trans hp
        rw [parking_congr p p (by rw [hmid.attempts]) rfl]
        refine (h.parked p hold hs).evolves _ hmid.same.kept ?_ (hmid.bound (hok p hold hs row hr.1))
        rintro x ⟨r, hget, hopen⟩
        by_cases hx : x = taskId
        · rw [hx]
          exact hmid.unfinished
        · exact ⟨r, (hmid.others x hx).trans hget, hopen⟩
    · exact h
  · exact h

end answers

end ParallelForge.Scheduling
