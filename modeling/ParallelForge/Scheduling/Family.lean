import ParallelForge.Base.Waiting
import ParallelForge.Scheduling.Dependencies

/-!
# A primary and its children

One run with one primary `P`. A child waits for its unfinished dependencies, and
a child with a scope request waits for an answer of the primary. What has to
hold while the primary is parked is that it is parked on somebody who can end
without such an answer.
-/

namespace ParallelForge.Scheduling
open Base Run Relation

variable {pathKey : String → String} {R P : UUID} {db db' : Db}

def Unfinished (db : Db) (x : UUID) : Prop :=
  ∃ r, db.scheduled.get x = some r ∧ r.state ≠ .terminal

/-- An unfinished task and an unfinished dependency of it. -/
def WaitsFor (db : Db) (x y : UUID) : Prop :=
  ∃ r, db.scheduled.get x = some r ∧ r.state ≠ .terminal ∧ y ∈ r.dependencyTaskIds ∧ Unfinished db y

/-- The task has a scope request that nobody has answered. -/
def Asks (db : Db) (x : UUID) : Prop :=
  ∃ r, db.scheduled.get x = some r ∧ (scopeRequestPending db x r).isSome = true

/-- The task can only go on after the primary has answered a scope request, its
own or that of a task it waits for. -/
def ScopeBound (db : Db) (x : UUID) : Prop := Stuck (WaitsFor db) (Asks db) x

theorem Asks.unfinished {x : UUID} (h : Asks db x) : Unfinished db x := by
  obtain ⟨r, hr, hp⟩ := h
  obtain ⟨paths, hpaths⟩ := Option.isSome_iff_exists.mp hp
  refine ⟨r, hr, ?_⟩
  rw [scopeRequestPending_blocked db x r paths hpaths]
  decide

theorem ScopeBound.unfinished {x : UUID} (h : ScopeBound db x) : Unfinished db x := by
  rcases h.cases with ha | ⟨y, ⟨r, hr, hs, -⟩, -⟩
  · exact ha.unfinished
  · exact ⟨r, hr, hs⟩

/- A pending request depends on the state of the row and on its last attempt. -/
theorem asks_congr (x : UUID) (r r' : ScheduledTask) (hr : db.scheduled.get x = some r)
    (hr' : db'.scheduled.get x = some r') (hs : r'.state = r.state) (hrun : r'.runId = r.runId)
    (ha : db'.attempts.get x = db.attempts.get x) : Asks db x ↔ Asks db' x := by
  have hpend : scopeRequestPending db' x r' = scopeRequestPending db x r := by
    unfold scopeRequestPending
    rw [hs, hrun, ha]
  constructor
  · rintro ⟨q, hq, hp⟩
    cases hr.symm.trans hq
    exact ⟨r', hr', by rw [hpend]; exact hp⟩
  · rintro ⟨q, hq, hp⟩
    cases hr'.symm.trans hq
    exact ⟨r, hr, by rw [← hpend]; exact hp⟩

/- A task that is not blocked asks for nothing. -/
theorem not_asks (x : UUID) (r : ScheduledTask) (hr : db.scheduled.get x = some r)
    (hs : r.state ≠ .blocked) : ¬ Asks db x := by
  rintro ⟨q, hq, hp⟩
  cases hr.symm.trans hq
  obtain ⟨paths, hpaths⟩ := Option.isSome_iff_exists.mp hp
  exact hs (scopeRequestPending_blocked db x r paths hpaths)

/-- What the logical row of a member of the family says. -/
structure Role (R P : UUID) (db : Db) (k : UUID) (t : LogicalTask) : Prop where
  ofRun : t.runId = R
  root : k = P → t.parentTaskId = none ∧
    ∀ c, t.contract = some c → c.parentTaskId = none ∧ c.dependencyTaskIds = []
  child : k ≠ P → t.parentTaskId = some P ∧ ∃ r, db.scheduled.get k = some r

/-- One primary and its children, whose dependencies are other children, without a
cycle. A child is blocked only on a scope request. -/
structure Family (R P : UUID) (db : Db) : Prop where
  ofRun : ∀ k r, db.scheduled.get k = some r → r.runId = R
  primary : ∀ r, db.scheduled.get P = some r → r.parentTaskId = none ∧ r.dependencyTaskIds = []
  child : ∀ k r, db.scheduled.get k = some r → k ≠ P → r.parentTaskId = some P
  headed : ∀ k r, db.scheduled.get k = some r → ∃ p, db.scheduled.get P = some p
  named : ∀ k r, db.scheduled.get k = some r → ∃ t, db.logical.get k = some t
  roles : ∀ k t, db.logical.get k = some t → Role R P db k t
  ranked : ∃ rank : UUID → ℕ, ∀ k r, db.scheduled.get k = some r → ∀ d ∈ r.dependencyTaskIds,
    d ≠ P ∧ (∃ s, db.scheduled.get d = some s) ∧ rank d < rank k
  asking : ∀ k r, db.scheduled.get k = some r → k ≠ P → r.state = .blocked → Asks db k

/-- The children a primary is parked on, none of whom needs an answer first. -/
structure Selection (P : UUID) (db : Db) (ids : List UUID) : Prop where
  nodup : ids.Nodup
  children : ∀ i ∈ ids, i ≠ P ∧ ∃ r, db.scheduled.get i = some r
  free : ∀ i ∈ ids, Unfinished db i → ¬ ScopeBound db i

/-- What a parked primary waits for includes a child that can end by itself. -/
def ParkedOn (P : UUID) (db : Db) : Parking → Prop
  | .anyChild => ∃ k, k ≠ P ∧ Unfinished db k ∧ ¬ ScopeBound db k
  | .selected ids => Selection P db ids ∧ ∃ i ∈ ids, Unfinished db i
  | _ => False

structure Sound (R P : UUID) (db : Db) : Prop where
  family : Family R P db
  parked : ∀ p, db.scheduled.get P = some p → p.state = .blocked → ParkedOn P db (parking db P p)

/-- Somebody is at work or can be claimed. -/
def Progress (db : Db) : Prop :=
  (∃ k, Unfinished db k) → ∃ k r, db.scheduled.get k = some r ∧ (r.state = .leased ∨
    r.state = .reconciling ∨ (r.state = .queued ∧ DependenciesTerminal db r))

/- Nothing is scheduled yet. -/
theorem Sound.of_unscheduled (hnone : ∀ k r, db.scheduled.get k ≠ some r)
    (hroles : ∀ k t, db.logical.get k = some t → Role R P db k t) : Sound R P db := by
  refine ⟨⟨?_, ?_, ?_, ?_, ?_, hroles, ⟨fun _ => 0, ?_⟩, ?_⟩, ?_⟩
  · exact fun k r hr => absurd hr (hnone k r)
  · exact fun r hr => absurd hr (hnone P r)
  · exact fun k r hr => absurd hr (hnone k r)
  · exact fun k r hr => absurd hr (hnone k r)
  · exact fun k r hr => absurd hr (hnone k r)
  · exact fun k r hr => absurd hr (hnone k r)
  · exact fun k r hr => absurd hr (hnone k r)
  · exact fun p hp => absurd hp (hnone P p)

/- A member of the family has both rows. -/
theorem Family.unscheduled (h : Family R P db) (k : UUID) (hfresh : db.logical.get k = none)
    (r : ScheduledTask) : db.scheduled.get k ≠ some r := by
  intro hr
  obtain ⟨t, ht⟩ := h.named k r hr
  rw [hfresh] at ht
  cases ht

/- A parked primary has a child that needs no answer. -/
theorem ParkedOn.free (parking : Parking) (h : ParkedOn P db parking) :
    ∃ k, k ≠ P ∧ Unfinished db k ∧ ¬ ScopeBound db k := by
  cases parking with
  | anyChild => exact h
  | selected ids =>
    obtain ⟨hsel, i, hi, hu⟩ := h
    exact ⟨i, (hsel.children i hi).1, hu, hsel.free i hi hu⟩
  | allChildren => exact h.elim
  | unwakeable => exact h.elim

/-- Somebody at the end of the waits of a free child is at work or can be claimed. -/
theorem Family.ready (h : Family R P db) (x : UUID) (hne : x ≠ P) (hu : Unfinished db x)
    (hfree : ¬ ScopeBound db x) : ∃ k r, db.scheduled.get k = some r ∧ (r.state = .leased ∨
      r.state = .reconciling ∨ (r.state = .queued ∧ DependenciesTerminal db r)) := by
  obtain ⟨rank, hrank⟩ := h.ranked
  have hdown : ∀ a b, WaitsFor db a b → rank b < rank a := by
    rintro a b ⟨r, hr, -, hb, -⟩
    exact (hrank a r hr b hb).2.2
  obtain ⟨y, hxy, hask, hlast⟩ := exists_free rank hdown x hfree
  have hy : y ≠ P ∧ Unfinished db y := by
    rcases hxy.cases_tail with rfl | ⟨z, -, r, hr, -, hd, hyu⟩
    · exact ⟨hne, hu⟩
    · exact ⟨(hrank z r hr y hd).1, hyu⟩
  obtain ⟨hyP, r, hr, hs⟩ := hy
  refine ⟨y, r, hr, ?_⟩
  cases hstate : r.state with
  | leased => exact Or.inl rfl
  | reconciling => exact Or.inr (Or.inl rfl)
  | terminal => exact absurd hstate hs
  | blocked => exact absurd (h.asking y r hr hyP hstate) hask
  | queued =>
    refine Or.inr (Or.inr ⟨rfl, ?_⟩)
    intro d hd
    obtain ⟨-, ⟨s, hget⟩, -⟩ := hrank y r hr d hd
    refine ⟨s, hget, (h.ofRun d s hget).trans (h.ofRun y r hr).symm, ?_⟩
    by_contra hopen
    exact hlast d ⟨r, hr, hs, hd, s, hget, hopen⟩

theorem Sound.progress (h : Sound R P db)
    (halive : ∀ p, db.scheduled.get P = some p → p.state ≠ .terminal) : Progress db := by
  rintro ⟨k, r, hr, -⟩
  obtain ⟨p, hp⟩ := h.family.headed k r hr
  cases hstate : p.state with
  | leased => exact ⟨P, p, hp, Or.inl hstate⟩
  | reconciling => exact ⟨P, p, hp, Or.inr (Or.inl hstate)⟩
  | terminal => exact absurd hstate (halive p hp)
  | queued =>
    refine ⟨P, p, hp, Or.inr (Or.inr ⟨hstate, ?_⟩)⟩
    intro d hd
    rw [(h.family.primary p hp).2] at hd
    cases hd
  | blocked =>
    obtain ⟨x, hne, hu, hfree⟩ := ParkedOn.free _ (h.parked p hp hstate)
    exact h.family.ready x hne hu hfree

section steps

structure SameTask (r r' : ScheduledTask) : Prop where
  runId : r'.runId = r.runId
  parent : r'.parentTaskId = r.parentTaskId
  dependencies : r'.dependencyTaskIds = r.dependencyTaskIds

/-- A new contract differs from the old one in its route or its paths. -/
structure Keeps (t t' : LogicalTask) : Prop where
  runId : t'.runId = t.runId
  parent : t'.parentTaskId = t.parentTaskId
  contract : ∀ c', t'.contract = some c' → ∃ c, t.contract = some c ∧
    c'.parentTaskId = c.parentTaskId ∧ c'.dependencyTaskIds = c.dependencyTaskIds

theorem SameTask.refl (r : ScheduledTask) : SameTask r r := ⟨rfl, rfl, rfl⟩

theorem Keeps.refl (t : LogicalTask) : Keeps t t :=
  ⟨rfl, rfl, fun c hc => ⟨c, hc, rfl, rfl⟩⟩

/- The contract stays as it is. -/
theorem Keeps.of_contract (t t' : LogicalTask) (hrun : t'.runId = t.runId)
    (hparent : t'.parentTaskId = t.parentTaskId) (hc : t'.contract = t.contract) : Keeps t t' :=
  ⟨hrun, hparent, fun c h => ⟨c, hc ▸ h, rfl, rfl⟩⟩

theorem Keeps.moveTo (t : LogicalTask) (state : LogicalState) : Keeps t (t.moveTo state) :=
  Keeps.of_contract t _ rfl rfl rfl

theorem Keeps.trans (a b c : LogicalTask) (h : Keeps a b) (k : Keeps b c) : Keeps a c := by
  refine ⟨k.runId.trans h.runId, k.parent.trans h.parent, ?_⟩
  intro x hx
  obtain ⟨y, hy, h1, h2⟩ := k.contract x hx
  obtain ⟨z, hz, g1, g2⟩ := h.contract y hy
  exact ⟨z, hz, h1.trans g1, h2.trans g2⟩

theorem Role.keeps {k : UUID} {t t' : LogicalTask} (h : Role R P db k t) (hk : Keeps t t')
    (hrow : ∀ r, db.scheduled.get k = some r → ∃ r', db'.scheduled.get k = some r') :
    Role R P db' k t' := by
  refine ⟨hk.runId.trans h.ofRun, ?_, ?_⟩
  · intro hP
    obtain ⟨hparent, hroot⟩ := h.root hP
    refine ⟨hk.parent.trans hparent, ?_⟩
    intro c' hc'
    obtain ⟨c, hc, hpar, hdeps⟩ := hk.contract c' hc'
    exact ⟨hpar.trans (hroot c hc).1, hdeps.trans (hroot c hc).2⟩
  · intro hP
    obtain ⟨hparent, r, hr⟩ := h.child hP
    exact ⟨hk.parent.trans hparent, hrow r hr⟩

/-- Nobody joins the family, and everybody stays who they are. -/
theorem Family.evolves (h : Family R P db)
    (ht : Table.Evolves SameTask (fun _ => False) db.scheduled db'.scheduled)
    (hl : Table.Evolves Keeps (fun _ => False) db.logical db'.logical)
    (ha : ∀ k r, db'.scheduled.get k = some r → k ≠ P → r.state = .blocked → Asks db' k) :
    Family R P db' := by
  refine ⟨?_, ?_, ?_, ?_, ?_, ?_, ?_, ha⟩
  · intro k r' hr'
    obtain ⟨r, hr, hs⟩ := ht.origin k r' hr'
    exact hs.runId.trans (h.ofRun k r hr)
  · intro r' hr'
    obtain ⟨r, hr, hs⟩ := ht.origin P r' hr'
    obtain ⟨hparent, hdeps⟩ := h.primary r hr
    exact ⟨hs.parent.trans hparent, hs.dependencies.trans hdeps⟩
  · intro k r' hr' hne
    obtain ⟨r, hr, hs⟩ := ht.origin k r' hr'
    exact hs.parent.trans (h.child k r hr hne)
  · intro k r' hr'
    obtain ⟨r, hr, -⟩ := ht.origin k r' hr'
    obtain ⟨p, hp⟩ := h.headed k r hr
    exact ht.kept P p hp
  · intro k r' hr'
    obtain ⟨r, hr, -⟩ := ht.origin k r' hr'
    obtain ⟨t, htask⟩ := h.named k r hr
    exact hl.kept k t htask
  · intro k t' ht'
    obtain ⟨t, htask, hkeep⟩ := hl.origin k t' ht'
    exact (h.roles k t htask).keeps hkeep (ht.kept k)
  · obtain ⟨rank, hrank⟩ := h.ranked
    refine ⟨rank, ?_⟩
    intro k r' hr' d hd
    obtain ⟨r, hr, hs⟩ := ht.origin k r' hr'
    rw [hs.dependencies] at hd
    obtain ⟨hne, ⟨s, hget⟩, hlt⟩ := hrank k r hr d hd
    exact ⟨hne, ht.kept d s hget, hlt⟩

/- No task is taken up again. -/
theorem waitsFor_mono
    (hu : ∀ x r', db'.scheduled.get x = some r' → r'.state ≠ .terminal →
      ∃ r, db.scheduled.get x = some r ∧ r.state ≠ .terminal ∧
        r'.dependencyTaskIds = r.dependencyTaskIds) (x y : UUID) (h : WaitsFor db' x y) :
    WaitsFor db x y := by
  obtain ⟨r', hr', hs', hd, s', hget', ho'⟩ := h
  obtain ⟨r, hr, hs, hdeps⟩ := hu x r' hr' hs'
  obtain ⟨s, hget, ho, -⟩ := hu y s' hget' ho'
  exact ⟨r, hr, hs, hdeps ▸ hd, s, hget, ho⟩

/-- Nobody is bound anew when no task is taken up again and no request is new. -/
theorem scopeBound_mono
    (hu : ∀ x r', db'.scheduled.get x = some r' → r'.state ≠ .terminal →
      ∃ r, db.scheduled.get x = some r ∧ r.state ≠ .terminal ∧
        r'.dependencyTaskIds = r.dependencyTaskIds)
    (ha : ∀ x, Asks db' x → Asks db x) (x : UUID) (h : ScopeBound db' x) : ScopeBound db x := by
  refine Stuck.shrinks (fun _ => True) (fun x _ => ha x) ?_ x trivial h
  intro a b _ hab
  exact ⟨trivial, Or.inl (waitsFor_mono hu a b hab)⟩

theorem Selection.evolves {ids : List UUID} (h : Selection P db ids)
    (hrow : ∀ k r, db.scheduled.get k = some r → ∃ r', db'.scheduled.get k = some r')
    (hb : ∀ i ∈ ids, ScopeBound db' i → ScopeBound db i) : Selection P db' ids := by
  refine ⟨h.nodup, ?_, ?_⟩
  · intro i hi
    obtain ⟨hne, r, hr⟩ := h.children i hi
    exact ⟨hne, hrow i r hr⟩
  · intro i hi _ hbound
    have hold := hb i hi hbound
    exact h.free i hi hold.unfinished hold

/- Nobody ends, and nobody is newly bound. -/
theorem ParkedOn.evolves (parking : Parking) (h : ParkedOn P db parking)
    (hrow : ∀ k r, db.scheduled.get k = some r → ∃ r', db'.scheduled.get k = some r')
    (hu : ∀ x, Unfinished db x → Unfinished db' x)
    (hb : ∀ x, ScopeBound db' x → ScopeBound db x) : ParkedOn P db' parking := by
  cases parking with
  | anyChild =>
    obtain ⟨k, hne, hk, hfree⟩ := h
    exact ⟨k, hne, hu k hk, fun hbound => hfree (hb k hbound)⟩
  | selected ids =>
    obtain ⟨hsel, i, hi, hui⟩ := h
    exact ⟨hsel.evolves hrow fun j _ => hb j, i, hi, hu i hui⟩
  | allChildren => exact h.elim
  | unwakeable => exact h.elim

theorem parking_congr (p p' : ScheduledTask) (ha : db'.attempts.get P = db.attempts.get P)
    (hrun : p'.runId = p.runId) : parking db' P p' = parking db P p := by
  unfold parking
  rw [ha, hrun]

/-- A task goes on with its work: it neither ends nor is taken up again, and is not
parked or woken. -/
structure Busy (r r' : ScheduledTask) : Prop where
  same : SameTask r r'
  terminal : r'.state = .terminal ↔ r.state = .terminal
  blocked : r'.state = .blocked ↔ r.state = .blocked

theorem Busy.refl (r : ScheduledTask) : Busy r r := ⟨SameTask.refl r, Iff.rfl, Iff.rfl⟩

theorem Busy.trans (a b c : ScheduledTask) (h : Busy a b) (k : Busy b c) : Busy a c :=
  ⟨⟨k.same.runId.trans h.same.runId, k.same.parent.trans h.same.parent,
    k.same.dependencies.trans h.same.dependencies⟩, k.terminal.trans h.terminal,
    k.blocked.trans h.blocked⟩

/- Both states are of a task that is queued or held. -/
theorem Busy.of_open (r r' : ScheduledTask) (hs : SameTask r r') (ht : r.state ≠ .terminal)
    (hb : r.state ≠ .blocked) (ht' : r'.state ≠ .terminal) (hb' : r'.state ≠ .blocked) : Busy r r' :=
  ⟨hs, iff_of_false ht' ht, iff_of_false hb' hb⟩

/-- A step in which no task ends, is parked, is woken or joins. -/
structure Works (db db' : Db) : Prop where
  tasks : Table.Evolves Busy (fun _ => False) db.scheduled db'.scheduled
  logical : Table.Evolves Keeps (fun _ => False) db.logical db'.logical
  attempts : ∀ k r, db.scheduled.get k = some r → r.state = .blocked →
    db'.attempts.get k = db.attempts.get k

theorem Works.trans {a b c : Db} (h : Works a b) (k : Works b c) : Works a c := by
  refine ⟨Table.Evolves.trans Busy.trans (fun _ _ hf _ => hf) h.tasks k.tasks,
    Table.Evolves.trans Keeps.trans (fun _ _ hf _ => hf) h.logical k.logical, ?_⟩
  intro i r hr hs
  obtain ⟨r1, hr1, hb⟩ := h.tasks.forth i r hr
  exact (k.attempts i r1 hr1 (hb.blocked.mpr hs)).trans (h.attempts i r hr hs)

/- Only other tables change. -/
theorem Works.of_eq (hs : db'.scheduled = db.scheduled) (hl : db'.logical = db.logical)
    (ha : db'.attempts = db.attempts) : Works db db' := by
  refine ⟨?_, ?_, ?_⟩
  · rw [hs]; exact .refl Busy.refl _
  · rw [hl]; exact .refl Keeps.refl _
  · rw [ha]; exact fun _ _ _ _ => rfl

theorem Works.asks (h : Works db db') (x : UUID) : Asks db x ↔ Asks db' x := by
  constructor
  · rintro ⟨r, hr, hp⟩
    obtain ⟨paths, hpaths⟩ := Option.isSome_iff_exists.mp hp
    have hs := scopeRequestPending_blocked db x r paths hpaths
    obtain ⟨r', hr', hb⟩ := h.tasks.forth x r hr
    exact (asks_congr x r r' hr hr' ((hb.blocked.mpr hs).trans hs.symm) hb.same.runId
      (h.attempts x r hr hs)).mp ⟨r, hr, hp⟩
  · rintro ⟨r', hr', hp⟩
    obtain ⟨paths, hpaths⟩ := Option.isSome_iff_exists.mp hp
    have hs := scopeRequestPending_blocked db' x r' paths hpaths
    obtain ⟨r, hr, hb⟩ := h.tasks.origin x r' hr'
    have hold := hb.blocked.mp hs
    exact (asks_congr x r r' hr hr' (hs.trans hold.symm) hb.same.runId
      (h.attempts x r hr hold)).mpr ⟨r', hr', hp⟩

theorem Works.unfinished (h : Works db db') (x : UUID) : Unfinished db x ↔ Unfinished db' x := by
  constructor
  · rintro ⟨r, hr, hs⟩
    obtain ⟨r', hr', hb⟩ := h.tasks.forth x r hr
    exact ⟨r', hr', fun ht => hs (hb.terminal.mp ht)⟩
  · rintro ⟨r', hr', hs⟩
    obtain ⟨r, hr, hb⟩ := h.tasks.origin x r' hr'
    exact ⟨r, hr, fun ht => hs (hb.terminal.mpr ht)⟩

theorem Works.scopeBound (h : Works db db') (x : UUID) (hb : ScopeBound db' x) : ScopeBound db x := by
  refine scopeBound_mono ?_ (fun x => (h.asks x).mpr) x hb
  intro x r' hr' hs
  obtain ⟨r, hr, hbusy⟩ := h.tasks.origin x r' hr'
  exact ⟨r, hr, fun ht => hs (hbusy.terminal.mpr ht), hbusy.same.dependencies⟩

theorem Family.works (h : Family R P db) (hw : Works db db') : Family R P db' := by
  refine h.evolves (fun k => (hw.tasks k).mono (fun _ _ hb => hb.same) fun _ hf => hf) hw.logical ?_
  intro k r' hr' hne hs
  obtain ⟨r, hr, hb⟩ := hw.tasks.origin k r' hr'
  exact (hw.asks k).mp (h.asking k r hr hne (hb.blocked.mp hs))

theorem Sound.works (h : Sound R P db) (hw : Works db db') : Sound R P db' := by
  refine ⟨h.family.works hw, ?_⟩
  intro p' hp' hs'
  obtain ⟨p, hp, hb⟩ := hw.tasks.origin P p' hp'
  have hs := hb.blocked.mp hs'
  rw [parking_congr p p' (hw.attempts P p hp hs) hb.same.runId]
  exact (h.parked p hp hs).evolves _ hw.tasks.kept (fun x => (hw.unfinished x).mp) hw.scopeBound

end steps

end ParallelForge.Scheduling
