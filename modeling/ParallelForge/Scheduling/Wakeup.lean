import ParallelForge.Scheduling.FamilyGrowth

/-!
# No lost wake-up

Every run of one primary and its children, by decisions, completions and
failures. A primary that is parked on selected children is woken only by them:
it sleeps through the scope request of a child that they wait for. `Foreseen`
keeps such waits out of a run, and then somebody can always go on.
-/

namespace ParallelForge.Scheduling
open Base Run Relation

variable {pathKey : String → String} {R P : UUID} {db db' : Db}

/-- The steps of an open candidate without stops: the primary is created and
enqueued first, and everybody else joins by a delegation. A parked task has no
attempt to write, and no claim meets a contract that planning left behind. -/
def isMove (pathKey : String → String) (R P : UUID) (db : Db) : Action → Bool
  | .createTask c => c.taskId == P && c.runId == R && c.parentTaskId.isNone
  | .enqueue task _ => task.taskId == P
  | .attempt k _ => (db.scheduled.get k).all fun r => r.state != .blocked
  | .claim cx => (candidates (expireLeases cx db) cx).all fun k =>
      examine pathKey (expireLeases cx db) cx k != .stale
  | .delegate _ _ _ _ reopening => !reopening
  | .taskControl _ _ | .requestStop _ _ _ | .resumeTask _ _ => false
  | .yieldToChildren _ _ _ => false
  | .beginCandidate _ | .closeCandidate _ _ => false
  | .reopenForRepair _ _ _ | .rejectCandidateMismatch _ _ _ => false
  | _ => true

/-- A step of the family that does not end its primary. -/
def Move (pathKey : String → String) (R P : UUID) (db : Db) (a : Action) : Prop :=
  isMove pathKey R P db a = true ∧
    ((step pathKey db a).scheduled.get P).all (fun p => p.state != .terminal) = true

instance (a : Action) : Decidable (Move pathKey R P db a) := instDecidableAnd

/-- Whom the primary is parked on, none of them can come to need an answer of it
that only somebody else asks for. -/
def Foreseen (P : UUID) (db : Db) : Action → Prop
  | .wait cx _ _ ids => cx.pendingFeedback = false →
      (∀ i ∈ ids, ¬ Asks db i) → ∀ i ∈ ids, ¬ ScopeBound db i
  | .scopeRequest _ _ id _ => ∀ p ids, db.scheduled.get P = some p → p.state = .blocked →
      parking db P p = .selected ids → id ∉ ids → ∀ i ∈ ids, ¬ ReflTransGen (WaitsFor db) i id
  | .reassign cx _ _ childId _ => cx.pendingFeedback = false →
      ∀ r, db.scheduled.get childId = some r → ∀ d ∈ r.dependencyTaskIds, ¬ ScopeBound db d
  | .delegate cx _ _ children _ => cx.pendingFeedback = false → SomebodyFree P db children
  | .forwardFeedback cx fx _ _ targetId _ => cx.pendingFeedback = false →
      ∀ target row, db.logical.get targetId = some target → db.scheduled.get targetId = some row →
        row.state = .terminal → (∀ x, ¬ Asks db x) →
        if forwardCloses fx target row then fx.primaryBudget = true
        else forwardSettled target row = true
  | .requeueUndelivered _ taskId _ _ _ => ∀ p, db.scheduled.get P = some p → p.state = .blocked →
      ∀ r, db.scheduled.get taskId = some r → ∀ d ∈ r.dependencyTaskIds, ¬ ScopeBound db d
  | _ => True

theorem Sound.transaction (h : Sound R P db) (a : Action) (ht : a.transaction pathKey db = .ok db')
    (hm : isMove pathKey R P db a = true)
    (halive : ∀ p, db'.scheduled.get P = some p → p.state ≠ .terminal) (hf : Foreseen P db a) :
    Sound R P db' := by
  cases a with
  | environment env => exact h.works (changeSurroundings_works env ht)
  | attempt id a =>
    cases ht
    refine h.works (works_putAttempt id a ?_)
    intro r hr hb
    simp only [isMove, hr, Option.all_some, hb] at hm
    cases hm
  | logicalState id state =>
    cases ht
    refine h.works ⟨.refl Busy.refl _, ?_, fun _ _ _ _ => rfl⟩
    exact Table.evolves_modify Keeps.refl _ id _ fun t _ => Keeps.moveTo t state
  | bindOperation effectId b =>
    cases ht
    exact h.works (bindOperation_works effectId b)
  | createTask c =>
    simp only [isMove, Bool.and_eq_true, beq_iff_eq, Option.isNone_iff_eq_none] at hm
    exact h.createPrimary hm.1.1 hm.1.2 hm.2 ht
  | enqueue task now =>
    simp only [isMove, beq_iff_eq] at hm
    exact h.enqueuePrimary task now hm ht
  | admitRun runId =>
    cases ht
    exact h.works (admitRun_works runId)
  | claim cx =>
    simp only [Action.transaction, map_eq_ok, Prod.exists] at ht
    obtain ⟨db1, result, ht, rfl⟩ := ht
    simp only [isMove, List.all_eq_true, bne_iff_ne] at hm
    exact h.works (claim_works cx result hm ht)
  | admitAttempt lease current now => exact h.works (admitAttempt_works lease current now ht)
  | retireAttempt lease disposition =>
    cases ht
    exact h.works (retireAttempt_works lease disposition)
  | markExpired lease now =>
    cases ht
    exact h.works (markExpired_works lease now)
  | renew lease leaseFor now =>
    simp only [Action.transaction, map_eq_ok, Prod.exists] at ht
    obtain ⟨db1, renewed, ht, rfl⟩ := ht
    exact h.works (renew_works lease renewed leaseFor now ht)
  | finish lease successful allowRepair now =>
    exact h.finish lease successful allowRepair now ht halive
  | deferQuota lease now => exact h.works (deferQuota_works lease now ht)
  | admitEffect lease request now =>
    simp only [Action.transaction, map_eq_ok, Prod.exists] at ht
    obtain ⟨db1, granted, ht, rfl⟩ := ht
    exact h.works (admitEffect_works lease request now granted ht)
  | settleEffect effect accepted now =>
    simp only [Action.transaction, map_eq_ok, Prod.exists] at ht
    obtain ⟨db1, result, ht, rfl⟩ := ht
    exact h.works (settleEffect_works effect accepted result now ht)
  | reconcileEffect effect => exact h.works (reconcileEffect_works effect ht)
  | reconcileExpired runId taskId retry => exact h.reconcileExpired runId taskId retry ht halive
  | delegate cx runId id children reopening =>
    simp only [isMove, Bool.not_eq_true'] at hm
    subst hm
    exact h.delegate cx runId id children ht halive hf
  | wait cx runId id ids => exact h.wait cx runId id ids ht halive hf
  | scopeRequest cx runId id paths => exact h.scopeRequest cx runId id paths ht halive hf
  | scopeResponse cx runId id childId granted denied =>
    exact h.scopeResponse cx runId id childId granted denied ht halive
  | reassign cx runId id childId route => exact h.reassign cx runId id childId route ht halive hf
  | forwardFeedback cx fx runId id targetId receiptId =>
    exact h.forwardFeedback cx fx runId id targetId receiptId ht hf
  | requeueUndelivered runId taskId delivering remaining capacityPending =>
    cases ht
    exact h.requeueUndelivered runId taskId delivering remaining capacityPending hf
  | taskControl id cancel => cases hm
  | yieldToChildren lease children now => cases hm
  | beginCandidate runId => cases hm
  | closeCandidate runId epoch => cases hm
  | requestStop runId taskId cancel => cases hm
  | resumeTask id restored => cases hm
  | reopenForRepair runId id affordable => cases hm
  | rejectCandidateMismatch runId id affordable => cases hm

/- The primary of a state that a move led to is not over. -/
theorem Move.alive {a : Action} (h : Move pathKey R P db a) (p : ScheduledTask)
    (hp : (step pathKey db a).scheduled.get P = some p) : p.state ≠ .terminal := by
  have hall := h.2
  rw [hp, Option.all_some, bne_iff_ne] at hall
  exact hall

/-- Sound tables whose primary is not over. -/
structure Running (R P : UUID) (db : Db) : Prop where
  sound : Sound R P db
  alive : ∀ p, db.scheduled.get P = some p → p.state ≠ .terminal

theorem Running.step (h : Running R P db) (a : Action) (hm : Move pathKey R P db a)
    (hf : Foreseen P db a) : Running R P (step pathKey db a) := by
  refine ⟨?_, hm.alive⟩
  have halive := hm.alive
  unfold Scheduling.step at halive ⊢
  split
  · next db' ht =>
    rw [ht] at halive
    exact h.sound.transaction a ht hm.1 halive hf
  · exact h.sound

/-- Nobody waits for a wake-up that does not come: while a task is unfinished, some
task is at work or can be claimed, and the children of a parked primary do not
all need an answer of it. -/
structure NoLostWakeup (P : UUID) (db : Db) : Prop where
  progress : Progress db
  parked : ∀ p, db.scheduled.get P = some p → p.state = .blocked →
    ∃ k, k ≠ P ∧ Unfinished db k ∧ ¬ ScopeBound db k

theorem no_lost_wakeup (pathKey : String → String) (R P : UUID) (env : Surroundings)
    (actions : List Action) (hm : Along (step pathKey) (Move pathKey R P) (Db.init env) actions)
    (hok : Along (step pathKey) (Foreseen P) (Db.init env) actions) :
    NoLostWakeup P (reach pathKey env actions) := by
  have hinit : Running R P (Db.init env) := by
    refine ⟨Sound.of_unscheduled ?_ ?_, ?_⟩
    · exact fun k r hr => by cases hr
    · exact fun k t ht => by cases ht
    · exact fun p hp => by cases hp
  have hrun : Running R P (reach pathKey env actions) := by
    refine run_invariant_along (step pathKey) (fun db a => Move pathKey R P db a ∧ Foreseen P db a)
      (Running R P) ?_ (Db.init env) actions hinit ((along_and _ _ _ _ _).mpr ⟨hm, hok⟩)
    intro db a h hboth
    exact h.step a hboth.1 hboth.2
  refine ⟨hrun.sound.progress hrun.alive, ?_⟩
  intro p hp hb
  exact (hrun.sound.parked p hp hb).free _

/- Nobody is bound where nobody asks. -/
theorem not_scopeBound_of_any
    (h : (db.scheduled.any fun k r => (scopeRequestPending db k r).isSome) = false) (x : UUID) :
    ¬ ScopeBound db x := by
  rintro ⟨a, -, r, hr, hp⟩
  have hnone := (Table.any_eq_false _ _).mp h a r hr
  rw [hp] at hnone
  cases hnone

def sampleDecision (now : ℤ) : DecisionContext := ⟨now, true, true, false, false⟩

/-- A claimed task whose attempt ends with a decision to apply. -/
def decidingAttempt (id : UUID) (generation : ℕ) (now : ℤ) : List Action :=
  let lease : TaskLease := ⟨9, id, "w", generation, now + 60000000⟩
  [.claim (sampleClaim "w" now), .admitAttempt lease true (now + 1),
    .retireAttempt lease .decisionPending]

/-- The primary delegates to workers 2, 3 and 4, of whom 4 depends on 3. -/
def sampleChildren : List LogicalTaskContract :=
  [sampleContract 2 (some 1) [] ["src/a"], sampleContract 3 (some 1) [] ["src/b"],
    sampleContract 4 (some 1) [3] ["src/c"]]

/-- Worker 2 finishes, and the primary that it woke decides again. -/
def decidedAgain : List Action :=
  .admitRun 9 :: sampleTask (sampleContract 1 none [] ["src"]) 0 ++ decidingAttempt 1 1 10 ++
    [.delegate (sampleDecision 20) 9 1 sampleChildren false, .claim (sampleClaim "w" 30),
      .finish ⟨9, 2, "w", 1, 60000030⟩ true true 40] ++ decidingAttempt 1 2 50

def waitingRun : List Action := decidedAgain ++ [.wait (sampleDecision 60) 9 1 [4]]

/- The primary waits for worker 4, which waits for worker 3, which can be claimed. -/
theorem waiting_primary_not_lost :
    ((reach id sampleEnv waitingRun).scheduled.get 1).map (·.state) = some .blocked ∧
      NoLostWakeup 1 (reach id sampleEnv waitingRun) := by
  refine ⟨by decide +kernel, no_lost_wakeup id 9 1 sampleEnv waitingRun (by decide +kernel) ?_⟩
  refine ⟨trivial, trivial, trivial, trivial, trivial, trivial, ?_, trivial, trivial, trivial, trivial,
    trivial, ?_, trivial⟩
  · intro _
    exact Or.inr ⟨sampleContract 2 (some 1) [] ["src/a"], List.mem_cons_self, fun d hd => by cases hd⟩
  · intro _ _ i _
    exact not_scopeBound_of_any (by decide +kernel) i

/-- Then worker 3 asks for a path. -/
def lostRun : List Action :=
  waitingRun ++ decidingAttempt 3 1 70 ++ [.scopeRequest (sampleDecision 80) 9 3 ["src/d"]]

/- A state in which every unfinished task is parked or waits for an unfinished one. -/
theorem not_progress_of_any (hopen : (db.scheduled.any fun _ r => r.state != .terminal) = true)
    (hidle : (db.scheduled.any fun _ r => r.live ||
      (r.state == .queued && !hasPendingDependency db r)) = false) : ¬ Progress db := by
  intro h
  obtain ⟨k, r, hr, hs⟩ := (Table.any_iff _ _).mp hopen
  obtain ⟨x, q, hq, hwork⟩ := h ⟨k, r, hr, by simpa using hs⟩
  have hnot := (Table.any_eq_false _ _).mp hidle x q hq
  rcases hwork with hl | hl | ⟨hl, hdeps⟩
  · simp [ScheduledTask.live, hl] at hnot
  · simp [ScheduledTask.live, hl] at hnot
  · simp only [hl, beq_self_eq_true, Bool.true_and, Bool.or_eq_false_iff, Bool.not_eq_false',
      hasPendingDependency, Table.any_iff] at hnot
    obtain ⟨-, d, s, hs, hpend⟩ := hnot
    simp only [Bool.and_eq_true, List.contains_iff_mem, bne_iff_ne] at hpend
    obtain ⟨s', hs', -, hterm⟩ := hdeps d hpend.1.2
    cases hs.symm.trans hs'
    exact hpend.2 hterm

/- The primary sleeps on, worker 3 waits for its answer and worker 4 for worker 3. -/
theorem scope_request_lost :
    Along (step id) (Move id 9 1) (Db.init sampleEnv) lostRun ∧
      ((reach id sampleEnv lostRun).scheduled.get 1).map (·.state) = some .blocked ∧
      ¬ Progress (reach id sampleEnv lostRun) := by
  refine ⟨by decide +kernel, by decide +kernel, ?_⟩
  exact not_progress_of_any (by decide +kernel) (by decide +kernel)

end ParallelForge.Scheduling
