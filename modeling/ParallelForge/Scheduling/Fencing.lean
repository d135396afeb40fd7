import ParallelForge.Scheduling.Dependencies

/-!
# Lease fencing

A lease is an owner and a generation, and a generation is never used twice.
An operation presented with another lease, or with one that has ended, does
nothing; a stop recorded on the task turns every later settlement under the
lease into a rejection. A stop of the whole run is not looked at when an
effect settles.
-/

namespace ParallelForge.Scheduling
open Base Run

variable {pathKey : String → String}

/-- How a row may change in any step, with the lease generation in view. -/
structure Advances (r r' : ScheduledTask) : Prop where
  runId : r'.runId = r.runId
  generation : r.leaseGeneration ≤ r'.leaseGeneration
  kept : r'.leaseGeneration = r.leaseGeneration → r'.state = .leased →
    r.state = .leased ∧ (r.stopped = true → r'.stopped = true)

theorem Advances.refl (r : ScheduledTask) : Advances r r :=
  ⟨rfl, le_refl _, fun _ hs => ⟨hs, id⟩⟩

theorem Advances.trans (a b c : ScheduledTask) (h : Advances a b) (k : Advances b c) :
    Advances a c := by
  refine ⟨k.runId.trans h.runId, h.generation.trans k.generation, ?_⟩
  intro hgen hs
  have hab := h.generation
  have hbc := k.generation
  have hc : c.leaseGeneration = b.leaseGeneration := by omega
  have hb : b.leaseGeneration = a.leaseGeneration := by omega
  obtain ⟨hsb, hstop⟩ := k.kept hc hs
  obtain ⟨hsa, hstop'⟩ := h.kept hb hsb
  exact ⟨hsa, fun h => hstop (hstop' h)⟩

theorem Touch.advances {r r' : ScheduledTask} (h : Touch r r') : Advances r r' := by
  refine ⟨h.runId, h.generation.ge, ?_⟩
  intro _ hs
  obtain ⟨hl, -, hstop⟩ := h.leased hs
  exact ⟨hl, hstop⟩

/- A grant moves the generation, so that it keeps nothing of the last lease. -/
theorem leaseRow_advances (cx : ClaimContext) (row : ScheduledTask) (p : String) :
    Advances row (leaseRow cx { row with provider := p }) := by
  have hgen : (leaseRow cx { row with provider := p }).leaseGeneration = row.leaseGeneration + 1 := rfl
  refine ⟨rfl, by omega, ?_⟩
  intro h _
  omega

/-- A step moves rows forward, and withdraws the stop of a run only when none of
its tasks keeps a lease. -/
structure Forward (db db' : Db) : Prop where
  tasks : ∀ k r, db.scheduled.get k = some r → ∃ r', db'.scheduled.get k = some r' ∧ Advances r r'
  stops : ∀ k r r', db.scheduled.get k = some r → db'.scheduled.get k = some r' →
    r'.leaseGeneration = r.leaseGeneration → r'.state = .leased →
    runStopped db.env r.runId = true → runStopped db'.env r.runId = true

theorem Forward.trans {a b c : Db} (h : Forward a b) (k : Forward b c) : Forward a c := by
  constructor
  · intro i r hr
    obtain ⟨r1, hr1, h1⟩ := h.tasks i r hr
    obtain ⟨r2, hr2, h2⟩ := k.tasks i r1 hr1
    exact ⟨r2, hr2, h1.trans _ _ _ h2⟩
  · intro i r r2 hr hr2 hgen hs hstop
    obtain ⟨r1, hr1, h1⟩ := h.tasks i r hr
    obtain ⟨r2', hr2', h2⟩ := k.tasks i r1 hr1
    cases hr2.symm.trans hr2'
    have hab := h1.generation
    have hbc := h2.generation
    have hc : r2.leaseGeneration = r1.leaseGeneration := by omega
    have hb : r1.leaseGeneration = r.leaseGeneration := by omega
    have hmid := h.stops i r r1 hr hr1 hb (h2.kept hc hs).1 hstop
    rw [← h1.runId] at hmid ⊢
    exact k.stops i r1 r2 hr1 hr2 hc hs hmid

theorem Quiet.forward {db db' : Db} (h : Quiet db db') : Forward db db' := by
  constructor
  · intro k r hr
    obtain ⟨r', hr', ht⟩ := h.tasks.forth k r hr
    exact ⟨r', hr', ht.advances⟩
  · intro k r r' hr hr' _ hs hstop
    obtain ⟨r1, hr1, ht⟩ := h.tasks.forth k r hr
    cases hr1.symm.trans hr'
    rcases h.stops r.runId hstop with hkeep | hidle
    · exact hkeep
    · exact absurd hs (hidle k r' hr' ht.runId)

/- Nothing moves a task or a run. -/
theorem Forward.of_eq {db db' : Db} (hs : db'.scheduled = db.scheduled) (he : db'.env = db.env) :
    Forward db db' := by
  constructor
  · intro k r hr
    exact ⟨r, by rw [hs]; exact hr, Advances.refl r⟩
  · intro k r r' _ _ _ _ hstop
    rw [he]
    exact hstop

theorem GrantFrom.forward {db db' : Db} {cx : ClaimContext} {id : UUID} {row : ScheduledTask}
    (h : GrantFrom db db' cx id row) (hget : db.scheduled.get id = some row) : Forward db db' := by
  constructor
  · intro k r hr
    by_cases hk : k = id
    · subst hk
      cases hr.symm.trans hget
      obtain ⟨p, hp⟩ := h.task
      exact ⟨_, hp, leaseRow_advances cx _ p⟩
    · exact ⟨r, by rw [h.others k hk]; exact hr, Advances.refl r⟩
  · intro k r r' _ _ _ _ hstop
    rw [h.env]
    exact hstop

theorem StepKind.forward {db db' : Db} {a : Action} (h : StepKind pathKey db a db') :
    Forward db db' := by
  cases h with
  | quiet hq => exact hq.forward
  | granted cx mid id row run ha hq hc hg => exact hq.forward.trans (hg.forward hc.get)
  | admitted lease request now row run ha hc hd => rw [hd]; exact Forward.of_eq rfl rfl
  | began runId run ha hr hs hd => rw [hd]; exact Forward.of_eq rfl rfl
  | closed runId epoch run ha hr hs ht he hd => rw [hd]; exact Forward.of_eq rfl rfl
  | reopened mid runId run hq hr hs hd =>
    have hmove : Forward mid (mid.putRun runId (reopenCandidate run)) := Forward.of_eq rfl rfl
    exact (hq.forward.trans hmove).trans hd.forward

/-- A whole run moves forward. -/
theorem run_forward (db : Db) (actions : List Action) :
    Forward db (run (step pathKey) db actions) := by
  refine run_climbs (step pathKey) Forward (fun db => Forward.of_eq rfl rfl) ?_ ?_ db actions
  · intro a b c h k
    exact h.trans k
  · intro db a
    exact (@step_kind pathKey db a).forward

section operations

/-- The lease is not its task's current one, or it has ended. -/
def NotHeld (db : Db) (lease : TaskLease) (now : ℤ) : Prop := ∀ row, ¬ Holds db lease now row

/-- What a lease that is not held cannot do. -/
structure Powerless (pathKey : String → String) (db : Db) (lease : TaskLease) (now : ℤ) : Prop where
  renew : ∀ leaseFor out, renew db lease leaseFor now ≠ .ok out
  finish : ∀ successful allowRepair out, finish db lease successful allowRepair now ≠ .ok out
  deferQuota : ∀ out, deferQuota db lease now ≠ .ok out
  admitEffect : ∀ request out, admitEffect pathKey db lease request now ≠ .ok out
  settleEffect : ∀ effectId epoch accepted out result,
    settleEffect db ⟨effectId, lease, epoch⟩ accepted now = .ok (out, result) → result = false

/- An accepted settlement is made under the current lease of an unstopped task. -/
theorem settled_holds (db db' : Db) (effect : TaskEffectLease) (accepted : Bool) (now : ℤ)
    (h : settleEffect db effect accepted now = .ok (db', true)) :
    accepted = true ∧ ∃ row, Holds db effect.taskLease now row ∧ row.stopped = false := by
  obtain ⟨e, -, -, hresult, -⟩ := settleEffect_eq_ok db db' effect accepted true now h
  have hboth := Bool.and_eq_true_iff.mp hresult.symm
  obtain ⟨row, hrow, hstop⟩ := (Option.any_eq_true _ _).mp hboth.2
  rw [holdsLease_eq_some] at hrow
  exact ⟨hboth.1, row, hrow, by simpa using hstop⟩

theorem powerless_of_notHeld (db : Db) (lease : TaskLease) (now : ℤ) (h : NotHeld db lease now) :
    Powerless pathKey db lease now := by
  refine ⟨?_, ?_, ?_, ?_, ?_⟩
  · intro leaseFor out hok
    obtain ⟨-, row, hrow⟩ := renew_quiet db out.1 lease out.2 leaseFor now hok
    exact h row hrow
  · intro successful allowRepair out hok
    obtain ⟨-, row, hrow⟩ := finish_quiet db out lease successful allowRepair now hok
    exact h row hrow
  · intro out hok
    obtain ⟨-, row, hrow⟩ := deferQuota_quiet db out lease now hok
    exact h row hrow
  · intro request out hok
    obtain ⟨⟨row, hrow⟩, -⟩ := admitEffect_eq_ok db out.1 lease request now out.2 hok
    exact h row hrow
  · intro effectId epoch accepted out result hok
    cases result with
    | false => rfl
    | true =>
      obtain ⟨-, row, hrow, -⟩ := settled_holds db out ⟨effectId, lease, epoch⟩ accepted now hok
      exact absurd hrow (h row)

/-- A granted lease carries the next generation of its task. -/
theorem claim_generation (db db' : Db) (cx : ClaimContext) (lease : TaskLease)
    (h : claimReady pathKey db cx = .ok (db', some lease)) :
    ∃ r r', db.scheduled.get lease.taskId = some r ∧ db'.scheduled.get lease.taskId = some r' ∧
      r'.leaseGeneration = lease.generation ∧ r.leaseGeneration < r'.leaseGeneration := by
  obtain ⟨r, hr, -⟩ := claimReady_dependencies db db' cx lease h
  rcases claimReady_eq_ok db db' cx (some lease) h with ⟨hn, -⟩ | ⟨mid, id, row, run, hq, hc, hg, hl⟩
  · cases hn
  · cases hl
    obtain ⟨p, hp⟩ := hg.task
    obtain ⟨row', hrow', ht⟩ := hq.tasks.forth id r hr
    cases hc.get.symm.trans hrow'
    have hgen := ht.generation
    have hnew : (leaseRow cx { row with provider := p }).leaseGeneration = row.leaseGeneration + 1 :=
      rfl
    exact ⟨r, _, hr, hp, hnew, by omega⟩

end operations

section stops

/-- A stop on the task itself or on its run. -/
def stopRecorded (db : Db) (r : ScheduledTask) : Bool := r.stopped || runStopped db.env r.runId

/-- No settlement asks for acceptance under a running lease of a task that is not
stopped itself while its run is paused or cancelled. -/
def RunStopHeeded (db : Db) : Action → Prop
  | .settleEffect effect accepted now => accepted = true →
      ∀ row, Holds db effect.taskLease now row → row.stopped = false →
        runStopped db.env row.runId = false
  | _ => True

/-- Later, a lease that was there when the stop was recorded is lost, or the stop
is still there. -/
theorem stop_stays (db : Db) (actions : List Action) (id : UUID) (r : ScheduledTask)
    (hr : db.scheduled.get id = some r) (hstop : stopRecorded db r = true) :
    ∃ r', (run (step pathKey) db actions).scheduled.get id = some r' ∧
      r.leaseGeneration ≤ r'.leaseGeneration ∧
      (r'.leaseGeneration = r.leaseGeneration → r'.state = .leased →
        stopRecorded (run (step pathKey) db actions) r' = true) := by
  have hf := @run_forward pathKey db actions
  obtain ⟨r', hr', hadv⟩ := hf.tasks id r hr
  refine ⟨r', hr', hadv.generation, ?_⟩
  intro hgen hs
  rw [stopRecorded, Bool.or_eq_true] at hstop ⊢
  rcases hstop with htask | hrun
  · exact Or.inl ((hadv.kept hgen hs).2 htask)
  · right
    rw [hadv.runId]
    exact hf.stops id r r' hr hr' hgen hs hrun

/-- A settlement under a lease older than a recorded stop is accepted only past a
stop of the run. -/
theorem settled_past_stop (db : Db) (actions : List Action) (id : UUID) (r : ScheduledTask)
    (hr : db.scheduled.get id = some r) (hstop : stopRecorded db r = true)
    (effect : TaskEffectLease) (accepted : Bool) (now : ℤ) (out : Db)
    (hid : effect.taskLease.taskId = id) (hgen : effect.taskLease.generation ≤ r.leaseGeneration)
    (h : settleEffect (run (step pathKey) db actions) effect accepted now = .ok (out, true)) :
    ¬ RunStopHeeded (run (step pathKey) db actions) (.settleEffect effect accepted now) := by
  intro hheed
  obtain ⟨hacc, row, hrow, hun⟩ := settled_holds _ out effect accepted now h
  obtain ⟨r', hr', hle, hkeep⟩ := @stop_stays pathKey db actions id r hr hstop
  have hsame : row = r' := by
    have hget := hrow.get
    rw [hid, hr'] at hget
    exact (Option.some.inj hget).symm
  subst hsame
  have hown := hrow.generation
  have heq : row.leaseGeneration = r.leaseGeneration := by omega
  have hstill := hkeep heq hrow.leased
  rw [stopRecorded, hun, Bool.false_or] at hstill
  rw [hheed hacc row hrow hun] at hstill
  cases hstill

end stops

/-- Fencing across a run cut in two: `db` is the state at the cut. -/
structure LeaseFencing (pathKey : String → String) (db : Db) (after : List Action) : Prop where
  generations : ∀ id r, db.scheduled.get id = some r →
    ∃ r', (run (step pathKey) db after).scheduled.get id = some r' ∧
      r.leaseGeneration ≤ r'.leaseGeneration
  claims : ∀ cx db' lease, claimReady pathKey db cx = .ok (db', some lease) →
    ∃ r r', db.scheduled.get lease.taskId = some r ∧ db'.scheduled.get lease.taskId = some r' ∧
      r'.leaseGeneration = lease.generation ∧ r.leaseGeneration < r'.leaseGeneration
  powerless : ∀ lease now, NotHeld db lease now → Powerless pathKey db lease now
  stops : ∀ id r, db.scheduled.get id = some r → stopRecorded db r = true →
    ∀ before effect accepted now rest out result,
      after = before ++ .settleEffect effect accepted now :: rest →
      effect.taskLease.taskId = id → effect.taskLease.generation ≤ r.leaseGeneration →
      settleEffect (run (step pathKey) db before) effect accepted now = .ok (out, result) →
      result = false

/-- In every run whose settlements heed the stops of their runs, leases are fenced
wherever the run is cut. -/
theorem leases_fenced (pathKey : String → String) (env : Surroundings) (actions : List Action)
    (hok : Along (step pathKey) RunStopHeeded (Db.init env) actions) (before after : List Action)
    (hcut : actions = before ++ after) : LeaseFencing pathKey (reach pathKey env before) after := by
  subst hcut
  have hafter : Along (step pathKey) RunStopHeeded (reach pathKey env before) after :=
    ((along_append (step pathKey) RunStopHeeded (Db.init env) before after).mp hok).2
  generalize reach pathKey env before = db at hafter ⊢
  refine ⟨?_, ?_, ?_, ?_⟩
  · intro id r hr
    obtain ⟨r', hr', hadv⟩ := (@run_forward pathKey db after).tasks id r hr
    exact ⟨r', hr', hadv.generation⟩
  · intro cx db' lease h
    exact claim_generation db db' cx lease h
  · intro lease now h
    exact powerless_of_notHeld db lease now h
  · intro id r hr hstop mid effect accepted now rest out result hsplit hid hgen h
    cases result with
    | false => rfl
    | true =>
      subst hsplit
      have hheed := along_at (step pathKey) RunStopHeeded db mid rest _ hafter
      exact absurd hheed (settled_past_stop db mid id r hr hstop effect accepted now out hid hgen h)

/-- The primary of run 9 is leased and has an effect admitted. -/
def effectPending : List Action :=
  .admitRun 9 :: sampleTask (sampleContract 1 none [] ["src"]) 0 ++
    [.claim (sampleClaim "p" 10),
      .admitEffect ⟨9, 1, "p", 1, 60000010⟩ ⟨100, ["src"], false, none⟩ 20]

def pendingSettlement : TaskEffectLease := ⟨100, ⟨9, 1, "p", 1, 60000010⟩, 0⟩

/- The task is paused: its settlement is turned into a rejection. -/
theorem paused_settlement_rejected :
    ∃ out, settleEffect (reach id sampleEnv (effectPending ++ [.requestStop 9 1 false]))
        pendingSettlement true 30 = .ok (out, false) ∧
      LeaseFencing id (reach id sampleEnv (effectPending ++ [.requestStop 9 1 false]))
        [.settleEffect pendingSettlement true 30] := by
  have hok : Along (step id) RunStopHeeded (Db.init sampleEnv)
      ((effectPending ++ [.requestStop 9 1 false]) ++ [.settleEffect pendingSettlement true 30]) := by
    refine ⟨trivial, trivial, trivial, trivial, trivial, trivial, ?_, trivial⟩
    intro _ row hrow hun
    have hstop : ((reach id sampleEnv (effectPending ++ [.requestStop 9 1 false])).scheduled.get 1).all
        (·.stopped) = true := by decide +kernel
    have hget : (reach id sampleEnv (effectPending ++ [.requestStop 9 1 false])).scheduled.get 1
        = some row := hrow.get
    rw [hget] at hstop
    rw [show row.stopped = true from hstop] at hun
    cases hun
  have hsettled : (settleEffect (reach id sampleEnv (effectPending ++ [.requestStop 9 1 false]))
      pendingSettlement true 30).toOption.map Prod.snd = some false := by decide +kernel
  have hfence := leases_fenced id sampleEnv _ hok (effectPending ++ [.requestStop 9 1 false])
    [.settleEffect pendingSettlement true 30] rfl
  cases hout : settleEffect (reach id sampleEnv (effectPending ++ [.requestStop 9 1 false]))
      pendingSettlement true 30 with
  | error e => rw [hout] at hsettled; cases hsettled
  | ok out =>
    rw [hout] at hsettled
    obtain ⟨db', result⟩ := out
    cases hsettled
    exact ⟨db', rfl, hfence⟩

/-- The run is paused, its task is not. -/
def pausedEnv : Surroundings :=
  { sampleEnv with runs := fun k => if k = 9 then some ⟨.paused, none⟩ else none }

/- Under the lease that the pause found, the settlement is accepted. -/
theorem paused_run_settlement_accepted :
    ¬ LeaseFencing id (reach id sampleEnv (effectPending ++ [.environment pausedEnv]))
      [.settleEffect pendingSettlement true 30] := by
  intro h
  have hrow : ((reach id sampleEnv (effectPending ++ [.environment pausedEnv])).scheduled.get 1).any
      (fun r => stopRecorded (reach id sampleEnv (effectPending ++ [.environment pausedEnv])) r &&
        r.leaseGeneration == 1) = true := by decide +kernel
  have hsettled : (settleEffect (reach id sampleEnv (effectPending ++ [.environment pausedEnv]))
      pendingSettlement true 30).toOption.map Prod.snd = some true := by decide +kernel
  obtain ⟨r, hr, hp⟩ := (Option.any_eq_true _ _).mp hrow
  simp only [Bool.and_eq_true, beq_iff_eq] at hp
  cases hout : settleEffect (reach id sampleEnv (effectPending ++ [.environment pausedEnv]))
      pendingSettlement true 30 with
  | error e => rw [hout] at hsettled; cases hsettled
  | ok out =>
    rw [hout] at hsettled
    obtain ⟨db', result⟩ := out
    have hresult : result = false := h.stops 1 r hr hp.1 [] pendingSettlement true 30 [] db' result
      rfl rfl (by rw [hp.2]; decide) hout
    subst hresult
    cases hsettled

end ParallelForge.Scheduling
