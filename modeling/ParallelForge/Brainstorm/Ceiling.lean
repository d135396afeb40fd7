import ParallelForge.Brainstorm.Claim
import Mathlib.Logic.Relation

/-!
# Admission stays under the ceiling

A claim that admits nothing leaves every total as it was. A claim that admits
adds one reservation to one epic, and the reservation was cut to what is left.
-/

namespace ParallelForge.Brainstorm
open Base Quota Scheduling Budget

/-- What settlement leaves alone on a job. -/
def Job.core (job : Job) : UUID × Option Snapshot × Option ℕ × Bool :=
  (job.epicId, job.snapshot, job.retryAuthorizedUntil, job.overrideUnknownUsage)

def Job.Unretried (job : Job) : Prop :=
  job.retryAuthorizedUntil = none ∧ job.overrideUnknownUsage = false

/-! ### The attempts of an epic -/

section attempts
variable {w w' : World}

/-- An attempt counts for the same epic, with the same scope. -/
def SameScopes (w w' : World) : Prop := ∀ jobId,
  (w'.jobs.get jobId).map (fun job => (job.epicId, job.snapshot)) =
    (w.jobs.get jobId).map fun job => (job.epicId, job.snapshot)

theorem SameScopes.belongs (h : SameScopes w w') (epicId jobId : UUID) :
    ((w'.jobs.get jobId).any fun job => job.epicId == epicId) =
      (w.jobs.get jobId).any fun job => job.epicId == epicId := by
  have hjob := congrArg (fun o => o.any fun p => p.1 == epicId) (h jobId)
  simpa only [Option.any_map, Function.comp_def] using hjob

theorem SameScopes.route (h : SameScopes w w') (jobId : UUID) :
    ((w'.jobs.get jobId).bind (·.snapshot)).map (·.route) =
      ((w.jobs.get jobId).bind (·.snapshot)).map (·.route) := by
  have hjob := congrArg (fun o => (o.bind Prod.snd).map Snapshot.route) (h jobId)
  simpa only [Option.bind_map, Function.comp_def] using hjob

theorem SameScopes.scopeOf (h : SameScopes w w') (attemptId : UUID) (a : Attempt)
    (hadmission : w'.quota.authoring.get attemptId = w.quota.authoring.get attemptId) :
    w'.scopeOf attemptId a = w.scopeOf attemptId a := by
  unfold World.scopeOf
  rw [h.route, hadmission]

theorem SameScopes.epicAttempts (h : SameScopes w w') (hattempts : w'.attempts = w.attempts)
    (hauthoring : w'.quota.authoring = w.quota.authoring) (epicId : UUID) :
    w'.epicAttempts epicId = w.epicAttempts epicId := by
  have hscope : ∀ attemptId a, w'.scopeOf attemptId a = w.scopeOf attemptId a := fun _ _ =>
    h.scopeOf _ _ (by rw [hauthoring])
  unfold World.epicAttempts
  rw [hattempts]
  simp only [h.belongs, hscope]

end attempts

/-! ### Claims that admit nothing -/

/-- What an epic has used and holds, and its ceiling, are as before. -/
structure Quiet (w w' : World) : Prop where
  attempts : w'.attempts = w.attempts
  authoring : w'.quota.authoring = w.quota.authoring
  children : w'.children = w.children
  jobs : ∀ jobId, (w'.jobs.get jobId).map Job.core = (w.jobs.get jobId).map Job.core
  ledgers : ∀ epicId ledger, w.ledgers.get epicId = some ledger →
    w'.ledgers.get epicId = some ledger

section quiet
variable {w w₁ w₂ w' : World} {job job' : Job} {jobId : UUID}

theorem quiet_refl (w : World) : Quiet w w where
  attempts := rfl
  authoring := rfl
  children := rfl
  jobs _ := rfl
  ledgers _ _ h := h

theorem Quiet.trans (h : Quiet w w₁) (h' : Quiet w₁ w₂) : Quiet w w₂ where
  attempts := h'.attempts.trans h.attempts
  authoring := h'.authoring.trans h.authoring
  children := h'.children.trans h.children
  jobs jobId := (h'.jobs jobId).trans (h.jobs jobId)
  ledgers epicId ledger hl := h'.ledgers epicId ledger (h.ledgers epicId ledger hl)

theorem quiet_putJob (hjob : w.jobs.get jobId = some job) (hcore : job'.core = job.core) :
    Quiet w (w.putJob jobId job') where
  attempts := rfl
  authoring := rfl
  children := rfl
  jobs id := by
    show ((w.jobs.put jobId job').get id).map Job.core = _
    rw [Table.get_put]
    split
    · rename_i hid
      rw [hid, hjob]
      exact congrArg some hcore
    · rfl
  ledgers _ _ h := h

theorem quiet_quotaPool (w : World) (key : QuotaPoolKey) : Quiet w (w.quotaPool key) where
  attempts := rfl
  authoring := rfl
  children := rfl
  jobs _ := rfl
  ledgers _ _ h := h

theorem lockEpicLedger_eq_ok {ceiling : TaskBudget} {ledger : EpicLedger}
    (h : w.lockEpicLedger job ceiling = .ok (w', ledger)) :
    Quiet w w' ∧ w'.ledgers.get job.epicId = some ledger ∧ w'.jobs = w.jobs := by
  unfold World.lockEpicLedger at h
  simp only [require_bind_eq_ok] at h
  obtain ⟨_, h⟩ := h
  cases h
  refine ⟨⟨rfl, rfl, rfl, fun _ => rfl, fun epicId ledger hl => ?_⟩, Table.get_put_self .., rfl⟩
  show (w.ledgers.put _ _).get epicId = some ledger
  rw [Table.get_put]
  split
  · rename_i he
    rw [← he, hl]
    rfl
  · exact hl

theorem Quiet.sameScopes (h : Quiet w w') : SameScopes w w' := by
  intro jobId
  have hjob := congrArg (Option.map fun core => (core.1, core.2.1)) (h.jobs jobId)
  simpa only [Option.map_map, Function.comp_def, Job.core] using hjob

theorem Quiet.totals (h : Quiet w w') (legacyHold : TaskBudget) (epicId : UUID) :
    w'.totals legacyHold epicId = w.totals legacyHold epicId := by
  unfold World.totals
  rw [h.sameScopes.epicAttempts h.attempts h.authoring, h.children]

theorem waitQuota_core (job : Job) (pool : QuotaPool) (now : ℤ) :
    (job.waitQuota pool now).core = job.core := by
  unfold Job.waitQuota
  simp only
  split <;> rfl

theorem waitCapacity_core (job : Job) (now : ℤ) : (job.waitCapacity now).core = job.core := by
  unfold Job.waitCapacity
  simp only
  split <;> rfl

end quiet

/-! ### Claims that admit -/

/-- The rows of an attempt were written after its reservation was granted. -/
def Grants (c : ClaimCall) (w w' : World) (jobId : UUID) : Prop :=
  ∃ job snapshot key ledger budget number reserved waits,
    w.jobs.get jobId = some job ∧ job.snapshot = some snapshot ∧
    w.ledgers.get job.epicId = some ledger ∧ ledger.ceiling = some budget ∧
    reservation job snapshot key ledger (w.epicAttempts job.epicId)
      (w.totals (c.epicCeiling.getD snapshot.budget) job.epicId) budget number =
        .ok (some reserved, waits) ∧
    w' = w.grant c jobId job key number reserved

section claim
variable {c : ClaimCall} {w w' : World} {jobId : UUID} {job : Job}

/-- What a turn leaves behind. -/
def Turn.Follows (c : ClaimCall) (w : World) (jobId : UUID) : Turn → Prop
  | .stop w' => Quiet w w'
  | .next w' _ => Quiet w w'
  | .granted w' => ∃ w₁, Quiet w w₁ ∧ Grants c w₁ w' jobId

theorem admitTurn_follows (w₁ : World) (hw : Quiet w w₁) (hjob : w₁.jobs.get jobId = some job)
    {snapshot : Snapshot} {key : QuotaPoolKey} {ledger : EpicLedger} (number : ℕ)
    (hsnapshot : job.snapshot = some snapshot)
    (hledger : w₁.ledgers.get job.epicId = some ledger) :
    (admitTurn c w₁ jobId job snapshot key ledger number).Follows c w jobId := by
  unfold admitTurn
  simp only
  split
  · exact hw.trans (quiet_putJob hjob rfl)
  · rename_i budget hbudget
    split
    · exact hw.trans (quiet_putJob hjob rfl)
    · exact hw.trans (quiet_putJob hjob (waitCapacity_core job c.now))
    · exact hw.trans (quiet_putJob hjob rfl)
    · rename_i reserved waits hreserved
      exact ⟨w₁, hw, job, snapshot, key, ledger, budget, number, reserved, waits, hjob, hsnapshot,
        hledger, hbudget, hreserved, rfl⟩

theorem prepare_snapshot {snapshot : Snapshot} {key : QuotaPoolKey}
    (h : prepare c jobId job = some (snapshot, key)) : job.snapshot = some snapshot := by
  unfold prepare at h
  obtain ⟨s, hs, h⟩ := Option.bind_eq_some_iff.mp h
  split at h
  · obtain ⟨k, _, hk⟩ := Option.map_eq_some_iff.mp h
    cases hk
    exact hs
  · cases h

theorem claimTurn_follows {scope : Option (UUID × QuotaPoolKey)} {turn : Turn}
    (hjob : w.jobs.get jobId = some job) (h : claimTurn c w scope jobId job = .ok turn) :
    turn.Follows c w jobId := by
  unfold claimTurn at h
  split at h
  · cases h
    exact quiet_refl w
  · split at h
    · cases h
      exact quiet_putJob hjob rfl
    · split at h
      · cases h
        exact quiet_putJob hjob rfl
      · rename_i snapshot key hprepare
        split at h
        · cases h
          exact quiet_refl w
        · rw [bind_eq_ok] at h
          obtain ⟨⟨w₁, ledger⟩, hlock, h⟩ := h
          obtain ⟨hquiet, hledger, hjobs⟩ := lockEpicLedger_eq_ok hlock
          have hjob₁ : (w₁.quotaPool key).jobs.get jobId = some job := by
            show w₁.jobs.get jobId = some job
            rw [hjobs, hjob]
          have hquiet₁ := hquiet.trans (quiet_quotaPool w₁ key)
          simp only at h
          split at h
          · cases h
            exact hquiet₁.trans (quiet_putJob hjob₁ (waitQuota_core job _ c.now))
          · cases h
            exact admitTurn_follows _ hquiet₁ hjob₁ _ (prepare_snapshot hprepare) hledger

theorem nextJob_get {seen : List UUID} (h : nextJob c w seen = some (jobId, job)) :
    w.jobs.get jobId = some job := by
  have hmem := List.mem_of_mem_head? (Option.mem_def.mpr h)
  rw [List.mem_insertionSort, Table.mem_select_iff] at hmem
  exact hmem.1

/-- What a claim leaves behind. -/
def Claimed (c : ClaimCall) (w : World) : World × Option UUID → Prop
  | (w', none) => Quiet w w'
  | (w', some jobId) => ∃ w₁, Quiet w w₁ ∧ Grants c w₁ w' jobId

theorem claimed_trans (hw : Quiet w w') {out : World × Option UUID} (h : Claimed c w' out) :
    Claimed c w out := by
  obtain ⟨w₂, admitted⟩ := out
  cases admitted with
  | none => exact hw.trans h
  | some jobId =>
    obtain ⟨w₁, hquiet, hgrants⟩ := h
    exact ⟨w₁, hw.trans hquiet, hgrants⟩

theorem claimLoop_claimed (fuel : ℕ) (w : World) (seen : List UUID)
    (scope : Option (UUID × QuotaPoolKey)) (out : World × Option UUID)
    (h : claimLoop c fuel w seen scope = .ok out) : Claimed c w out := by
  induction fuel generalizing w seen scope with
  | zero =>
    cases h
    exact quiet_refl w
  | succ fuel ih =>
    rw [claimLoop] at h
    split at h
    · cases h
      exact quiet_refl w
    · rename_i jobId job hnext
      rw [bind_eq_ok] at h
      obtain ⟨turn, hturn, h⟩ := h
      have hfollows := claimTurn_follows (nextJob_get hnext) hturn
      cases turn with
      | stop w' =>
        cases h
        exact hfollows
      | next w' scope' => exact claimed_trans hfollows (ih w' _ scope' h)
      | granted w' =>
        cases h
        exact hfollows

theorem claim_claimed (out : World × Option UUID) (h : claim c w = .ok out) : Claimed c w out :=
  claimLoop_claimed 50 w [] none out h

end claim

/-! ### One admission -/

section grant
variable (c : ClaimCall) {w : World} {jobId : UUID} {job : Job} (key : QuotaPoolKey) (number : ℕ)
  (reserved : EpicDimension → Option ℤ)

theorem grant_sameScopes (hjob : w.jobs.get jobId = some job) :
    SameScopes w (w.grant c jobId job key number reserved) := by
  intro id
  show ((w.jobs.put jobId (job.admitted c.attemptId)).get id).map _ = _
  rw [Table.get_put]
  split
  · rename_i hid
    rw [hid, hjob]
    rfl
  · rfl

theorem claim_authoring (store : Quota.Store) (attemptId id : UUID) (now : ℤ) (hid : id ≠ attemptId) :
    (Quota.claim store key attemptId true now).authoring.get id = store.authoring.get id := by
  unfold Quota.claim
  simp only
  split
  · rfl
  · simp only [Bool.not_true, Bool.false_eq_true, if_false]
    split
    · exact Table.get_put_ne _ _ hid
    · exact Table.get_put_ne _ _ hid

/- The new attempt comes last, and only in its own epic. -/
theorem epicAttempts_grant (hjob : w.jobs.get jobId = some job)
    (hfresh : w.attempts.get c.attemptId = none) (epicId : UUID) :
    ∃ scope, (w.grant c jobId job key number reserved).epicAttempts epicId =
      w.epicAttempts epicId ++
        if job.epicId = epicId then [(freshAttempt jobId number reserved, scope)] else [] := by
  have hscopes := grant_sameScopes c key number reserved hjob
  generalize hw' : w.grant c jobId job key number reserved = w' at hscopes
  have hattempts : w'.attempts = w.attempts.put c.attemptId (freshAttempt jobId number reserved) := by
    rw [← hw']
    rfl
  have hauthoring : ∀ id, id ≠ c.attemptId →
      w'.quota.authoring.get id = w.quota.authoring.get id := by
    intro id hid
    rw [← hw']
    exact claim_authoring key w.quota c.attemptId id c.now hid
  refine ⟨w'.scopeOf c.attemptId (freshAttempt jobId number reserved), ?_⟩
  unfold World.epicAttempts
  rw [hattempts, Table.select_put_absent _ _ _ _ hfresh, List.map_append]
  have hown : ((w'.jobs.get jobId).any fun job => job.epicId == epicId) = (job.epicId == epicId) := by
    rw [hscopes.belongs, hjob]
    rfl
  congr 1
  · simp only [hscopes.belongs]
    refine List.map_congr_left fun row hrow => ?_
    have hget := ((Table.mem_select_iff _ _ row.1 row.2).mp hrow).1
    rw [hscopes.scopeOf _ _ (hauthoring row.1 (Table.ne_of_get _ hfresh hget))]
  · show List.map _ (if ((w'.jobs.get jobId).any fun job => job.epicId == epicId) = true then _ else _) = _
    rw [hown]
    by_cases he : job.epicId = epicId
    · simp [he]
    · simp [he]

theorem totals_grant_other (hjob : w.jobs.get jobId = some job)
    (hfresh : w.attempts.get c.attemptId = none) (legacyHold : TaskBudget) (epicId : UUID)
    (hother : epicId ≠ job.epicId) :
    (w.grant c jobId job key number reserved).totals legacyHold epicId =
      w.totals legacyHold epicId := by
  obtain ⟨scope, hattempts⟩ := epicAttempts_grant c key number reserved hjob hfresh epicId
  rw [if_neg hother.symm, List.append_nil] at hattempts
  unfold World.totals
  rw [hattempts]
  rfl

theorem totals_grant_own (hjob : w.jobs.get jobId = some job)
    (hfresh : w.attempts.get c.attemptId = none) (legacyHold : TaskBudget)
    (hpos : ∀ d z, reserved d = some z → 0 ≤ z) (d : EpicDimension) :
    let before := w.totals legacyHold job.epicId
    let after := (w.grant c jobId job key number reserved).totals legacyHold job.epicId
    after.known d + after.held d ≤ before.known d + before.held d + freshHold reserved d := by
  obtain ⟨scope, hattempts⟩ := epicAttempts_grant c key number reserved hjob hfresh
    job.epicId
  rw [if_pos rfl] at hattempts
  unfold World.totals
  rw [hattempts]
  exact epicTotals_fresh legacyHold none (w.epicAttempts job.epicId) (w.children job.epicId) jobId
    number reserved scope hpos d

end grant

/-! ### Runs -/

inductive Call
  | claim (c : ClaimCall)
  /- a launch transition, a settlement or a recovery -/
  | record (jobId attemptId : UUID) (write : AttemptWrite) (outcome : JobWrite)
  | quotaSettle (jobId attemptId : UUID) (exhausted succeeded : Bool) (resetAt : Option ℤ)
      (locked : UUID → Bool) (now : ℤ)
  /- a new job -/
  | enqueue (jobId epicId projectId : UUID) (kind : String) (snapshot : Option Snapshot)
      (createdAt : ℤ)
  /- the runs bound to the items of the epics go on -/
  | runs (children : UUID → List Child)

/-- A call that raises is rolled back. -/
def commit (w : World) (outcome : Except String World) : World :=
  match outcome with
  | .ok w' => w'
  | .error _ => w

/-- A call of `claim` and its answer. -/
def claimed (w : World) (c : ClaimCall) : World × Option UUID :=
  match claim c w with
  | .ok out => out
  | .error _ => (w, none)

def queuedJob (epicId projectId : UUID) (kind : String) (snapshot : Option Snapshot)
    (createdAt : ℤ) : Job where
  epicId := epicId
  projectId := projectId
  kind := kind
  snapshot := snapshot
  state := .queued
  failure := none
  version := 1
  createdAt := createdAt
  nextEligibleAt := none
  currentAttemptId := none
  retryAuthorizedUntil := none
  overrideUnknownUsage := false
  waitPoolRevision := none

def perform (policy : QuotaPolicy) (w : World) : Call → World
  | .claim c => (claimed w c).1
  | .record jobId attemptId write outcome => commit w (w.record jobId attemptId write outcome)
  | .quotaSettle jobId attemptId exhausted succeeded resetAt locked now =>
    commit w (w.quotaSettle policy jobId attemptId exhausted succeeded resetAt locked now)
  | .enqueue jobId epicId projectId kind snapshot createdAt =>
    w.putJob jobId (queuedJob epicId projectId kind snapshot createdAt)
  | .runs children => { w with children := children }

/-- The id of a new attempt is drawn afresh. -/
def FreshId (w : World) : Call → Prop
  | .claim c => w.attempts.get c.attemptId = none
  | _ => True

def Step (policy : QuotaPolicy) (w w' : World) : Prop :=
  ∃ call, FreshId w call ∧ perform policy w call = w'

/-- Reservations are amounts, and no owner retry is pending. -/
structure World.Valid (w : World) : Prop where
  reserved : ∀ id a, w.attempts.get id = some a → a.Reserved
  unretried : ∀ id job, w.jobs.get id = some job → job.Unretried

section run
variable {policy : QuotaPolicy} {w w' : World}

theorem Quiet.valid (h : Quiet w w') (hw : w.Valid) : w'.Valid where
  reserved id a ha := hw.reserved id a (by rwa [h.attempts] at ha)
  unretried id job hjob := by
    have hcore := h.jobs id
    rw [hjob] at hcore
    obtain ⟨job₀, hjob₀, heq⟩ := Option.map_eq_some_iff.mp hcore.symm
    obtain ⟨hretry, hoverride⟩ := hw.unretried id job₀ hjob₀
    simp only [Job.core, Prod.mk.injEq] at heq
    exact ⟨heq.2.2.1.symm.trans hretry, heq.2.2.2.symm.trans hoverride⟩

theorem valid_putJob {jobId : UUID} {job : Job} (hw : w.Valid) (hjob : job.Unretried) :
    (w.putJob jobId job).Valid where
  reserved := hw.reserved
  unretried id job' h := by
    change (w.jobs.put jobId job).get id = some job' at h
    rw [Table.get_put] at h
    split at h
    · cases h
      exact hjob
    · exact hw.unretried id job' h

theorem valid_putAttempt {attemptId : UUID} {a : Attempt} (hw : w.Valid) (ha : a.Reserved) :
    World.Valid { w with attempts := w.attempts.put attemptId a } where
  reserved id a' h := by
    change (w.attempts.put attemptId a).get id = some a' at h
    rw [Table.get_put] at h
    split at h
    · cases h
      exact ha
    · exact hw.reserved id a' h
  unretried := hw.unretried

theorem valid_quota {quota : Quota.Store} (hw : w.Valid) : World.Valid { w with quota := quota } :=
  ⟨hw.reserved, hw.unretried⟩

theorem grants_valid {c : ClaimCall} {jobId : UUID} (hw : w.Valid) (h : Grants c w w' jobId) :
    w'.Valid := by
  obtain ⟨job, snapshot, key, ledger, budget, number, reserved, waits, hjob, _, _, _, hreserved,
    rfl⟩ := h
  have hretry := (hw.unretried jobId job hjob).1
  have hfresh := fresh_reserved jobId number reserved (reservation_nonneg hretry hreserved)
  exact valid_quota (valid_putAttempt (valid_putJob hw ⟨rfl, rfl⟩) hfresh)

theorem claimed_valid (hw : w.Valid) (c : ClaimCall) : (claimed w c).1.Valid := by
  unfold claimed
  split
  · rename_i out hclaim
    have hout := claim_claimed out hclaim
    obtain ⟨w', admitted⟩ := out
    cases admitted with
    | none => exact hout.valid hw
    | some jobId =>
      obtain ⟨w₁, hquiet, hgrants⟩ := hout
      exact grants_valid (hquiet.valid hw) hgrants
  · exact hw

theorem record_valid {jobId attemptId : UUID} {write : AttemptWrite} {outcome : JobWrite}
    (hw : w.Valid) : (commit w (w.record jobId attemptId write outcome)).Valid := by
  cases hrecord : w.record jobId attemptId write outcome with
  | error e => exact hw
  | ok w' =>
    unfold World.record at hrecord
    simp only [bind_eq_ok, orRaise_eq_ok, require_eq_ok] at hrecord
    obtain ⟨job, hjob, a, ha, _, _, hrecord⟩ := hrecord
    cases hrecord
    -- The reservation stays on the row.
    have hreserved : (a.record write).Reserved := hw.reserved attemptId a ha
    have hjob' : (job.record outcome).Unretried := hw.unretried jobId job hjob
    exact valid_putAttempt (valid_putJob hw hjob') hreserved

theorem requeue_unretried {epicId jobId : UUID} {locked : UUID → Bool} {job : Job}
    (hjob : job.Unretried) : (requeue epicId locked jobId job).Unretried := by
  unfold requeue
  split
  · exact hjob
  · exact hjob

theorem quotaSettle_valid {jobId attemptId : UUID} {exhausted succeeded : Bool} {resetAt : Option ℤ}
    {locked : UUID → Bool} {now : ℤ} (hw : w.Valid) :
    (commit w (w.quotaSettle policy jobId attemptId exhausted succeeded resetAt locked now)).Valid := by
  cases hsettle : w.quotaSettle policy jobId attemptId exhausted succeeded resetAt locked now with
  | error e => exact hw
  | ok w' =>
    unfold World.quotaSettle at hsettle
    simp only [bind_eq_ok, orRaise_eq_ok] at hsettle
    obtain ⟨job, _, a, _, snapshot, _, quota, _, hsettle⟩ := hsettle
    cases hsettle
    refine ⟨hw.reserved, fun id job' h => ?_⟩
    simp only [commit] at h
    split at h
    · exact hw.unretried id job' h
    · rw [Table.get_mapRows] at h
      obtain ⟨job₀, hjob₀, rfl⟩ := Option.map_eq_some_iff.mp h
      exact requeue_unretried (hw.unretried id job₀ hjob₀)

theorem perform_valid (hw : w.Valid) (call : Call) : (perform policy w call).Valid := by
  cases call with
  | claim c => exact claimed_valid hw c
  | record jobId attemptId write outcome => exact record_valid hw
  | quotaSettle jobId attemptId exhausted succeeded resetAt locked now => exact quotaSettle_valid hw
  | enqueue jobId epicId projectId kind snapshot createdAt => exact valid_putJob hw ⟨rfl, rfl⟩
  | runs children => exact ⟨hw.reserved, hw.unretried⟩

theorem run_valid (hw : w.Valid) (hrun : Relation.ReflTransGen (Step policy) w w') : w'.Valid := by
  induction hrun with
  | refl => exact hw
  | tail _ hstep ih =>
    obtain ⟨call, _, rfl⟩ := hstep
    exact perform_valid ih call

theorem totals_nonneg (hw : w.Valid) (legacyHold : TaskBudget) (epicId : UUID) (d : EpicDimension) :
    0 ≤ (w.totals legacyHold epicId).known d ∧ 0 ≤ (w.totals legacyHold epicId).held d := by
  refine epicTotals_nonneg legacyHold none _ _ (fun p hp => ?_) d
  obtain ⟨row, hrow, rfl⟩ := List.mem_map.mp hp
  exact hw.reserved row.1 row.2 ((Table.mem_select_iff _ _ row.1 row.2).mp hrow).1

/-- A claim leaves an epic's totals as they were, or under every limit that is enabled. -/
structure UnderCeiling (c : ClaimCall) (w : World) (out : World × Option UUID) : Prop where
  ceilings : ∀ epicId ledger, w.ledgers.get epicId = some ledger →
    out.1.ledgers.get epicId = some ledger
  refused : out.2 = none → out.1.attempts = w.attempts ∧
    ∀ legacyHold epicId, out.1.totals legacyHold epicId = w.totals legacyHold epicId
  admitted : ∀ jobId, out.2 = some jobId → ∃ job snapshot ledger budget number reserved,
    out.1.jobs.get jobId = some job ∧ job.snapshot = some snapshot ∧
    out.1.attempts.get c.attemptId = some (freshAttempt jobId number reserved) ∧
    out.1.ledgers.get job.epicId = some ledger ∧ ledger.ceiling = some budget ∧
    (∀ d limit, enabledLimit ledger budget d = some limit →
      let after := out.1.totals (c.epicCeiling.getD snapshot.budget) job.epicId
      after.known d + after.held d ≤ limit) ∧
    ∀ legacyHold epicId, epicId ≠ job.epicId →
      out.1.totals legacyHold epicId = w.totals legacyHold epicId

theorem quiet_underCeiling {c : ClaimCall} (h : Quiet w w') : UnderCeiling c w (w', none) where
  ceilings := h.ledgers
  refused _ := ⟨h.attempts, h.totals⟩
  admitted jobId hjob := by cases hjob

theorem grants_underCeiling {c : ClaimCall} {w₁ : World} {jobId : UUID} (hw : w.Valid)
    (hfresh : w.attempts.get c.attemptId = none) (hquiet : Quiet w w₁)
    (h : Grants c w₁ w' jobId) : UnderCeiling c w (w', some jobId) := by
  obtain ⟨job, snapshot, key, ledger, budget, number, reserved, waits, hjob, hsnapshot, hledger,
    hbudget, hreserved, rfl⟩ := h
  have hretry := ((hquiet.valid hw).unretried jobId job hjob).1
  have hpos := reservation_nonneg hretry hreserved
  have hfresh₁ : w₁.attempts.get c.attemptId = none := by rw [hquiet.attempts, hfresh]
  refine ⟨hquiet.ledgers, fun h => (nomatch h), fun id hid => ?_⟩
  cases hid
  refine ⟨job.admitted c.attemptId, snapshot, ledger, budget, number, reserved,
    Table.get_put_self .., hsnapshot, Table.get_put_self .., hledger, hbudget, ?_, ?_⟩
  · intro d limit hlimit
    have hown := totals_grant_own c key number reserved hjob hfresh₁
      (c.epicCeiling.getD snapshot.budget) hpos d
    have hfits := reservation_fits hretry hreserved d limit hlimit
    exact hown.trans hfits
  · intro legacyHold epicId hother
    rw [totals_grant_other c key number reserved hjob hfresh₁ legacyHold epicId hother, hquiet.totals]

theorem claimed_underCeiling (hw : w.Valid) (c : ClaimCall)
    (hfresh : w.attempts.get c.attemptId = none) : UnderCeiling c w (claimed w c) := by
  unfold claimed
  split
  · rename_i out hclaim
    have hout := claim_claimed out hclaim
    obtain ⟨w', admitted⟩ := out
    cases admitted with
    | none => exact quiet_underCeiling hout
    | some jobId =>
      obtain ⟨w₁, hquiet, hgrants⟩ := hout
      exact grants_underCeiling hw hfresh hquiet hgrants
  · exact quiet_underCeiling (quiet_refl w)

/-- In every run without an owner retry, no total is negative, and every claim that admits an
attempt leaves its epic under every limit that is enabled. -/
theorem admission_under_ceiling (policy : QuotaPolicy) (start : World) (hstart : start.Valid)
    (hrun : Relation.ReflTransGen (Step policy) start w) :
    (∀ legacyHold epicId d, 0 ≤ (w.totals legacyHold epicId).known d ∧
      0 ≤ (w.totals legacyHold epicId).held d) ∧
    ∀ c, w.attempts.get c.attemptId = none → UnderCeiling c w (claimed w c) := by
  have hw := run_valid hstart hrun
  exact ⟨totals_nonneg hw, claimed_underCeiling hw⟩

/-! ### One claim -/

def codexRoute : RouteSpec := ⟨"codex", "codex-cli", "gpt", .medium, .subscription, .allowanceOnly⟩

def epicBudget : TaskBudget where
  maxDurationSeconds := 600
  maxToolCalls := 40
  maxProviderAttempts := 2
  maxInputTokens := 9000
  maxOutputTokens := ⊤
  maxCostMinor := ⊤

def draftJob : Job := queuedJob 7 8 "brainstorm" (some ⟨"brainstorm", codexRoute, epicBudget⟩) 0

def draftWorld : World where
  jobs := Table.empty.put 1 draftJob
  attempts := Table.empty
  quota := Quota.Store.empty
  ledgers := Table.empty
  children _ := []

def draftCall : ClaimCall where
  now := 10
  kinds := ["brainstorm"]
  attemptId := 5
  epicCeiling := none
  routePools := []
  locked _ := false
  checkpointed _ := false
  historyFrozen _ := true

theorem draftWorld_valid : draftWorld.Valid where
  reserved id a h := by cases h
  unretried id job h := by
    change (Table.empty.put 1 draftJob).get id = some job at h
    rw [Table.get_put] at h
    split at h
    · cases h
      exact ⟨rfl, rfl⟩
    · cases h

def hourly : QuotaPolicy := ⟨3600, by decide⟩

/-- The process has settled, and its usage was measured. -/
def settledWrite : AttemptWrite where
  processStarted := true
  processSettled := true
  usage := some [("duration_ms", .int 60000), ("tool_call_count", .int 5), ("input_tokens", .int 3000),
    ("output_tokens", .int 200), ("estimated_api_cost_minor", .int 0)]
  usageKnown := some true
  toolCallsUsed := 5

def recordCall : Call := .record 1 5 settledWrite ⟨.proposed, none, none⟩

def finishCall : Call := .quotaSettle 1 5 false true none (fun _ => false) 20

def enqueueCall : Call := .enqueue 2 7 8 "brainstorm" (some ⟨"brainstorm", codexRoute, epicBudget⟩) 30

/-- The first job is admitted and settled, and another one of its epic is queued. -/
def settledWorld : World :=
  [.claim draftCall, recordCall, finishCall, enqueueCall].foldl (perform hourly) draftWorld

def laterCall : ClaimCall := { draftCall with now := 40, attemptId := 6 }

theorem settledWorld_run : Relation.ReflTransGen (Step hourly) draftWorld settledWorld := by
  have hclaim : Relation.ReflTransGen (Step hourly) draftWorld (perform hourly draftWorld (.claim draftCall)) :=
    .single ⟨.claim draftCall, rfl, rfl⟩
  exact ((hclaim.tail ⟨recordCall, trivial, rfl⟩).tail ⟨finishCall, trivial, rfl⟩).tail
    ⟨enqueueCall, trivial, rfl⟩

/- What the settled attempt used is not reserved again. -/
theorem admission_under_ceiling_draft :
    (claimed settledWorld laterCall).2 = some 2 ∧
      ((claimed settledWorld laterCall).1.attempts.get 6).bind (·.reserve .inputTokens) = some 6000 ∧
      UnderCeiling laterCall settledWorld (claimed settledWorld laterCall) := by
  refine ⟨by decide +kernel, by decide +kernel, ?_⟩
  exact (admission_under_ceiling hourly draftWorld draftWorld_valid settledWorld_run).2 laterCall
    (by decide +kernel)

end run

end ParallelForge.Brainstorm
