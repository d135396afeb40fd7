import ParallelForge.Base.Run
import ParallelForge.Quota.Refinement

/-!
# The quota pool as a circuit breaker

Any sequence of subscription admissions, settlements, exhaustion reports and
probe recoveries and of authoring claims and quota settlements, over any pools.
A call happens at the instant at which it holds its pool's row lock, and these
instants do not go back. A claim has read its clock before it waits for the lock.
-/

namespace ParallelForge.Quota
open Base Breaker

inductive Call
  | admission (key : QuotaPoolKey) (attemptId : UUID) (seen : ProbeEvidence)
  | eligible (key : QuotaPoolKey) (seen : ProbeEvidence)
  | settle (attemptId : UUID) (exhaustion : Option QuotaExhaustion) (succeeded stopped : Bool)
  | report (key : QuotaPoolKey) (exhaustion : QuotaExhaustion) (idempotencyKey : String)
      (sourceAttemptId actorId : Option UUID)
  | claim (key : QuotaPoolKey) (attemptId : UUID) (reserved : Bool) (readAt : ℤ)
  | quotaSettle (attemptId : UUID) (job : JobEvidence) (exhausted : Bool) (resetAt : Option ℤ)
      (succeeded : Bool)

/-- A transaction that raises is rolled back. -/
def commit (w : Store) (outcome : Except String Store) : Store :=
  match outcome with
  | .ok w' => w'
  | .error _ => w

theorem commit_induct {w : Store} {outcome : Except String Store} (motive : Store → Prop)
    (hsame : motive w) (hok : ∀ w', outcome = .ok w' → motive w') : motive (commit w outcome) := by
  unfold commit
  split
  · next w' => exact hok w' rfl
  · exact hsame

def perform (policy : QuotaPolicy) (w : Store) (now : ℤ) : Call → Store
  | .admission key attemptId seen => commit w (admitAttempt policy w key attemptId seen now)
  | .eligible key seen => recoverProbe policy w key seen now
  | .settle attemptId exhaustion succeeded stopped =>
    commit w (settle policy w attemptId exhaustion succeeded stopped now)
  | .report key exhaustion idempotencyKey sourceAttemptId actorId =>
    commit w (reportExhaustion policy w key exhaustion idempotencyKey sourceAttemptId actorId)
  | .claim key attemptId reserved readAt => claim w key attemptId reserved readAt
  | .quotaSettle attemptId job exhausted resetAt succeeded =>
    commit w (quotaSettle policy w attemptId job exhausted resetAt succeeded now)

/-- Attempts get their ids from `uuid4`, so an id that is admitted is not drawn again. -/
def FreshId (w : Store) : Call → Prop
  | .admission _ attemptId _ => w.authoring.get attemptId = none
  | .claim _ attemptId _ _ => w.admission attemptId = none
  | _ => True

/-- A claim compares with the clock it read before it held the lock. -/
def ReadBefore (now : ℤ) : Call → Prop
  | .claim _ _ _ readAt => readAt ≤ now
  | _ => True

/-- The call is the successful settlement of an attempt that stopped. -/
def Succeeds (a : UUID) : Call → Prop
  | .settle attemptId exhaustion succeeded stopped =>
    attemptId = a ∧ exhaustion = none ∧ succeeded = true ∧ stopped = true
  | .quotaSettle attemptId job exhausted _ succeeded =>
    attemptId = a ∧ job.processSettled = true ∧ exhausted = false ∧ succeeded = true
  | _ => False

section calls
variable {policy : QuotaPolicy} {w w' : Store} {now : ℤ} {key : QuotaPoolKey} {a : UUID}

/-- What every transaction does: moves of the breaker, or a recovery it has the right to. -/
def Refines (w w' : Store) (now : ℤ) (call : Call) : Prop :=
  (Moves now w.breaker w'.breaker ∨ ∃ a, Recovers a w.breaker w'.breaker ∧ Succeeds a call) ∧
    w'.Separate

theorem separate_putAdmission (hsep : w.Separate) (row : Admission)
    (hfree : w.authoring.get a = none) : (w.putAdmission a row).Separate := by
  intro b
  by_cases h : b = a
  · subst h
    exact Or.inr hfree
  · rcases hsep b with hb | hb
    · refine Or.inl ?_
      show (w.admissions.put a row).get b = none
      rw [Table.get_put_ne _ _ h]
      exact hb
    · exact Or.inr hb

theorem separate_putAuthoring (hsep : w.Separate) (row : Admission)
    (hfree : w.admissions.get a = none) : (w.putAuthoring a row).Separate := by
  intro b
  by_cases h : b = a
  · subst h
    exact Or.inl hfree
  · rcases hsep b with hb | hb
    · exact Or.inl hb
    · refine Or.inr ?_
      show (w.authoring.put a row).get b = none
      rw [Table.get_put_ne _ _ h]
      exact hb

theorem Store.Separate.authoring_none (hsep : w.Separate) {row : Admission}
    (h : w.admissions.get a = some row) : w.authoring.get a = none := by
  rcases hsep a with hn | hn
  · rw [hn] at h
    cases h
  · exact hn

theorem Store.Separate.admissions_none (hsep : w.Separate) {row : Admission}
    (h : w.authoring.get a = some row) : w.admissions.get a = none := by
  rcases hsep a with hn | hn
  · exact hn
  · rw [hn] at h
    cases h

theorem recoverProbe_refines (hsound : Sound now w.breaker) (hsep : w.Separate) (key : QuotaPoolKey)
    (seen : ProbeEvidence) :
    Moves now w.breaker (recoverProbe policy w key seen now).breaker ∧
      (recoverProbe policy w key seen now).Separate ∧
      (recoverProbe policy w key seen now).authoring = w.authoring := by
  refine ⟨recoverProbe_moves hsound key seen, ?_⟩
  rcases recoverProbe_cases policy w key seen now with he | ⟨probe, admission, t, row, -, hadm, -, he⟩
  · rw [he]
    exact ⟨hsep, rfl⟩
  · rw [he]
    exact ⟨separate_putAdmission hsep _ (hsep.authoring_none hadm), rfl⟩

theorem admitAttempt_eq_ok {seen : ProbeEvidence}
    (h : admitAttempt policy w key a seen now = .ok w') :
    ∃ u, u = recoverProbe policy w key seen now ∧ allowsAttempt (u.pool key) now = true ∧
      u.admissions.get a = none ∧
      w' = if (u.pool key).blocked then
          (u.putAdmission a ⟨key, (u.pool key).revision, (u.pool key).blocked, none⟩).putPool key
            { u.pool key with probeAttemptId := some a }
        else u.putAdmission a ⟨key, (u.pool key).revision, (u.pool key).blocked, none⟩ := by
  unfold admitAttempt at h
  simp only [bind_eq_ok, require_eq_ok, exists_const, Except.ok.injEq] at h
  exact ⟨_, rfl, h.1, h.2.1, h.2.2.symm⟩

/- An admission recovers the probe it finds and then grants. -/
theorem admitAttempt_grants {seen : ProbeEvidence} (hsound : Sound now w.breaker)
    (hsep : w.Separate) (hfresh : w.authoring.get a = none)
    (h : admitAttempt policy w key a seen now = .ok w') :
    ∃ u, u = recoverProbe policy w key seen now ∧ Grants now u w' key a ∧ w'.Separate := by
  obtain ⟨u, hu, hallows, hnew, hw'⟩ := admitAttempt_eq_ok h
  obtain ⟨-, hsepU, hauth⟩ := @recoverProbe_refines policy w now hsound hsep key seen
  rw [← hu] at hsepU hauth
  have hfreshU : u.authoring.get a = none := by rw [hauth]; exact hfresh
  have hadm : u.admission a = none := by simp [Store.admission, hnew, hfreshU]
  have hopen := (allowsAttempt_iff _ _).mp hallows
  refine ⟨u, hu, ⟨hadm, fun hb => (due_iff _ _).mp (hopen hb), ?_⟩, ?_⟩
  · refine breaker_grant key a _ rfl ?_
    rw [hw']
    split
    · rw [breaker_putPool, breaker_putAdmission]
      rfl
    · rw [breaker_putAdmission]
  · rw [hw']
    split
    · exact separate_putAdmission hsepU _ hfreshU
    · exact separate_putAdmission hsepU _ hfreshU

theorem claim_grants {reserved : Bool} {readAt : ℤ} (hsep : w.Separate)
    (hfresh : w.admission a = none) (hread : readAt ≤ now) :
    claim w key a reserved readAt = w ∨
      (Grants now w (claim w key a reserved readAt) key a ∧
        (claim w key a reserved readAt).Separate) := by
  have hfree : w.admissions.get a = none := (Option.or_eq_none_iff.mp hfresh).1
  unfold claim
  dsimp only
  split
  · exact Or.inl rfl
  · next hgo =>
    split
    · exact Or.inl rfl
    · refine Or.inr ⟨⟨hfresh, ?_, ?_⟩, ?_⟩
      · intro hb
        have hdue : due (w.pool key) readAt = true := by simpa [hb] using hgo
        obtain ⟨hslot, n, hn, hle⟩ := (due_iff _ _).mp hdue
        exact ⟨hslot, n, hn, hle.trans hread⟩
      · refine breaker_grant key a _ rfl ?_
        split
        · rw [breaker_putPool, breaker_putAuthoring a _ hfree]
          rfl
        · rw [breaker_putAuthoring a _ hfree]
      · split
        · exact separate_putAuthoring hsep _ hfree
        · exact separate_putAuthoring hsep _ hfree

theorem reportExhaustion_refines {e : QuotaExhaustion} {idempotencyKey : String}
    {sourceAttemptId actorId : Option UUID} (hsep : w.Separate)
    (h : reportExhaustion policy w key e idempotencyKey sourceAttemptId actorId = .ok w') :
    Moves now w.breaker w'.breaker ∧ w'.Separate ∧ w'.admissions = w.admissions := by
  rcases reportExhaustion_cases h with rfl | ⟨-, observation, rfl⟩
  · exact ⟨.refl, hsep, rfl⟩
  · refine ⟨.single ?_, hsep, rfl⟩
    exact move_of_exhausts key _ (exhaustPool_exhausts policy (w.pool key) e)

theorem settleEvidence_refines {exhaustion : Option QuotaExhaustion} (hsep : w.Separate)
    (h : settleEvidence policy w key a exhaustion = .ok w') :
    Moves now w.breaker w'.breaker ∧ w'.Separate ∧ w'.admissions = w.admissions ∧
      (exhaustion = none → w' = w) := by
  cases exhaustion with
  | none =>
    cases h
    exact ⟨.refl, hsep, rfl, fun _ => rfl⟩
  | some e =>
    obtain ⟨hmoves, hsep', hadm⟩ := reportExhaustion_refines hsep h
    exact ⟨hmoves, hsep', hadm, fun he => by cases he⟩

/- The last step of a settlement, in terms of what it does to the pool row. -/
theorem finish_refines {admission : Admission} {row : QuotaPool} {call : Call}
    (hsound : Sound now w.breaker) (hadm : w.admission a = some admission)
    (hw' : w'.breaker = (w.breaker.setGate admission.key row.gate).setPermit a
      { admission.permit with live := false })
    (h : Releases a (w.pool admission.key) row ∨
      (Succeeds a call ∧ Unblocks a admission (w.pool admission.key) row)) :
    Moves now w.breaker w'.breaker ∨ ∃ a, Recovers a w.breaker w'.breaker ∧ Succeeds a call := by
  rw [hw']
  rcases h with hrel | ⟨hsucc, hunb⟩
  · exact Or.inl (.single (move_of_releases hadm hrel))
  · exact Or.inr ⟨a, recovers_of_unblocks hsound hadm hunb, hsucc⟩

theorem settle_eq_ok {exhaustion : Option QuotaExhaustion} {succeeded stopped : Bool}
    (h : settle policy w a exhaustion succeeded stopped now = .ok w') :
    w' = w ∨ ∃ admission u, w.admissions.get a = some admission ∧
      settleEvidence policy w admission.key a exhaustion = .ok u ∧
      ((stopped = false ∧ w' = u) ∨ (stopped = true ∧
        w' = (u.putAdmission a { admission with finishedAt := some now }).putPool admission.key
          (settlePool policy (u.pool admission.key) admission a exhaustion.isSome succeeded now))) := by
  unfold settle at h
  split at h
  · rw [Except.ok.injEq] at h
    exact Or.inl h.symm
  · next admission hadm =>
    rw [bind_eq_ok] at h
    obtain ⟨u, hu, h⟩ := h
    refine Or.inr ⟨admission, u, hadm, hu, ?_⟩
    split at h
    · next hstop =>
      rw [Except.ok.injEq] at h
      exact Or.inl ⟨by simpa using hstop, h.symm⟩
    · next hstop =>
      rw [Except.ok.injEq] at h
      exact Or.inr ⟨by simpa using hstop, h.symm⟩

theorem settle_refines {exhaustion : Option QuotaExhaustion} {succeeded stopped : Bool}
    (hsound : Sound now w.breaker) (hsep : w.Separate)
    (h : settle policy w a exhaustion succeeded stopped now = .ok w') :
    Refines w w' now (.settle a exhaustion succeeded stopped) := by
  rcases settle_eq_ok h with rfl | ⟨admission, u, hadm, hu, hend⟩
  · exact ⟨Or.inl .refl, hsep⟩
  obtain ⟨hmoves, hsepU, hsame, hnone⟩ := @settleEvidence_refines policy w u now _ a _ hsep hu
  rcases hend with ⟨-, rfl⟩ | ⟨hstopped, hw'⟩
  · exact ⟨Or.inl hmoves, hsepU⟩
  have hsoundU := hsound.moves hmoves
  have hadmU : u.admissions.get a = some admission := by rw [hsame]; exact hadm
  have hcases := settlePool_cases policy (u.pool admission.key) admission a exhaustion.isSome succeeded
    now (hsoundU.slot_blocked admission.key a)
  have hbreaker : w'.breaker = (u.breaker.setGate admission.key
      (settlePool policy (u.pool admission.key) admission a exhaustion.isSome succeeded now).gate).setPermit
        a { admission.permit with live := false } := by
    rw [hw', breaker_putPool, breaker_putAdmission]
    rfl
  refine ⟨?_, ?_⟩
  · have hfinish := @finish_refines u w' now a admission _
      (.settle a exhaustion succeeded stopped) hsoundU (admission_of_admissions hadmU) hbreaker ?_
    · rcases hfinish with hlast | ⟨b, hrec, hsucc⟩
      · exact Or.inl (hmoves.trans hlast)
      · -- a successful settlement brings no evidence, so nothing came before the recovery
        rw [hnone hsucc.2.1] at hrec
        exact Or.inr ⟨b, hrec, hsucc⟩
    · rcases hcases with hrel | ⟨hsucceeded, hexh, hunb⟩
      · exact Or.inl hrel
      · exact Or.inr ⟨⟨rfl, by simpa using hexh, hsucceeded, hstopped⟩, hunb⟩
  · rw [hw']
    exact separate_putAdmission hsepU _ (hsepU.authoring_none hadmU)

theorem observeAuthoring_refines {admission : Admission} {exhausted : Bool} {resetAt : Option ℤ}
    (hsep : w.Separate) :
    Moves now w.breaker (observeAuthoring policy w a admission exhausted resetAt now).breaker ∧
      (observeAuthoring policy w a admission exhausted resetAt now).Separate ∧
      (observeAuthoring policy w a admission exhausted resetAt now).authoring = w.authoring ∧
      (exhausted = false → observeAuthoring policy w a admission exhausted resetAt now = w) := by
  unfold observeAuthoring
  dsimp only
  split
  · next hobs =>
    refine ⟨?_, hsep, rfl, ?_⟩
    · rcases exhaustAuthoring_exhausts policy (w.pool admission.key) resetAt now with he | hexh
      · rw [he, breaker_putPool, breaker_putObservation]
        have hself : w.breaker.setGate admission.key (w.pool admission.key).gate = w.breaker :=
          setGate_self w.breaker admission.key
        rw [hself]
      · exact .single (move_of_exhausts admission.key _ hexh)
    · intro hex
      simp [hex] at hobs
  · exact ⟨.refl, hsep, rfl, fun _ => rfl⟩

theorem quotaSettle_eq_ok {job : JobEvidence} {exhausted succeeded : Bool} {resetAt : Option ℤ}
    (h : quotaSettle policy w a job exhausted resetAt succeeded now = .ok w') :
    ∃ admission u, w.authoring.get a = some admission ∧
      u = observeAuthoring policy w a admission exhausted resetAt now ∧
      (w' = u ∨ (job.processSettled = true ∧ admission.finishedAt = none ∧
        w' = (u.putAuthoring a { admission with finishedAt := some now }).putPool admission.key
          (finishAuthoring policy (u.pool admission.key) admission a exhausted succeeded now))) := by
  unfold quotaSettle at h
  simp only [bind_eq_ok, require_eq_ok, orRaise_eq_ok, exists_const] at h
  obtain ⟨-, admission, hadm, -, h⟩ := h
  refine ⟨admission, _, hadm, rfl, ?_⟩
  split at h
  · rw [Except.ok.injEq] at h
    exact Or.inl h.symm
  · next hgo =>
    rw [Except.ok.injEq] at h
    simp only [Bool.or_eq_true, Bool.not_eq_true', not_or, Bool.not_eq_false,
      Option.isSome_iff_ne_none, ne_eq, not_not] at hgo
    exact Or.inr ⟨hgo.1, hgo.2, h.symm⟩

theorem quotaSettle_refines {job : JobEvidence} {exhausted succeeded : Bool} {resetAt : Option ℤ}
    (hsound : Sound now w.breaker) (hsep : w.Separate)
    (h : quotaSettle policy w a job exhausted resetAt succeeded now = .ok w') :
    Refines w w' now (.quotaSettle a job exhausted resetAt succeeded) := by
  obtain ⟨admission, u, hadm, hu, hend⟩ := quotaSettle_eq_ok h
  have hobserve := @observeAuthoring_refines policy w now a admission exhausted resetAt hsep
  rw [← hu] at hobserve
  obtain ⟨hmoves, hsepU, hsame, hnone⟩ := hobserve
  rcases hend with rfl | ⟨hsettled, -, hw'⟩
  · exact ⟨Or.inl hmoves, hsepU⟩
  have hsoundU := hsound.moves hmoves
  have hadmU : u.authoring.get a = some admission := by rw [hsame]; exact hadm
  have hadmission := admission_of_authoring hsepU hadmU
  have hfree := hsepU.admissions_none hadmU
  have hcases := finishAuthoring_cases policy (u.pool admission.key) admission a exhausted succeeded
    now (hsoundU.slot_blocked admission.key a)
    fun hslot hrev => hsoundU.slot_next admission.key a admission.permit hslot
      (permits_of_admission hadmission) hrev
  have hbreaker : w'.breaker = (u.breaker.setGate admission.key
      (finishAuthoring policy (u.pool admission.key) admission a exhausted succeeded now).gate).setPermit
        a { admission.permit with live := false } := by
    rw [hw', breaker_putPool, breaker_putAuthoring a _ hfree]
    rfl
  refine ⟨?_, ?_⟩
  · have hfinish := @finish_refines u w' now a admission _
      (.quotaSettle a job exhausted resetAt succeeded) hsoundU hadmission hbreaker ?_
    · rcases hfinish with hlast | ⟨b, hrec, hsucc⟩
      · exact Or.inl (hmoves.trans hlast)
      · rw [hnone hsucc.2.2.1] at hrec
        exact Or.inr ⟨b, hrec, hsucc⟩
    · rcases hcases with hrel | ⟨hsucceeded, hexh, hunb⟩
      · exact Or.inl hrel
      · exact Or.inr ⟨⟨rfl, hsettled, hexh, hsucceeded⟩, hunb⟩
  · rw [hw']
    exact separate_putAuthoring hsepU _ hfree

theorem perform_refines (call : Call) (hsound : Sound now w.breaker) (hsep : w.Separate)
    (hfresh : FreshId w call) (hread : ReadBefore now call) :
    Refines w (perform policy w now call) now call := by
  have hidle : Refines w w now call := ⟨Or.inl .refl, hsep⟩
  cases call with
  | admission key a seen =>
    refine commit_induct (Refines w · now _) hidle fun w' h => ?_
    obtain ⟨u, hu, hgrants, hsep'⟩ := admitAttempt_grants hsound hsep hfresh h
    have hrecover := @recoverProbe_refines policy w now hsound hsep key seen
    rw [← hu] at hrecover
    exact ⟨Or.inl (hrecover.1.tail hgrants.move), hsep'⟩
  | eligible key seen =>
    have hrecover := @recoverProbe_refines policy w now hsound hsep key seen
    exact ⟨Or.inl hrecover.1, hrecover.2.1⟩
  | settle a exhaustion succeeded stopped =>
    exact commit_induct (Refines w · now _) hidle fun w' h => settle_refines hsound hsep h
  | report key e idempotencyKey sourceAttemptId actorId =>
    refine commit_induct (Refines w · now _) hidle fun w' h => ?_
    obtain ⟨hmoves, hsep', -⟩ := reportExhaustion_refines hsep h
    exact ⟨Or.inl hmoves, hsep'⟩
  | claim key a reserved readAt =>
    rcases @claim_grants w now key a reserved readAt hsep hfresh hread with he | ⟨hgrants, hsep'⟩
    · show Refines w (claim w key a reserved readAt) now _
      rw [he]
      exact hidle
    · exact ⟨Or.inl (.single hgrants.move), hsep'⟩
  | quotaSettle a job exhausted resetAt succeeded =>
    exact commit_induct (Refines w · now _) hidle fun w' h => quotaSettle_refines hsound hsep h

/-- A call other than an admission keeps the attempts that are admitted. -/
def SameAttempts (w w' : Store) : Prop := ∀ a, w.admission a = none → w'.admission a = none

theorem sameAttempts_of_tables (hadm : w'.admissions = w.admissions)
    (hauth : w'.authoring = w.authoring) : SameAttempts w w' := by
  intro b hb
  rw [Store.admission, hadm, hauth]
  exact hb

theorem sameAttempts_putAdmission (row row' : Admission) (h : w.admissions.get a = some row) :
    SameAttempts w (w.putAdmission a row') := by
  intro b hb
  have hne : b ≠ a := by
    intro he
    rw [he, admission_of_admissions h] at hb
    cases hb
  show ((w.admissions.put a row').get b).or (w.authoring.get b) = none
  rw [Table.get_put_ne _ _ hne]
  exact hb

theorem sameAttempts_putAuthoring (row row' : Admission) (h : w.authoring.get a = some row) :
    SameAttempts w (w.putAuthoring a row') := by
  intro b hb
  have hne : b ≠ a := by
    intro he
    rw [he, Store.admission, Option.or_eq_none_iff, h] at hb
    cases hb.2
  show (w.admissions.get b).or ((w.authoring.put a row').get b) = none
  rw [Table.get_put_ne _ _ hne]
  exact hb

theorem recoverProbe_sameAttempts (key : QuotaPoolKey) (seen : ProbeEvidence) :
    SameAttempts w (recoverProbe policy w key seen now) := by
  rcases recoverProbe_cases policy w key seen now with he | ⟨probe, admission, t, row, -, hadm, -, he⟩
  · rw [he]
    exact fun _ hb => hb
  · rw [he]
    exact sameAttempts_putAdmission admission _ hadm

theorem reportExhaustion_sameAttempts {e : QuotaExhaustion} {idempotencyKey : String}
    {sourceAttemptId actorId : Option UUID}
    (h : reportExhaustion policy w key e idempotencyKey sourceAttemptId actorId = .ok w') :
    w'.admissions = w.admissions ∧ w'.authoring = w.authoring := by
  rcases reportExhaustion_cases h with rfl | ⟨-, observation, rfl⟩
  · exact ⟨rfl, rfl⟩
  · exact ⟨rfl, rfl⟩

theorem settle_sameAttempts {exhaustion : Option QuotaExhaustion} {succeeded stopped : Bool}
    (h : settle policy w a exhaustion succeeded stopped now = .ok w') : SameAttempts w w' := by
  rcases settle_eq_ok h with rfl | ⟨admission, u, hadm, hu, hend⟩
  · exact fun _ hb => hb
  have hkeep : u.admissions = w.admissions ∧ u.authoring = w.authoring := by
    cases exhaustion with
    | none =>
      cases hu
      exact ⟨rfl, rfl⟩
    | some e => exact reportExhaustion_sameAttempts hu
  have hsame : SameAttempts w u := sameAttempts_of_tables hkeep.1 hkeep.2
  rcases hend with ⟨-, rfl⟩ | ⟨-, rfl⟩
  · exact hsame
  · intro b hb
    refine sameAttempts_putAdmission admission _ ?_ b (hsame b hb)
    rw [hkeep.1]
    exact hadm

theorem quotaSettle_sameAttempts {job : JobEvidence} {exhausted succeeded : Bool}
    {resetAt : Option ℤ} (h : quotaSettle policy w a job exhausted resetAt succeeded now = .ok w') :
    SameAttempts w w' := by
  obtain ⟨admission, u, hadm, hu, hend⟩ := quotaSettle_eq_ok h
  have hkeep : u.admissions = w.admissions ∧ u.authoring = w.authoring := by
    rw [hu]
    unfold observeAuthoring
    dsimp only
    split
    · exact ⟨rfl, rfl⟩
    · exact ⟨rfl, rfl⟩
  have hsame : SameAttempts w u := sameAttempts_of_tables hkeep.1 hkeep.2
  rcases hend with rfl | ⟨-, -, rfl⟩
  · exact hsame
  · intro b hb
    refine sameAttempts_putAuthoring admission _ ?_ b (hsame b hb)
    rw [hkeep.2]
    exact hadm

/- A grant admits no other attempt than its own. -/
theorem Grants.only {b : UUID} (h : Grants now w w' key b) (hnone : w.admission a = none)
    (hsome : w'.admission a ≠ none) : a = b := by
  by_contra hne
  have hpermit : w'.breaker.permits a = none := by
    rw [h.granted, permits_grant, if_neg hne]
    exact permits_none hnone
  exact hsome (Option.map_eq_none_iff.mp hpermit)

/- Whatever a call admits, it grants as its last act. -/
theorem perform_admits (call : Call) (hsound : Sound now w.breaker) (hsep : w.Separate)
    (hfresh : FreshId w call) (hread : ReadBefore now call) (hnone : w.admission a = none)
    (hsome : (perform policy w now call).admission a ≠ none) :
    ∃ u key, Moves now w.breaker u.breaker ∧ Grants now u (perform policy w now call) key a := by
  cases call with
  | admission key b seen =>
    have hperform : perform policy w now (.admission key b seen) =
        commit w (admitAttempt policy w key b seen now) := rfl
    rw [hperform] at hsome ⊢
    cases hout : admitAttempt policy w key b seen now with
    | error e =>
      rw [hout] at hsome
      exact absurd hnone hsome
    | ok w' =>
      rw [hout] at hsome
      show ∃ u key, Moves now w.breaker u.breaker ∧ Grants now u w' key a
      obtain ⟨u, hu, hgrants, -⟩ := admitAttempt_grants hsound hsep hfresh hout
      have hnoneU : u.admission a = none := by
        rw [hu]
        exact recoverProbe_sameAttempts key seen a hnone
      have hab : a = b := hgrants.only hnoneU hsome
      subst hab
      refine ⟨u, key, ?_, hgrants⟩
      rw [hu]
      exact (@recoverProbe_refines policy w now hsound hsep key seen).1
  | eligible key seen => exact absurd (recoverProbe_sameAttempts key seen a hnone) hsome
  | settle b exhaustion succeeded stopped =>
    exact absurd (commit_induct (·.admission a = none) hnone
      fun w' h => settle_sameAttempts h a hnone) hsome
  | report key e idempotencyKey sourceAttemptId actorId =>
    refine absurd (commit_induct (·.admission a = none) hnone fun w' h => ?_) hsome
    obtain ⟨hadm, hauth⟩ := reportExhaustion_sameAttempts h
    exact sameAttempts_of_tables hadm hauth a hnone
  | claim key b reserved readAt =>
    rcases @claim_grants w now key b reserved readAt hsep hfresh hread with he | ⟨hgrants, -⟩
    · have hsame : perform policy w now (.claim key b reserved readAt) = w := he
      rw [hsame] at hsome
      exact absurd hnone hsome
    · have hab : a = b := hgrants.only hnone hsome
      subst hab
      exact ⟨w, key, .refl, hgrants⟩
  | quotaSettle b job exhausted resetAt succeeded =>
    exact absurd (commit_induct (·.admission a = none) hnone
      fun w' h => quotaSettle_sameAttempts h a hnone) hsome

/-- The call brings an observation that is on record already. -/
def Recorded (w : Store) : Call → Prop
  | .report key _ idempotencyKey sourceAttemptId actorId =>
    w.observations.get (.evidence key sourceAttemptId actorId idempotencyKey) ≠ none
  | .settle a exhaustion _ _ => exhaustion ≠ none ∧ ∀ admission, w.admissions.get a = some admission →
    w.observations.get (.evidence admission.key (some a) none "provider-result") ≠ none
  | .quotaSettle a _ exhausted _ _ => exhausted = true ∧
    w.observations.any (fun _ o => o.sourceAttemptId == some a) = true
  | _ => False

/-- The pool as it is, or as it is without the probe that has just ended. -/
def Unmoved (row row' : QuotaPool) : Prop := row' = row ∨ row' = { row with probeAttemptId := none }

theorem reportExhaustion_replay {e : QuotaExhaustion} {idempotencyKey : String}
    {sourceAttemptId actorId : Option UUID}
    (hrec : w.observations.get (.evidence key sourceAttemptId actorId idempotencyKey) ≠ none)
    (h : reportExhaustion policy w key e idempotencyKey sourceAttemptId actorId = .ok w') : w' = w := by
  rcases reportExhaustion_cases h with rfl | ⟨hnone, -⟩
  · rfl
  · exact absurd hnone hrec

theorem settlePool_unmoved (row : QuotaPool) (admission : Admission) (succeeded : Bool) :
    Unmoved row (settlePool policy row admission a true succeeded now) := by
  unfold settlePool
  split
  · simp [Unmoved]
  · exact Or.inl rfl

theorem finishAuthoring_unmoved (row : QuotaPool) (admission : Admission) (succeeded : Bool) :
    Unmoved row (finishAuthoring policy row admission a true succeeded now) := by
  unfold finishAuthoring
  simp only [Bool.not_true, Bool.false_and, Bool.false_eq_true, if_false]
  split
  · exact Or.inr rfl
  · exact Or.inl rfl

theorem unmoved_putPool {row : QuotaPool} (h : Unmoved (w.pool key) row) (k : QuotaPoolKey) :
    Unmoved (w.pool k) ((w.putPool key row).pool k) := by
  rw [pool_putPool]
  split
  · next hk =>
    subst hk
    exact h
  · exact Or.inl rfl

/-- What a replay may touch: the admission, and the probe slot of a pool. -/
def Replays (w w' : Store) : Prop :=
  w'.observations = w.observations ∧ ∀ k, Unmoved (w.pool k) (w'.pool k)

theorem replays_self (w : Store) : Replays w w := ⟨rfl, fun _ => Or.inl rfl⟩

theorem perform_recorded (call : Call) (hrec : Recorded w call) :
    Replays w (perform policy w now call) := by
  cases call with
  | admission key b seen => exact hrec.elim
  | eligible key seen => exact hrec.elim
  | claim key b reserved readAt => exact hrec.elim
  | report key e idempotencyKey sourceAttemptId actorId =>
    refine commit_induct (Replays w) (replays_self w) fun w' h => ?_
    rw [reportExhaustion_replay hrec h]
    exact replays_self w
  | settle b exhaustion succeeded stopped =>
    refine commit_induct (Replays w) (replays_self w) fun w' h => ?_
    obtain ⟨hex, hrec⟩ := hrec
    rcases settle_eq_ok h with rfl | ⟨admission, u, hadm, hu, hend⟩
    · exact replays_self _
    obtain ⟨e, rfl⟩ := Option.ne_none_iff_exists'.mp hex
    have hsame : u = w := reportExhaustion_replay (hrec admission hadm) hu
    subst hsame
    rcases hend with ⟨-, rfl⟩ | ⟨-, rfl⟩
    · exact replays_self _
    · exact ⟨rfl, unmoved_putPool (settlePool_unmoved _ admission succeeded)⟩
  | quotaSettle b job exhausted resetAt succeeded =>
    refine commit_induct (Replays w) (replays_self w) fun w' h => ?_
    obtain ⟨rfl, hex⟩ := hrec
    obtain ⟨admission, u, hadm, hu, hend⟩ := quotaSettle_eq_ok h
    have hsame : u = w := by
      rw [hu]
      unfold observeAuthoring
      simp [hex]
    subst hsame
    rcases hend with rfl | ⟨-, -, rfl⟩
    · exact replays_self _
    · exact ⟨rfl, unmoved_putPool (finishAuthoring_unmoved _ admission succeeded)⟩

end calls

section runs

/-- The tables and the last instant at which they changed. -/
structure World where
  store : Store
  clock : ℤ

structure Timed where
  now : ℤ
  call : Call

def step (policy : QuotaPolicy) (s : World) (t : Timed) : World :=
  ⟨perform policy s.store t.now t.call, t.now⟩

/-- The clock does not go back, new attempts have new ids, and a claim reads the clock first. -/
def Admissible (s : World) (t : Timed) : Prop :=
  s.clock ≤ t.now ∧ FreshId s.store t.call ∧ ReadBefore t.now t.call

def World.Valid (s : World) : Prop := Sound s.clock s.store.breaker ∧ s.store.Separate

/-- An attempt that probes the pool and has not finished, in either subsystem. -/
def Store.Outstanding (w : Store) (key : QuotaPoolKey) (a : UUID) : Prop :=
  ∃ row, w.admission a = some row ∧ row.key = key ∧ row.probe = true ∧ row.finishedAt = none

/-- What a call must not do to the pools. A call admits an attempt only from the pool's next
eligible time on and only if no other probe is outstanding once it has recovered a lost one. -/
structure CircuitBreaks (before : Store) (t : Timed) (after : Store) : Prop where
  one_probe : ∀ key a b, after.Outstanding key a → after.Outstanding key b → a = b
  admitted_due : ∀ a row, before.admission a = none → after.admission a = some row →
    ((before.pool row.key).blocked = true →
      ∃ n, (before.pool row.key).nextEligibleAt = some n ∧ n ≤ t.now) ∧
    ((after.pool row.key).blocked = true →
      ∃ n, (after.pool row.key).nextEligibleAt = some n ∧ n ≤ t.now)
  admitted_alone : ∀ a row b, before.admission a = none → after.admission a = some row →
    after.Outstanding row.key b → b = a
  unblocked : ∀ key, (before.pool key).blocked = true → (after.pool key).blocked = false →
    ∃ a row, Succeeds a t.call ∧ before.admission a = some row ∧ row.key = key ∧
      row.probe = true ∧ row.finishedAt = none ∧ row.revision = (before.pool key).revision
  later : ∀ key, (before.pool key).blocked = true → (after.pool key).blocked = true →
    Later (before.pool key).nextEligibleAt (after.pool key).nextEligibleAt
  revision_le : ∀ key, (before.pool key).revision ≤ (after.pool key).revision
  replayed_report : ∀ key e idempotencyKey sourceAttemptId actorId,
    t.call = .report key e idempotencyKey sourceAttemptId actorId → Recorded before t.call →
      after = before
  replayed : Recorded before t.call → after.observations = before.observations ∧
    ∀ key, Unmoved (before.pool key) (after.pool key)

variable {policy : QuotaPolicy} {s : World} {t : Timed}

theorem empty_valid (start : ℤ) : World.Valid ⟨Store.empty, start⟩ := by
  refine ⟨?_, fun _ => Or.inl rfl⟩
  constructor
  case slot_live => exact fun k a h => by cases h
  case slot_blocked => exact fun k a h => by cases h
  case probe_slot => exact fun a p h => by cases h
  case revision_le => exact fun a p h => by cases h
  case blocked_next => exact fun k h => by cases h
  case slot_next => exact fun k a p h => by cases h

theorem step_refines (hs : s.Valid) (ht : Admissible s t) :
    Sound t.now s.store.breaker ∧ Refines s.store (step policy s t).store t.now t.call := by
  have hsound := hs.1.tick ht.1
  exact ⟨hsound, perform_refines t.call hsound hs.2 ht.2.1 ht.2.2⟩

theorem step_valid (hs : s.Valid) (ht : Admissible s t) : (step policy s t).Valid := by
  obtain ⟨hsound, hmoves, hsep⟩ := @step_refines policy s t hs ht
  refine ⟨?_, hsep⟩
  rcases hmoves with hm | ⟨a, hr, -⟩
  · exact hsound.moves hm
  · exact hsound.recovers hr

theorem run_valid (start : ℤ) (calls : List Timed)
    (h : Along (step policy) Admissible ⟨Store.empty, start⟩ calls) :
    (run (step policy) ⟨Store.empty, start⟩ calls).Valid :=
  run_invariant_along (step policy) Admissible World.Valid (fun _ _ hs ht => step_valid hs ht) _
    calls (empty_valid start) h

theorem Store.Outstanding.permit {w : Store} {key : QuotaPoolKey} {a : UUID}
    (h : w.Outstanding key a) :
    ∃ p, w.breaker.permits a = some p ∧ p.key = key ∧ p.probe = true ∧ p.live = true := by
  obtain ⟨row, hrow, hkey, hprobe, hopen⟩ := h
  refine ⟨row.permit, permits_of_admission hrow, hkey, hprobe, ?_⟩
  show row.finishedAt.isNone = true
  rw [hopen]
  rfl

theorem admission_of_permits {w : Store} {a : UUID} {p : Permit QuotaPoolKey}
    (h : w.breaker.permits a = some p) : ∃ row, w.admission a = some row ∧ row.permit = p :=
  Option.map_eq_some_iff.mp h

theorem one_outstanding (hs : s.Valid) (key : QuotaPoolKey) (a b : UUID)
    (ha : s.store.Outstanding key a) (hb : s.store.Outstanding key b) : a = b := by
  obtain ⟨p, hp, hkey, hprobe⟩ := ha.permit
  obtain ⟨q, hq, hkey', hprobe'⟩ := hb.permit
  exact hs.1.one_probe a b p q hp hq (hkey.trans hkey'.symm) hprobe hprobe'

/- What is known of the pool an attempt has just been admitted to. -/
theorem step_admits (hs : s.Valid) (ht : Admissible s t) {a : UUID} {row : Admission}
    (hnone : s.store.admission a = none)
    (hsome : (step policy s t).store.admission a = some row) :
    ∃ u, Moves t.now s.store.breaker u.breaker ∧
      Grants t.now u (step policy s t).store row.key a := by
  have hsound := hs.1.tick ht.1
  have hne : (perform policy s.store t.now t.call).admission a ≠ none := by
    show (step policy s t).store.admission a ≠ none
    rw [hsome]
    exact Option.some_ne_none row
  obtain ⟨u, key, hmoves, hgrants⟩ :=
    @perform_admits policy s.store t.now a t.call hsound hs.2 ht.2.1 ht.2.2 hnone hne
  have hkey : row.key = key := by
    have hpermit := permits_of_admission hsome
    have hbreaker : (step policy s t).store.breaker = u.breaker.grant key a := hgrants.granted
    rw [hbreaker, permits_grant, if_pos rfl, Option.some.injEq] at hpermit
    have hk : key = row.permit.key := by rw [← hpermit]
    exact hk.symm
  subst hkey
  exact ⟨u, hmoves, hgrants⟩

theorem step_admitted_due (hs : s.Valid) (ht : Admissible s t) {a : UUID} {row : Admission}
    (hnone : s.store.admission a = none)
    (hsome : (step policy s t).store.admission a = some row) :
    ((s.store.pool row.key).blocked = true →
      ∃ n, (s.store.pool row.key).nextEligibleAt = some n ∧ n ≤ t.now) ∧
    (((step policy s t).store.pool row.key).blocked = true →
      ∃ n, ((step policy s t).store.pool row.key).nextEligibleAt = some n ∧ n ≤ t.now) := by
  obtain ⟨u, hmoves, hgrants⟩ := step_admits hs ht hnone hsome
  constructor
  · intro hb
    obtain ⟨hbu, hlater⟩ := (hmoves.advances row.key).stays hb
    obtain ⟨-, n, hn, hle⟩ := hgrants.opened hbu
    obtain ⟨m, hm⟩ := hs.1.blocked_next row.key hb
    obtain ⟨n', hn', hmn⟩ := hlater m hm
    have hsame : (u.breaker.gates row.key).nextAt = some n := hn
    rw [hsame, Option.some.injEq] at hn'
    subst hn'
    exact ⟨m, hm, hmn.trans hle⟩
  · intro hb
    have hgate := @gates_grant _ _ _ u.breaker _ _ row.key row.key a
    rw [← hgrants.granted] at hgate
    obtain ⟨-, n, hn, hle⟩ := hgrants.opened (hgate.1.symm.trans hb)
    exact ⟨n, hgate.2.2.trans hn, hle⟩

theorem step_admitted_alone (hs : s.Valid) (ht : Admissible s t) {a b : UUID} {row : Admission}
    (hnone : s.store.admission a = none)
    (hsome : (step policy s t).store.admission a = some row)
    (hout : (step policy s t).store.Outstanding row.key b) : b = a := by
  obtain ⟨u, hmoves, hgrants⟩ := step_admits hs ht hnone hsome
  have hsoundU := (hs.1.tick ht.1).moves hmoves
  obtain ⟨p, hp, hkey, hprobe, hlive⟩ := hout.permit
  rw [hgrants.granted] at hp
  exact hsoundU.grant_alone row.key a b p (permits_none hgrants.fresh) hgrants.opened hp hkey hprobe
    hlive

/- Only the recovery of a probe unblocks, and only moves forward happen otherwise. -/
theorem step_unblocked (hs : s.Valid) (ht : Admissible s t) (key : QuotaPoolKey)
    (hb : (s.store.pool key).blocked = true)
    (hu : ((step policy s t).store.pool key).blocked = false) :
    ∃ a row, Succeeds a t.call ∧ s.store.admission a = some row ∧ row.key = key ∧
      row.probe = true ∧ row.finishedAt = none ∧ row.revision = (s.store.pool key).revision := by
  obtain ⟨-, hmoves, -⟩ := @step_refines policy s t hs ht
  rcases hmoves with hm | ⟨a, hr, hsucc⟩
  · have hstays : ((step policy s t).store.pool key).blocked = true := ((hm.advances key).stays hb).1
    rw [hu] at hstays
    cases hstays
  · obtain ⟨p, hp, hkey, hprobe, hlive, hrev⟩ := hr.unblocked key hb hu
    obtain ⟨row, hrow, rfl⟩ := admission_of_permits hp
    exact ⟨a, row, hsucc, hrow, hkey, hprobe, Option.isNone_iff_eq_none.mp hlive, hrev⟩

theorem step_replayed_report {key : QuotaPoolKey} {e : QuotaExhaustion} {idempotencyKey : String}
    {sourceAttemptId actorId : Option UUID}
    (hcall : t.call = .report key e idempotencyKey sourceAttemptId actorId)
    (hrec : Recorded s.store t.call) : (step policy s t).store = s.store := by
  unfold step
  rw [hcall] at hrec ⊢
  show commit s.store _ = s.store
  unfold commit
  split
  · next w' hok => exact reportExhaustion_replay hrec hok
  · rfl

theorem step_advances (hs : s.Valid) (ht : Admissible s t) (key : QuotaPoolKey) :
    (s.store.pool key).revision ≤ ((step policy s t).store.pool key).revision ∧
      ((s.store.pool key).blocked = true → ((step policy s t).store.pool key).blocked = true →
        Later (s.store.pool key).nextEligibleAt ((step policy s t).store.pool key).nextEligibleAt) := by
  obtain ⟨-, hmoves, -⟩ := @step_refines policy s t hs ht
  rcases hmoves with hm | ⟨a, hr, -⟩
  · have hadv := hm.advances key
    exact ⟨hadv.revision_le, fun hb _ => (hadv.stays hb).2⟩
  · exact ⟨hr.revision_le key, fun _ hb' => hr.later key hb'⟩

/-- The quota pools break the circuit in every run of both subsystems, at every call of it. -/
theorem quota_circuit_breaker (policy : QuotaPolicy) (start : ℤ) (calls : List Timed) (t : Timed)
    (h : Along (step policy) Admissible ⟨Store.empty, start⟩ (calls ++ [t])) :
    CircuitBreaks (run (step policy) ⟨Store.empty, start⟩ calls).store t
      (step policy (run (step policy) ⟨Store.empty, start⟩ calls) t).store := by
  have hsplit := (along_append (step policy) Admissible _ calls [t]).mp h
  have hs := run_valid start calls hsplit.1
  have ht := hsplit.2.1
  constructor
  case one_probe => exact one_outstanding (step_valid hs ht)
  case admitted_due => exact fun a row hnone hsome => step_admitted_due hs ht hnone hsome
  case admitted_alone => exact fun a row b hnone hsome hout => step_admitted_alone hs ht hnone hsome hout
  case unblocked => exact step_unblocked hs ht
  case later => exact fun key => (step_advances hs ht key).2
  case revision_le => exact fun key => (step_advances hs ht key).1
  case replayed_report =>
    intro key e idempotencyKey sourceAttemptId actorId hcall hrec
    exact step_replayed_report hcall hrec
  case replayed => exact fun hrec => perform_recorded t.call hrec

/-- Exhaustion with a known reset, a probe of each subsystem, and the success of the first. -/
def samplePolicy : QuotaPolicy := ⟨60, by decide⟩

def sampleKey : QuotaPoolKey := ⟨"codex", "default", "weekly"⟩

def sampleExhaustion : QuotaExhaustion := ⟨0, "usage_limit", some 10, by decide, by decide⟩

def sampleCalls : List Timed :=
  [⟨0, .report sampleKey sampleExhaustion "manual" none (some 7)⟩,
    ⟨10, .admission sampleKey 1 ⟨none, false, none, false⟩⟩,
    ⟨11, .claim sampleKey 2 true 11⟩]

def sampleSuccess : Timed := ⟨12, .settle 1 none true true⟩

theorem quota_circuit_breaker_probe :
    (run (step samplePolicy) ⟨Store.empty, 0⟩ sampleCalls).store.authoring.get 2 = none ∧
      ((run (step samplePolicy) ⟨Store.empty, 0⟩ sampleCalls).store.pool sampleKey).blocked = true ∧
      ∃ a row, Succeeds a sampleSuccess.call ∧
        (run (step samplePolicy) ⟨Store.empty, 0⟩ sampleCalls).store.admission a = some row ∧
        row.key = sampleKey ∧ row.probe = true ∧ row.finishedAt = none ∧ row.revision = 1 := by
  have hok : Along (step samplePolicy) Admissible ⟨Store.empty, 0⟩ (sampleCalls ++ [sampleSuccess]) :=
    ⟨⟨by decide, trivial, trivial⟩, ⟨by decide, rfl, trivial⟩, ⟨by decide, rfl, le_refl (11 : ℤ)⟩,
      ⟨by decide, trivial, trivial⟩, trivial⟩
  have hclaim := quota_circuit_breaker samplePolicy 0 sampleCalls sampleSuccess hok
  exact ⟨rfl, rfl, hclaim.unblocked sampleKey rfl rfl⟩

end runs

end ParallelForge.Quota
