import ParallelForge.Base.Breaker
import ParallelForge.Quota.Pool
import Mathlib.Data.Int.Order.Basic

/-!
# Quota pools are circuit breakers

The pool rows are the gates and the admissions of both subsystems the permits.
Each transaction makes moves of the breaker, except that a settlement of the
live probe of the current revision recovers its gate. The unconditional
cooldown of `quota_settle` is such a move because its probe was let in when
the pool was due, and nothing has moved the pool's time since.
-/

namespace ParallelForge.Quota
open Base Breaker

def QuotaPool.gate (row : QuotaPool) : Gate UUID ℤ :=
  ⟨row.revision, row.blocked, row.nextEligibleAt, row.probeAttemptId⟩

def Admission.permit (row : Admission) : Permit QuotaPoolKey :=
  ⟨row.key, row.revision, row.probe, row.finishedAt.isNone⟩

/-- The admission of an attempt in either table. -/
def Store.admission (w : Store) (a : UUID) : Option Admission :=
  (w.admissions.get a).or (w.authoring.get a)

def Store.breaker (w : Store) : Breaker QuotaPoolKey UUID ℤ where
  gates key := (w.pool key).gate
  permits a := (w.admission a).map Admission.permit

/-- An attempt is admitted by one of the subsystems only. -/
def Store.Separate (w : Store) : Prop := ∀ a, w.admissions.get a = none ∨ w.authoring.get a = none

section store
variable {w : Store}

theorem pool_putPool (key k : QuotaPoolKey) (row : QuotaPool) :
    (w.putPool key row).pool k = if k = key then row else w.pool k := by
  unfold Store.pool Store.putPool
  rw [Table.get_put]
  by_cases h : k = key
  · simp [h]
  · simp [h]

theorem breaker_putPool (key : QuotaPoolKey) (row : QuotaPool) :
    (w.putPool key row).breaker = w.breaker.setGate key row.gate := by
  unfold Store.breaker setGate
  congr 1
  funext k
  rw [pool_putPool]
  by_cases h : k = key
  · subst h
    simp
  · simp [h]

theorem breaker_putAdmission (a : UUID) (row : Admission) :
    (w.putAdmission a row).breaker = w.breaker.setPermit a row.permit := by
  unfold Store.breaker setPermit
  congr 1
  funext b
  unfold Store.admission Store.putAdmission
  rw [Table.get_put]
  by_cases h : b = a
  · subst h
    simp
  · simp [h]

theorem breaker_putAuthoring (a : UUID) (row : Admission) (hfree : w.admissions.get a = none) :
    (w.putAuthoring a row).breaker = w.breaker.setPermit a row.permit := by
  unfold Store.breaker setPermit
  congr 1
  funext b
  unfold Store.admission Store.putAuthoring
  rw [Table.get_put]
  by_cases h : b = a
  · subst h
    simp [hfree]
  · simp [h]

theorem breaker_putObservation (sourceKey : SourceKey) (row : Observation) :
    (w.putObservation sourceKey row).breaker = w.breaker := rfl

/- Writing a gate back changes nothing. -/
theorem setGate_self (s : Breaker QuotaPoolKey UUID ℤ) (key : QuotaPoolKey) :
    s.setGate key (s.gates key) = s := by
  unfold setGate
  rw [Function.update_eq_self]

theorem admission_of_admissions {a : UUID} {row : Admission} (h : w.admissions.get a = some row) :
    w.admission a = some row := by
  simp [Store.admission, h]

theorem admission_of_authoring (hsep : w.Separate) {a : UUID} {row : Admission}
    (h : w.authoring.get a = some row) : w.admission a = some row := by
  rcases hsep a with hnone | hnone
  · simp [Store.admission, hnone, h]
  · rw [hnone] at h
    cases h

theorem permits_of_admission {a : UUID} {row : Admission} (h : w.admission a = some row) :
    w.breaker.permits a = some row.permit := by
  show (w.admission a).map Admission.permit = some row.permit
  rw [h]
  rfl

end store

section rows
variable (policy : QuotaPolicy)

theorem cooldown_pos : 0 < policy.cooldown := by
  have h := policy.bounded.1
  unfold QuotaPolicy.cooldown
  omega

/-- New evidence blocks the pool at the next revision, and no earlier than before. -/
structure Exhausts (row row' : QuotaPool) : Prop where
  revision : row'.revision = row.revision + 1
  blocked : row'.blocked = true
  slot : row'.probeAttemptId = row.probeAttemptId
  next : ∃ n, row'.nextEligibleAt = some n
  later : row.blocked = true → Later row.nextEligibleAt row'.nextEligibleAt

/- The longer horizon wins, whichever of the two comparisons the subsystem uses. -/
theorem later_of_horizon (row : QuotaPool) (eligible : ℤ) (next : Option ℤ) (keep : Bool)
    (hset : keep = false → next = some eligible ∧
      (row.blocked = true → ∀ n, row.nextEligibleAt = some n → n ≤ eligible))
    (hkeep : keep = true → next = row.nextEligibleAt ∧ ∃ n, row.nextEligibleAt = some n) :
    (∃ n, next = some n) ∧ (row.blocked = true → Later row.nextEligibleAt next) := by
  cases keep with
  | false =>
    obtain ⟨hnext, hle⟩ := hset rfl
    exact ⟨⟨eligible, hnext⟩, fun hb n hn => ⟨eligible, hnext, hle hb n hn⟩⟩
  | true =>
    obtain ⟨hnext, n, hn⟩ := hkeep rfl
    rw [hnext]
    exact ⟨⟨n, hn⟩, fun _ => Later.refl _⟩

theorem exhaustPool_exhausts (row : QuotaPool) (e : QuotaExhaustion) :
    Exhausts row (exhaustPool policy row e) := by
  have hhorizon := later_of_horizon row (e.resetAt.getD (e.observedAt + policy.cooldown))
    (exhaustPool policy row e).nextEligibleAt
    (!(!row.blocked || row.nextEligibleAt.all
      (· ≤ e.resetAt.getD (e.observedAt + policy.cooldown)))) ?_ ?_
  · refine ⟨?_, rfl, ?_, hhorizon.1, hhorizon.2⟩
    · unfold exhaustPool
      dsimp only
      split <;> split <;> rfl
    · unfold exhaustPool
      dsimp only
      split <;> split <;> rfl
  · intro h
    rw [Bool.not_eq_false'] at h
    constructor
    · unfold exhaustPool
      dsimp only
      rw [if_pos h]
      split <;> rfl
    · intro hb n hn
      simpa [hb, hn] using h
  · intro h
    rw [Bool.not_eq_true'] at h
    have hneg := Bool.eq_false_iff.mp h
    constructor
    · unfold exhaustPool
      dsimp only
      rw [if_neg hneg]
      split <;> rfl
    · cases hn : row.nextEligibleAt with
      | none => simp [hn] at h
      | some n => exact ⟨n, rfl⟩

/-- A cooldown keeps the revision and blocks until no earlier than before. -/
structure Cools (row row' : QuotaPool) : Prop where
  revision : row'.revision = row.revision
  blocked : row'.blocked = true
  slot : row'.probeAttemptId = row.probeAttemptId
  later : Later row.nextEligibleAt row'.nextEligibleAt

theorem cooldown_cools (row : QuotaPool) (now : ℤ) : Cools row (cooldown policy row now) := by
  by_cases hset : row.nextEligibleAt.all (· < now + policy.cooldown) = true
  · have hrow : cooldown policy row now = { row with
        nextEligibleAt := some (now + policy.cooldown)
        resetAt := none
        retryBasis := some .probeCooldown
        blocked := true } := by
      unfold cooldown
      dsimp only
      rw [if_pos hset]
    rw [hrow]
    refine ⟨rfl, rfl, rfl, ?_⟩
    intro n hn
    simp only [hn, Option.all_some, decide_eq_true_eq] at hset
    exact ⟨_, rfl, hset.le⟩
  · have hrow : cooldown policy row now = { row with blocked := true } := by
      unfold cooldown
      dsimp only
      rw [if_neg hset]
    rw [hrow]
    exact ⟨rfl, rfl, rfl, Later.refl _⟩

/- An authoring observation finds later evidence and changes nothing, or acts as new evidence. -/
theorem exhaustAuthoring_exhausts (row : QuotaPool) (resetAt : Option ℤ) (now : ℤ) :
    exhaustAuthoring policy row resetAt now = row ∨
      Exhausts row (exhaustAuthoring policy row resetAt now) := by
  by_cases hlate : row.observedAt.all (· ≤ now) = true
  · right
    have hhorizon := later_of_horizon row (resetAt.getD (now + policy.cooldown))
      (exhaustAuthoring policy row resetAt now).nextEligibleAt
      (!(!row.blocked || row.nextEligibleAt.all (· < resetAt.getD (now + policy.cooldown)))) ?_ ?_
    · refine ⟨?_, ?_, ?_, hhorizon.1, hhorizon.2⟩
      · unfold exhaustAuthoring
        dsimp only
        rw [if_pos hlate]
        split <;> rfl
      · unfold exhaustAuthoring
        dsimp only
        rw [if_pos hlate]
      · unfold exhaustAuthoring
        dsimp only
        rw [if_pos hlate]
        split <;> rfl
    · intro h
      rw [Bool.not_eq_false'] at h
      constructor
      · unfold exhaustAuthoring
        dsimp only
        rw [if_pos hlate, if_pos h]
      · intro hb n hn
        simp only [hb, hn, Bool.not_true, Bool.false_or, Option.all_some, decide_eq_true_eq] at h
        exact h.le
    · intro h
      rw [Bool.not_eq_true'] at h
      have hneg := Bool.eq_false_iff.mp h
      constructor
      · unfold exhaustAuthoring
        dsimp only
        rw [if_pos hlate, if_neg hneg]
      · cases hn : row.nextEligibleAt with
        | none => simp [hn] at h
        | some n => exact ⟨n, rfl⟩
  · left
    unfold exhaustAuthoring
    dsimp only
    rw [if_neg hlate]

/-- An attempt ends: its slot is free, an untouched pool stays as it is, and a blocked one blocked. -/
structure Releases (a : UUID) (row row' : QuotaPool) : Prop where
  revision : row.revision ≤ row'.revision
  blocked : row'.blocked = row.blocked
  slot : row'.probeAttemptId = if row.probeAttemptId = some a then none else row.probeAttemptId
  later : Later row.nextEligibleAt row'.nextEligibleAt
  keep : row.probeAttemptId ≠ some a → row' = row

/-- The probe of the current revision ends well. -/
structure Unblocks (a : UUID) (admission : Admission) (row row' : QuotaPool) : Prop where
  slot : row.probeAttemptId = some a
  current : admission.revision = row.revision
  revision : row.revision ≤ row'.revision
  unblocked : row'.blocked = false
  free : row'.probeAttemptId = none

theorem releases_self (a : UUID) (row : QuotaPool) (h : row.probeAttemptId ≠ some a) :
    Releases a row row :=
  ⟨le_rfl, rfl, (if_neg h).symm, Later.refl _, fun _ => rfl⟩

theorem releases_slot (a : UUID) (row : QuotaPool) (h : row.probeAttemptId = some a) :
    Releases a row { row with probeAttemptId := none } :=
  ⟨le_rfl, rfl, (if_pos h).symm, Later.refl _, fun hne => absurd h hne⟩

theorem releases_cooldown (a : UUID) (row : QuotaPool) (now : ℤ) (h : row.probeAttemptId = some a)
    (hblocked : row.blocked = true) :
    Releases a row (cooldown policy { row with probeAttemptId := none } now) := by
  have hcools := cooldown_cools policy { row with probeAttemptId := none } now
  refine ⟨hcools.revision.ge, ?_, ?_, hcools.later, fun hne => absurd h hne⟩
  · rw [hcools.blocked, hblocked]
  · rw [hcools.slot, if_pos h]

theorem settlePool_cases (row : QuotaPool) (admission : Admission) (a : UUID)
    (exhausted succeeded : Bool) (now : ℤ)
    (hblocked : row.probeAttemptId = some a → row.blocked = true) :
    Releases a row (settlePool policy row admission a exhausted succeeded now) ∨
      (succeeded = true ∧ exhausted = false ∧
        Unblocks a admission row (settlePool policy row admission a exhausted succeeded now)) := by
  unfold settlePool
  by_cases hslot : row.probeAttemptId = some a
  · rw [if_pos (by simpa using hslot)]
    dsimp only
    split
    · next hwell =>
      simp only [Bool.and_eq_true, Bool.not_eq_true', beq_iff_eq] at hwell
      obtain ⟨⟨hsucc, hexh⟩, hrev⟩ := hwell
      exact Or.inr ⟨hsucc, hexh, hslot, hrev.symm, le_rfl, rfl, rfl⟩
    · split
      · exact Or.inl (releases_cooldown policy a row now hslot (hblocked hslot))
      · exact Or.inl (releases_slot a row hslot)
  · rw [if_neg (by simpa using hslot)]
    exact Or.inl (releases_self a row hslot)

theorem finishAuthoring_cases (row : QuotaPool) (admission : Admission) (a : UUID)
    (exhausted succeeded : Bool) (now : ℤ)
    (hblocked : row.probeAttemptId = some a → row.blocked = true)
    (hdue : row.probeAttemptId = some a → admission.revision = row.revision →
      ∃ n, row.nextEligibleAt = some n ∧ n ≤ now) :
    Releases a row (finishAuthoring policy row admission a exhausted succeeded now) ∨
      (succeeded = true ∧ exhausted = false ∧
        Unblocks a admission row (finishAuthoring policy row admission a exhausted succeeded now)) := by
  unfold finishAuthoring
  dsimp only
  by_cases hverdict : (!exhausted && admission.probe && row.probeAttemptId == some a &&
      row.revision == admission.revision) = true
  · rw [if_pos hverdict]
    simp only [Bool.and_eq_true, Bool.not_eq_true', beq_iff_eq] at hverdict
    obtain ⟨⟨⟨hexh, -⟩, hslot⟩, hrev⟩ := hverdict
    cases succeeded with
    | true =>
      refine Or.inr ⟨rfl, hexh, ?_⟩
      simp only [if_true, hslot, BEq.rfl]
      exact ⟨hslot, hrev.symm, Nat.le_succ _, rfl, rfl⟩
    | false =>
      -- the probe was let in when the pool was due, so the new time is later
      left
      obtain ⟨n, hn, hle⟩ := hdue hslot hrev.symm
      have hpos := cooldown_pos policy
      simp only [Bool.false_eq_true, if_false, hslot, BEq.rfl, if_true]
      refine ⟨Nat.le_succ _, (hblocked hslot).symm, (if_pos hslot).symm, ?_,
        fun hne => absurd hslot hne⟩
      intro m hm
      rw [hn, Option.some.injEq] at hm
      exact ⟨_, rfl, by omega⟩
  · rw [if_neg hverdict]
    split
    · next hslot => exact Or.inl (releases_slot a row (by simpa using hslot))
    · next hslot => exact Or.inl (releases_self a row (by simpa using hslot))

end rows

section moves
variable {policy : QuotaPolicy} {w w' : Store} {now : ℤ}

theorem move_of_exhausts (key : QuotaPoolKey) (row : QuotaPool) (h : Exhausts (w.pool key) row) :
    Move now w.breaker (w.putPool key row).breaker := by
  rw [breaker_putPool]
  exact .observed _ key _ h.revision h.blocked h.slot h.next h.later

/- The end of an attempt in the breaker, in whichever table its admission is. -/
theorem move_of_releases {a : UUID} {admission : Admission} {row : QuotaPool}
    (hadm : w.admission a = some admission) (h : Releases a (w.pool admission.key) row) :
    Move now w.breaker ((w.breaker.setGate admission.key row.gate).setPermit a
      { admission.permit with live := false }) := by
  refine Move.released w.breaker a admission.permit row.gate (permits_of_admission hadm)
    h.revision h.blocked h.slot h.later ?_
  intro hne
  rw [h.keep hne]
  rfl

theorem recovers_of_unblocks {a : UUID} {admission : Admission} {row : QuotaPool}
    (hsound : Sound now w.breaker) (hadm : w.admission a = some admission)
    (h : Unblocks a admission (w.pool admission.key) row) :
    Recovers a w.breaker ((w.breaker.setGate admission.key row.gate).setPermit a
      { admission.permit with live := false }) := by
  obtain ⟨p, hp, -, hprobe, hlive⟩ := hsound.slot_live admission.key a h.slot
  rw [permits_of_admission hadm, Option.some.injEq] at hp
  subst hp
  exact Recovers.recovered w.breaker admission.permit row.gate (permits_of_admission hadm) hprobe
    hlive h.slot h.current h.revision h.unblocked h.free

theorem reportExhaustion_cases {key : QuotaPoolKey} {e : QuotaExhaustion} {idempotencyKey : String}
    {sourceAttemptId actorId : Option UUID}
    (h : reportExhaustion policy w key e idempotencyKey sourceAttemptId actorId = .ok w') :
    w' = w ∨
      (w.observations.get (.evidence key sourceAttemptId actorId idempotencyKey) = none ∧
        ∃ observation, w' = (w.putObservation (.evidence key sourceAttemptId actorId idempotencyKey)
          observation).putPool key (exhaustPool policy (w.pool key) e)) := by
  unfold reportExhaustion at h
  simp only [bind_eq_ok, require_eq_ok, exists_const] at h
  obtain ⟨-, -, _, -, h⟩ := h
  split at h
  · simp only [bind_eq_ok, require_eq_ok, exists_const, Except.ok.injEq] at h
    exact Or.inl h.2.symm
  · next hnone =>
    rw [Except.ok.injEq] at h
    exact Or.inr ⟨hnone, _, h.symm⟩

theorem recoverProbe_cases (policy : QuotaPolicy) (w : Store) (key : QuotaPoolKey)
    (seen : ProbeEvidence) (now : ℤ) :
    recoverProbe policy w key seen now = w ∨ ∃ probe admission t row,
      (w.pool key).probeAttemptId = some probe ∧ w.admissions.get probe = some admission ∧
      (row = { w.pool key with probeAttemptId := none } ∨
        row = cooldown policy { w.pool key with probeAttemptId := none } now) ∧
      recoverProbe policy w key seen now =
        (w.putAdmission probe { admission with finishedAt := some t }).putPool key row := by
  unfold recoverProbe
  split
  · next probe attempt hslot hattempt =>
    split
    · next admission hadm =>
      split
      · exact Or.inl rfl
      · refine Or.inr ⟨probe, admission, _, _, hslot, hadm, ?_, rfl⟩
        dsimp only
        split
        · exact Or.inr rfl
        · exact Or.inl rfl
    · exact Or.inl rfl
  · exact Or.inl rfl

theorem recoverProbe_moves (hsound : Sound now w.breaker) (key : QuotaPoolKey)
    (seen : ProbeEvidence) : Moves now w.breaker (recoverProbe policy w key seen now).breaker := by
  rcases recoverProbe_cases policy w key seen now with he | ⟨probe, admission, t, row, hslot, hadm, hrow, he⟩
  · rw [he]
  · have hadm' := admission_of_admissions hadm
    have hkey : admission.key = key := by
      obtain ⟨p, hp, hk, -⟩ := hsound.slot_live key probe hslot
      rw [permits_of_admission hadm', Option.some.injEq] at hp
      subst hp
      exact hk
    subst hkey
    have hreleases : Releases probe (w.pool admission.key) row := by
      rcases hrow with rfl | rfl
      · exact releases_slot probe _ hslot
      · exact releases_cooldown policy probe _ now hslot (hsound.slot_blocked _ probe hslot)
    rw [he, breaker_putPool, breaker_putAdmission]
    exact .single (move_of_releases hadm' hreleases)

theorem allowsAttempt_iff (row : QuotaPool) (now : ℤ) :
    allowsAttempt row now = true ↔ (row.blocked = true → due row now = true) := by
  unfold allowsAttempt statusOf
  cases row.blocked <;> cases due row now <;> simp

theorem due_iff (row : QuotaPool) (now : ℤ) :
    due row now = true ↔
      row.probeAttemptId = none ∧ ∃ n, row.nextEligibleAt = some n ∧ n ≤ now := by
  simp [due, Option.any_eq_true]

/- What both subsystems write for a new attempt is a grant, in whichever table. -/
theorem breaker_grant (key : QuotaPoolKey) (a : UUID) (row : Admission)
    (hrow : row = ⟨key, (w.pool key).revision, (w.pool key).blocked, none⟩)
    (hw' : w'.breaker = if (w.pool key).blocked then
        (w.breaker.setPermit a row.permit).setGate key
          { (w.pool key).gate with slot := some a }
      else w.breaker.setPermit a row.permit) :
    w'.breaker = w.breaker.grant key a := by
  unfold grant
  rw [hw', hrow]
  cases hb : (w.pool key).blocked with
  | true =>
    have hgate : (w.breaker.gates key).blocked = true := hb
    rw [if_pos rfl, hgate, if_pos rfl]
    rfl
  | false =>
    have hgate : (w.breaker.gates key).blocked = false := hb
    have hself : { w.breaker.gates key with slot := (w.breaker.gates key).slot }
        = w.breaker.gates key := rfl
    rw [if_neg Bool.false_ne_true, hgate, if_neg Bool.false_ne_true, hself, setGate_self]
    rfl

/-- An attempt that neither table knows is admitted to a pool that is open to it. -/
structure Grants (now : ℤ) (w w' : Store) (key : QuotaPoolKey) (a : UUID) : Prop where
  fresh : w.admission a = none
  opened : (w.pool key).blocked = true →
    (w.pool key).probeAttemptId = none ∧ ∃ n, (w.pool key).nextEligibleAt = some n ∧ n ≤ now
  granted : w'.breaker = w.breaker.grant key a

theorem permits_none {a : UUID} (h : w.admission a = none) : w.breaker.permits a = none := by
  show (w.admission a).map _ = none
  rw [h]
  rfl

theorem Grants.move {key : QuotaPoolKey} {a : UUID} (h : Grants now w w' key a) :
    Move now w.breaker w'.breaker := by
  rw [h.granted]
  exact Move.granted w.breaker key a (permits_none h.fresh) h.opened

end moves

end ParallelForge.Quota
