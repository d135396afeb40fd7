import ParallelForge.Operation.Contract

/-!
# Owners, takeovers and replays

An owner that is not the row's owner, or whose lease has ended at the time it
reads, is out: it can renew nothing, and what it settles is refused unless the
row is already settled in the same way. The same way means the outcome as the JSONB
column gives it back.
-/

namespace ParallelForge.Operation
open Base

variable {red : Durability}

/-- `owner` holds the row at time `t`. -/
def Holds (r : OperationRow) (owner : String) (t : ℤ) : Prop :=
  r.executionOwner = some owner ∧ ∃ e, r.executionLeaseExpiresAt = some e ∧ t < e

/-- The lease of `owner` was taken over, or has ended by time `t`. -/
def Lost (r : OperationRow) (owner : String) (t : ℤ) : Prop :=
  r.executionOwner ≠ some owner ∨ ∀ e, r.executionLeaseExpiresAt = some e → e ≤ t

/-- A later call in which `owner` does not claim intent `i` again, and reads no
clock before `t` when it acts on `i`. -/
def StaysOut (i : UUID) (owner : String) (t : ℤ) : StoreOp red → Prop
  | .begin .. => True
  | .claim id o _ _ => id = i → o ≠ owner
  | .renew id o _ now => id = i → o = owner → t ≤ now
  | .complete id _ o checkedAt _ => id = i → o = some owner → t ≤ checkedAt
  | .fail id _ _ o checkedAt _ => id = i → o = some owner → t ≤ checkedAt

/-- The call raises, or finds the row settled and hands it back. -/
def Unmoved (store : Store) (i : UUID)
    (res : Except StoreError (Store × OperationIntent red)) : Prop :=
  (∃ e, res = .error e) ∨
    ∃ intent r, store.get i = some r ∧ r.status.terminal = true ∧ res = .ok (store, intent) ∧
      intent.row = r

theorem lost_not_owns (r : OperationRow) (owner : String) (t now : ℤ) (h : Lost r owner t)
    (hle : t ≤ now) : ownsExecution r (some owner) now = false := by
  rw [Bool.eq_false_iff]
  intro ho
  obtain ⟨he, e, hex, hlt⟩ := (ownsExecution_iff r owner now).mp ho
  rcases h with h | h
  · exact h he
  · have := h e hex
    omega

/- A call that stays out leaves `owner` without the lease. -/
theorem change_lost (r r' : OperationRow) (op : StoreOp red) (i : UUID) (owner : String) (t : ℤ)
    (hid : r.id = i) (h : Lost r owner t) (hs : StaysOut i owner t op) (hch : Change r op r') :
    Lost r' owner t := by
  cases hch with
  | same => exact h
  | claimed id o lease now hid' _ _ =>
    left
    have hne : o ≠ owner := hs (hid'.symm.trans hid)
    simpa [claimedRow] using hne
  | renewed id o lease now hid' ho =>
    left
    have hne : o ≠ owner := by
      intro heq
      subst heq
      rw [lost_not_owns r o t now h (hs (hid'.symm.trans hid) rfl)] at ho
      cases ho
    rw [(ownsExecution_owner _ _ _ ho).1]
    simpa using hne
  | completed => left; simp [completedRow]
  | failed => left; simp [failedRow]

theorem run_lost (store : Store) (h : StoreInv red store) (ops : List (StoreOp red)) (i : UUID)
    (r : OperationRow) (owner : String) (t : ℤ) (hr : store.get i = some r)
    (hl : Lost r owner t) (hs : ∀ op ∈ ops, StaysOut i owner t op) :
    ∃ r', (run (storeStep red) store ops).get i = some r' ∧ Lost r' owner t := by
  induction ops generalizing store r with
  | nil => exact ⟨r, hr, hl⟩
  | cons op ops ih =>
    obtain ⟨r', hr', hch⟩ := storeStep_change store op h i r hr
    have hl' := change_lost r r' op i owner t (h.identity i r hr) hl (hs op List.mem_cons_self) hch
    exact ih _ (storeStep_inv store op h) r' hr' hl' fun o ho => hs o (List.mem_cons_of_mem _ ho)

theorem renew_lost (store : Store) (i : UUID) (r : OperationRow) (owner : String)
    (t lease now : ℤ) (hr : store.get i = some r) (hl : Lost r owner t) (hle : t ≤ now) :
    ∃ e, renewExecution red store i owner lease now = .error e := by
  cases hc : renewExecution red store i owner lease now with
  | error e => exact ⟨e, rfl⟩
  | ok p =>
    obtain ⟨r', hr', ho, -⟩ := renewExecution_eq_ok red _ _ _ _ _ _ _ hc
    rw [hr] at hr'
    cases hr'
    rw [lost_not_owns r owner t now hl hle] at ho
    cases ho

theorem complete_lost (store : Store) (i : UUID) (r : OperationRow) (owner : String)
    (outcome : OperationOutcome red) (t checkedAt now : ℤ) (hr : store.get i = some r)
    (hl : Lost r owner t) (hle : t ≤ checkedAt) :
    Unmoved store i (complete red store i outcome (some owner) checkedAt now) := by
  cases hc : complete red store i outcome (some owner) checkedAt now with
  | error e => exact Or.inl ⟨e, rfl⟩
  | ok p =>
    obtain ⟨store', intent⟩ := p
    obtain ⟨r', hr', ⟨hst, -, -, rfl, hrow⟩ | ⟨-, ho, -⟩⟩ := complete_eq_ok red _ _ _ _ _ _ _ _ hc
    · exact Or.inr ⟨intent, r', hr', by rw [hst]; rfl, rfl, hrow⟩
    · rw [hr] at hr'
      cases hr'
      rw [lost_not_owns r owner t checkedAt hl hle] at ho
      cases ho

theorem fail_lost (store : Store) (i : UUID) (r : OperationRow) (owner error : String)
    (needs : Bool) (t checkedAt now : ℤ) (hr : store.get i = some r) (hl : Lost r owner t)
    (hle : t ≤ checkedAt) :
    Unmoved store i (fail red store i error needs (some owner) checkedAt now) := by
  cases hc : fail red store i error needs (some owner) checkedAt now with
  | error e => exact Or.inl ⟨e, rfl⟩
  | ok p =>
    obtain ⟨store', intent⟩ := p
    obtain ⟨r', hr', ⟨hst, -, -, rfl, hrow⟩ | ⟨-, ho, -⟩⟩ := fail_eq_ok red _ _ _ _ _ _ _ _ _ hc
    · exact Or.inr ⟨intent, r', hr', by rw [hst]; rfl, rfl, hrow⟩
    · rw [hr] at hr'
      cases hr'
      rw [lost_not_owns r owner t checkedAt hl hle] at ho
      cases ho

/- Replays on a settled row. -/

theorem complete_succeeded (store : Store) (i : UUID) (r : OperationRow)
    (outcome : OperationOutcome red) (owner : Option String) (checkedAt now : ℤ)
    (hr : store.get i = some r) (hw : wellFormed red r = true) (hst : r.status = .succeeded)
    (ho : outcome.status = .succeeded) :
    complete red store i outcome owner checkedAt now =
      if r.remoteResourceId = outcome.remoteResourceId ∧ r.outcome = some outcome.payload then
        .ok (store, ⟨r, false, hw⟩)
      else .error (.stateConflict i "already has a different outcome") := by
  have hl : locked store i = .ok r := (locked_eq_ok store i r).mpr hr
  unfold complete
  rw [ho, hl]
  simp only [require, if_true, bind, Except.bind, hst, intentFromRecord_ok red r false hw]
  by_cases h : r.remoteResourceId = outcome.remoteResourceId ∧ r.outcome = some outcome.payload
  · rw [if_pos h, if_pos h]; rfl
  · rw [if_neg h, if_neg h]

theorem fail_failed (store : Store) (i : UUID) (r : OperationRow) (error : String)
    (owner : Option String) (checkedAt now : ℤ)
    (hr : store.get i = some r) (hw : wellFormed red r = true) (hst : r.status = .failed) :
    fail red store i error false owner checkedAt now =
      if r.error = some (boundedError red error) then .ok (store, ⟨r, false, hw⟩)
      else .error (.stateConflict i "already has a different failure") := by
  have hl : locked store i = .ok r := (locked_eq_ok store i r).mpr hr
  unfold fail
  rw [hl]
  simp only [bind, Except.bind, hst, and_self, if_true, intentFromRecord_ok red r false hw, require]
  by_cases h : r.error = some (boundedError red error)
  · rw [if_pos h, if_pos h]; rfl
  · rw [if_neg h, if_neg h]

theorem fail_terminal (store : Store) (i : UUID) (r : OperationRow) (error : String) (needs : Bool)
    (owner : Option String) (checkedAt now : ℤ) (hr : store.get i = some r)
    (hw : wellFormed red r = true) (ht : r.status.terminal = true)
    (hne : ¬ (r.status = .failed ∧ needs = false)) :
    ∃ e, fail red store i error needs owner checkedAt now = .error e := by
  cases hc : fail red store i error needs owner checkedAt now with
  | error e => exact ⟨e, rfl⟩
  | ok p =>
    obtain ⟨r', hr', ⟨hs, hn, -⟩ | ⟨-, ho, -⟩⟩ := fail_eq_ok red _ _ _ _ _ _ _ _ _ hc
    · rw [hr] at hr'; cases hr'; exact absurd ⟨hs, hn⟩ hne
    · rw [hr] at hr'; cases hr'
      obtain ⟨he, hnone⟩ := ownsExecution_owner _ _ _ ho
      exact absurd (he.symm.trans (wellFormed_terminal red r hw ht)) hnone

/-- Replays on the settled row `r` of intent `i`: the same outcome or failure
returns it, everything else raises, and the table is left as it was. -/
structure Replays (store : Store) (i : UUID) (r : OperationRow) : Prop where
  complete_same : r.status = .succeeded → ∀ (outcome : OperationOutcome red) owner c n,
    outcome.status = .succeeded → r.remoteResourceId = outcome.remoteResourceId →
    r.outcome = some outcome.payload →
    ∃ intent, complete red store i outcome owner c n = .ok (store, intent) ∧ intent.row = r
  complete_other : ∀ (outcome : OperationOutcome red) owner c n,
    ¬ (r.status = .succeeded ∧ r.remoteResourceId = outcome.remoteResourceId ∧
      r.outcome = some outcome.payload) →
    (∃ e, complete red store i outcome owner c n = .error e) ∧
      storeStep red store (.complete i outcome owner c n) = store
  fail_same : r.status = .failed → ∀ error owner c n, r.error = some (boundedError red error) →
    ∃ intent, fail red store i error false owner c n = .ok (store, intent) ∧ intent.row = r
  fail_other : ∀ error needs owner c n,
    ¬ (r.status = .failed ∧ needs = false ∧ r.error = some (boundedError red error)) →
    (∃ e, fail red store i error needs owner c n = .error e) ∧
      storeStep red store (.fail i error needs owner c n) = store

theorem replays_of_terminal (store : Store) (i : UUID) (r : OperationRow)
    (hr : store.get i = some r) (hw : wellFormed red r = true) (ht : r.status.terminal = true) :
    @Replays red store i r := by
  refine ⟨?_, ?_, ?_, ?_⟩
  · intro hst outcome owner c n ho hremote hpayload
    rw [complete_succeeded store i r outcome owner c n hr hw hst ho, if_pos ⟨hremote, hpayload⟩]
    exact ⟨_, rfl, rfl⟩
  · intro outcome owner c n hne
    have he : ∃ e, complete red store i outcome owner c n = .error e := by
      cases hc : complete red store i outcome owner c n with
      | error e => exact ⟨e, rfl⟩
      | ok p =>
        obtain ⟨r', hr', ⟨h1, h2, h3, -⟩ | ⟨hn, -⟩⟩ := complete_eq_ok red _ _ _ _ _ _ _ _ hc
        · rw [hr] at hr'; cases hr'; exact absurd ⟨h1, h2, h3⟩ hne
        · rw [hr] at hr'; cases hr'; rw [ht] at hn; cases hn
    refine ⟨he, ?_⟩
    obtain ⟨e, he⟩ := he
    simp only [storeStep, StoreOp.call, he]
  · intro hst error owner c n herr
    rw [fail_failed store i r error owner c n hr hw hst, if_pos herr]
    exact ⟨_, rfl, rfl⟩
  · intro error needs owner c n hne
    have he : ∃ e, fail red store i error needs owner c n = .error e := by
      by_cases hf : r.status = .failed ∧ needs = false
      · obtain ⟨hst, rfl⟩ := hf
        rw [fail_failed store i r error owner c n hr hw hst,
          if_neg fun h => hne ⟨hst, rfl, h⟩]
        exact ⟨_, rfl⟩
      · exact fail_terminal store i r error needs owner c n hr hw ht hf
    refine ⟨he, ?_⟩
    obtain ⟨e, he⟩ := he
    simp only [storeStep, StoreOp.call, he]

/-- The call that settled intent `i` with `outcome`, made again on a later store. The row
holds what the column gives back of the payload, so this is a replay exactly when that is
the payload as it was given. -/
structure Repeats (later : Store) (i : UUID) (row : OperationRow) (outcome : OperationOutcome red) :
    Prop where
  stored : later.get i = some row
  replay : red.jsonb outcome.payload = some outcome.payload → ∀ owner c n,
    ∃ intent, complete red later i outcome owner c n = .ok (later, intent) ∧ intent.row = row
  refused : red.jsonb outcome.payload ≠ some outcome.payload → ∀ owner c n,
    (∃ e, complete red later i outcome owner c n = .error e) ∧
      storeStep red later (.complete i outcome owner c n) = later

theorem repeats_of_complete (store store' : Store) (h : StoreInv red store) (i : UUID) (r : OperationRow)
    (outcome : OperationOutcome red) (owner : Option String) (c n : ℤ) (intent : OperationIntent red)
    (hr : store.get i = some r) (hopen : r.status.terminal = false)
    (hc : complete red store i outcome owner c n = .ok (store', intent)) (more : List (StoreOp red)) :
    Repeats (run (storeStep red) store' more) i intent.row outcome := by
  have hsucceeded : outcome.status = .succeeded := by
    unfold complete at hc
    rw [require_bind_eq_ok] at hc
    exact hc.1
  have hstep : storeStep red store (.complete i outcome owner c n) = store' := by
    simp only [storeStep, StoreOp.call, hc]
  obtain ⟨r', hr', ⟨hst, -⟩ | ⟨-, -, stored, hstored, hs, hrow, -⟩⟩ :=
    complete_eq_ok red _ _ _ _ _ _ _ _ hc
  · rw [hr] at hr'
    cases hr'
    rw [hst] at hopen
    cases hopen
  · have hinv' : StoreInv red store' := hstep ▸ storeStep_inv store _ h
    have hget : store'.get i = some intent.row := by rw [hs, hrow, Table.get_put_self]
    have hst : intent.row.status = .succeeded := by rw [hrow]; rfl
    have ht : intent.row.status.terminal = true := by rw [hst]; rfl
    have hlater := run_terminal store' hinv' more i _ hget ht
    have hvalid := hinv'.valid i _ hget
    have hremote : intent.row.remoteResourceId = outcome.remoteResourceId := by rw [hrow]; rfl
    have houtcome : intent.row.outcome = red.jsonb outcome.payload := by rw [hrow, hstored]; rfl
    have hreplays := replays_of_terminal _ i _ hlater hvalid ht
    refine ⟨hlater, ?_, ?_⟩
    · intro hsame owner c n
      exact hreplays.complete_same hst outcome owner c n hsucceeded hremote (houtcome.trans hsame)
    · intro hother owner c n
      exact hreplays.complete_other outcome owner c n fun hq => hother (houtcome.symm.trans hq.2.2)

/-- The store after any sequence of calls at any clock readings: one owner at a
time, and a takeover only of an expired one; settled rows never change; an
owner that lost its lease stays without effect until it claims again; replays of
the outcome that is stored return the stored intent, other outcomes raise, and a
completing call is such a replay of itself exactly when the column gives its payload
back unchanged. -/
theorem store_contract (red : Durability) (ops : List (StoreOp red)) :
    let store := run (storeStep red) Table.empty ops
    (∀ i r o o' t t', store.get i = some r → Holds r o t → Holds r o' t' → o = o') ∧
    (∀ i r o o' lease now store' claim, store.get i = some r → Holds r o now →
      claimForRecovery red store i o' lease now = .ok (store', claim) →
      claim.acquired = false ∧ store' = store) ∧
    (∀ i r more, store.get i = some r → r.status.terminal = true →
      (run (storeStep red) store more).get i = some r) ∧
    (∀ i r o t more, store.get i = some r → Lost r o t →
      (∀ op ∈ more, StaysOut i o t op) →
      let later := run (storeStep red) store more
      (∀ lease now, t ≤ now → ∃ e, renewExecution red later i o lease now = .error e) ∧
      (∀ outcome c n, t ≤ c → Unmoved later i (complete red later i outcome (some o) c n)) ∧
      (∀ error needs c n, t ≤ c → Unmoved later i (fail red later i error needs (some o) c n))) ∧
    (∀ i r, store.get i = some r → r.status.terminal = true → @Replays red store i r) ∧
    (∀ i r outcome owner c n store' intent, store.get i = some r → r.status.terminal = false →
      complete red store i outcome owner c n = .ok (store', intent) →
      ∀ more, Repeats (run (storeStep red) store' more) i intent.row outcome) := by
  intro store
  have hinv : StoreInv red store := run_inv ops
  refine ⟨?_, ?_, ?_, ?_, ?_, ?_⟩
  · intro i r o o' t t' _ h h'
    exact Option.some_inj.mp (h.1.symm.trans h'.1)
  · intro i r o o' lease now store' claim hr hh hc
    obtain ⟨r', hr', ⟨hs, ha, -⟩ | ⟨-, hl, -⟩⟩ := claimForRecovery_eq_ok red _ _ _ _ _ _ _ hc
    · exact ⟨ha, hs⟩
    · rw [hr] at hr'
      cases hr'
      obtain ⟨he, e, hex, hlt⟩ := hh
      simp [liveOwner, he, hex, hlt] at hl
  · intro i r more hr ht
    exact run_terminal store hinv more i r hr ht
  · intro i r o t more hr hl hs
    obtain ⟨r', hr', hl'⟩ := run_lost store hinv more i r o t hr hl hs
    refine ⟨?_, ?_, ?_⟩
    · intro lease now hle
      exact renew_lost _ i r' o t lease now hr' hl' hle
    · intro outcome c n hle
      exact complete_lost _ i r' o outcome t c n hr' hl' hle
    · intro error needs c n hle
      exact fail_lost _ i r' o error needs t c n hr' hl' hle
  · intro i r hr ht
    exact replays_of_terminal store i r hr (hinv.valid i r hr) ht
  · intro i r outcome owner c n store' intent hr hopen hc more
    exact repeats_of_complete store store' hinv i r outcome owner c n intent hr hopen hc more

/-- Columns that hold every payload as it is written, but for one float that comes back
as an integer. -/
def sampleDurability : Durability where
  containsCredential := fun _ => false
  redactDurableText := id
  jsonb payload :=
    if payload = "\x7b\"a\":1e+16\x7d" then some "\x7b\"a\":10000000000000000\x7d" else some payload

/- One intent, begun and completed by its owner. -/

def sampleBegin : BeginArgs where
  runId := 1
  operationType := some "merge"
  idempotencyKey := "merge-1"
  requestDigest := "0123456789abcdef0123456789abcdef0123456789abcdef0123456789abcdef"
  requestPayload := "[]"
  requestSchemaVersion := 1
  kind := none
  operationKind := none
  executionOwner := some "a"
  executionLease := some 30000000
  operationId := none

def sampleOutcome : OperationOutcome sampleDurability :=
  ⟨some "remote-1", "[]", .succeeded, none, 1, by decide⟩

def floatOutcome : OperationOutcome sampleDurability :=
  ⟨some "remote-1", "\x7b\"a\":1e+16\x7d", .succeeded, none, 1, by decide⟩

def sampleOps : List (StoreOp sampleDurability) :=
  [.begin sampleBegin 7 true 0, .complete 7 sampleOutcome (some "a") 10 11]

theorem store_contract_merge : ∃ r,
    (run (storeStep sampleDurability) Table.empty sampleOps).get 7 = some r ∧
    r.status = .succeeded ∧
    (run (storeStep sampleDurability) (run (storeStep sampleDurability) Table.empty sampleOps)
      [.fail 7 "late" false (some "a") 12 12]).get 7 = some r := by
  have hr : ((run (storeStep sampleDurability) Table.empty sampleOps).get 7).isSome = true := by
    decide +kernel
  obtain ⟨r, hr⟩ := Option.isSome_iff_exists.mp hr
  have hst : ((run (storeStep sampleDurability) Table.empty sampleOps).get 7).map
      OperationRow.status = some .succeeded := by decide +kernel
  rw [hr, Option.map_some, Option.some_inj] at hst
  refine ⟨r, hr, hst, ?_⟩
  exact (store_contract sampleDurability sampleOps).2.2.1 7 r _ hr (by rw [hst]; rfl)

/-- An outcome whose payload the column gives back otherwise is stored, and the same
outcome again is refused as a different one. -/
theorem store_contract_float :
    let store := run (storeStep sampleDurability) Table.empty
      [.begin sampleBegin 7 true 0, .complete 7 floatOutcome (some "a") 10 11]
    (store.get 7).map OperationRow.status = some .succeeded ∧
    (complete sampleDurability store 7 floatOutcome (some "a") 12 13).map (fun _ => ()) =
      .error (.stateConflict 7 "already has a different outcome") := by
  decide +kernel

end ParallelForge.Operation
