import ParallelForge.Operation.Store

/-!
# What the store promises

`Change` lists what a call can do to one existing row. From it: every stored
row stays well formed under its own key, a settled row never changes, and an
owner that lost its lease stays out until it claims again.
-/

namespace ParallelForge.Operation
open Base

section calls
variable (red : Durability)

theorem intentFromRecord_eq_ok (r : OperationRow) (b : Bool) (intent : OperationIntent red)
    (h : intentFromRecord red r b = .ok intent) :
    intent.row = r ∧ intent.isNew = b ∧ wellFormed red r = true := by
  unfold intentFromRecord at h
  split at h
  · next hw =>
    cases h
    exact ⟨rfl, rfl, hw⟩
  · cases h

theorem intentFromRecord_ok (r : OperationRow) (b : Bool) (h : wellFormed red r = true) :
    intentFromRecord red r b = .ok ⟨r, b, h⟩ := by
  rw [intentFromRecord, dif_pos h]

theorem locked_eq_ok (store : Store) (id : UUID) (r : OperationRow) :
    locked store id = .ok r ↔ store.get id = some r := by
  unfold locked
  cases store.get id with
  | none => simp
  | some r' => simp

theorem column_eq_ok (payload stored : Payload) :
    column red payload = .ok stored ↔ red.jsonb payload = some stored :=
  orRaise_eq_ok _ _ _

/-- A new key goes to a new row, which holds what the column gives back of the payload;
an old key changes nothing. -/
theorem beginCore_eq_ok (store store' : Store) (candidate : OperationRow)
    (intent : OperationIntent red) (h : beginCore red store candidate = .ok (store', intent)) :
    (store' = store ∧ intent.isNew = false ∧ findByKey store candidate.idempotencyKey ≠ none) ∨
      ∃ row : OperationRow, (∃ stored, row = { candidate with requestPayload := stored }) ∧
        findByKey store row.idempotencyKey = none ∧ store.get row.id = none ∧
        store' = store.put row.id row ∧ intent.row = row ∧
        intent.isNew = true ∧ wellFormed red row = true := by
  unfold beginCore at h
  rw [bind_eq_ok] at h
  obtain ⟨stored, -, h⟩ := h
  split at h
  · next hk =>
    split at h
    · cases h
    · next hid =>
      rw [bind_eq_ok] at h
      obtain ⟨i, hi, h⟩ := h
      cases h
      obtain ⟨hr, hn, hw⟩ := intentFromRecord_eq_ok red _ _ _ hi
      exact Or.inr ⟨_, ⟨stored, rfl⟩, hk, hid, rfl, hr, hn, hw⟩
  · next byKey hk =>
    rw [bind_eq_ok] at h
    obtain ⟨i, hi, h⟩ := h
    rw [require_bind_eq_ok] at h
    cases h.2
    exact Or.inl ⟨rfl, (intentFromRecord_eq_ok red _ _ _ hi).2.1, by rw [hk]; simp⟩

/- The row a call of `begin` may insert. -/
theorem beginIntent_eq_ok (store store' : Store) (args : BeginArgs) (freshId : UUID)
    (runLoads : Bool) (now : ℤ) (intent : OperationIntent red)
    (h : beginIntent red store args freshId runLoads now = .ok (store', intent)) :
    ∃ kind, beginCore red store (candidateRow args kind (args.operationId.getD freshId) now)
      = .ok (store', intent) := by
  unfold beginIntent at h
  rw [require_bind_eq_ok] at h
  obtain ⟨-, h⟩ := h
  split at h
  · cases h
  · next kind _ =>
    rw [bind_unit_eq_ok, bind_unit_eq_ok, require_bind_eq_ok, bind_eq_ok] at h
    obtain ⟨-, -, -, res, hres, h⟩ := h
    rw [require_bind_eq_ok] at h
    cases h.2
    exact ⟨kind, hres⟩

theorem claimForRecovery_eq_ok (store store' : Store) (id : UUID) (owner : String)
    (lease now : ℤ) (claim : OperationExecutionClaim red)
    (h : claimForRecovery red store id owner lease now = .ok (store', claim)) :
    ∃ r, store.get id = some r ∧
      ((store' = store ∧ claim.acquired = false ∧ claim.intent.row = r) ∨
        (r.status.terminal = false ∧ liveOwner r now = false ∧
          store' = store.put id (claimedRow r owner (now + lease) now) ∧ claim.acquired = true ∧
          claim.intent.row = claimedRow r owner (now + lease) now ∧
          wellFormed red (claimedRow r owner (now + lease) now) = true)) := by
  unfold claimForRecovery at h
  rw [bind_unit_eq_ok, bind_eq_ok] at h
  obtain ⟨-, r, hr, h⟩ := h
  rw [locked_eq_ok] at hr
  rw [bind_eq_ok] at h
  obtain ⟨current, hcur, h⟩ := h
  refine ⟨r, hr, ?_⟩
  split at h
  · cases h
    exact Or.inl ⟨rfl, rfl, (intentFromRecord_eq_ok red _ _ _ hcur).1⟩
  · next hg =>
    simp only [Bool.or_eq_true, not_or, Bool.not_eq_true] at hg
    rw [bind_eq_ok] at h
    obtain ⟨i, hi, h⟩ := h
    cases h
    obtain ⟨hrow, -, hw⟩ := intentFromRecord_eq_ok red _ _ _ hi
    exact Or.inr ⟨hg.1, hg.2, rfl, rfl, hrow, hw⟩

theorem renewExecution_eq_ok (store store' : Store) (id : UUID) (owner : String)
    (lease now : ℤ) (intent : OperationIntent red)
    (h : renewExecution red store id owner lease now = .ok (store', intent)) :
    ∃ r, store.get id = some r ∧ ownsExecution r (some owner) now = true ∧
      store' = store.put id { r with executionLeaseExpiresAt := some (now + lease) } ∧
      intent.row = { r with executionLeaseExpiresAt := some (now + lease) } ∧
      wellFormed red { r with executionLeaseExpiresAt := some (now + lease) } = true := by
  unfold renewExecution at h
  rw [bind_unit_eq_ok, bind_eq_ok] at h
  obtain ⟨-, r, hr, h⟩ := h
  rw [locked_eq_ok] at hr
  rw [require_bind_eq_ok, bind_eq_ok] at h
  obtain ⟨ho, i, hi, h⟩ := h
  cases h
  obtain ⟨hrow, -, hw⟩ := intentFromRecord_eq_ok red _ _ _ hi
  exact ⟨r, hr, ho, rfl, hrow, hw⟩

theorem complete_eq_ok (store store' : Store) (id : UUID) (outcome : OperationOutcome red)
    (owner : Option String) (checkedAt now : ℤ) (intent : OperationIntent red)
    (h : complete red store id outcome owner checkedAt now = .ok (store', intent)) :
    ∃ r, store.get id = some r ∧
      ((r.status = .succeeded ∧ r.remoteResourceId = outcome.remoteResourceId ∧
          r.outcome = some outcome.payload ∧ store' = store ∧ intent.row = r) ∨
        (r.status.terminal = false ∧ ownsExecution r owner checkedAt = true ∧
          ∃ stored, red.jsonb outcome.payload = some stored ∧
            store' = store.put id (completedRow red r outcome stored now) ∧
            intent.row = completedRow red r outcome stored now ∧
            wellFormed red (completedRow red r outcome stored now) = true)) := by
  unfold complete at h
  rw [require_bind_eq_ok, bind_eq_ok] at h
  obtain ⟨-, r, hr, h⟩ := h
  rw [locked_eq_ok] at hr
  refine ⟨r, hr, ?_⟩
  cases hst : r.status with
  | succeeded =>
    simp only [hst, bind_eq_ok] at h
    obtain ⟨e, he, u, hq, h⟩ := h
    rw [require_eq_ok] at hq
    cases h
    exact Or.inl ⟨rfl, hq.1, hq.2, rfl, (intentFromRecord_eq_ok red _ _ _ he).1⟩
  | failed => simp only [hst] at h; cases h
  | pending =>
    simp only [hst, bind_eq_ok] at h
    obtain ⟨u, ho, stored, hstored, i, hi, h⟩ := h
    rw [require_eq_ok] at ho
    rw [column_eq_ok] at hstored
    cases h
    obtain ⟨hrow, -, hw⟩ := intentFromRecord_eq_ok red _ _ _ hi
    exact Or.inr ⟨rfl, ho, stored, hstored, rfl, hrow, hw⟩
  | needsReconciliation =>
    simp only [hst, bind_eq_ok] at h
    obtain ⟨u, ho, stored, hstored, i, hi, h⟩ := h
    rw [require_eq_ok] at ho
    rw [column_eq_ok] at hstored
    cases h
    obtain ⟨hrow, -, hw⟩ := intentFromRecord_eq_ok red _ _ _ hi
    exact Or.inr ⟨rfl, ho, stored, hstored, rfl, hrow, hw⟩

theorem fail_eq_ok (store store' : Store) (id : UUID) (error : String) (needs : Bool)
    (owner : Option String) (checkedAt now : ℤ) (intent : OperationIntent red)
    (h : fail red store id error needs owner checkedAt now = .ok (store', intent)) :
    ∃ r, store.get id = some r ∧
      ((r.status = .failed ∧ needs = false ∧ r.error = some (boundedError red error) ∧
          store' = store ∧ intent.row = r) ∨
        (r.status ≠ .succeeded ∧ ownsExecution r owner checkedAt = true ∧
          store' = store.put id (failedRow r (boundedError red error) needs now) ∧
          intent.row = failedRow r (boundedError red error) needs now ∧
          wellFormed red (failedRow r (boundedError red error) needs now) = true)) := by
  unfold fail at h
  simp only [bind_eq_ok] at h
  obtain ⟨r, hr, h⟩ := h
  rw [locked_eq_ok] at hr
  refine ⟨r, hr, ?_⟩
  split at h
  · next hf =>
    simp only [bind_eq_ok] at h
    obtain ⟨e, he, u, hq, h⟩ := h
    rw [require_eq_ok] at hq
    cases h
    exact Or.inl ⟨hf.1, hf.2, hq, rfl, (intentFromRecord_eq_ok red _ _ _ he).1⟩
  · split at h
    · cases h
    · next hs =>
      simp only [bind_eq_ok] at h
      obtain ⟨u, ho, i, hi, h⟩ := h
      rw [require_eq_ok] at ho
      cases h
      obtain ⟨hrow, -, hw⟩ := intentFromRecord_eq_ok red _ _ _ hi
      exact Or.inr ⟨hs, ho, rfl, hrow, hw⟩

end calls

section rows
variable {red : Durability}

/-- What one call may do to a row it finds. -/
inductive Change (r : OperationRow) : StoreOp red → OperationRow → Prop
  | same (op : StoreOp red) : Change r op r
  | claimed (id : UUID) (owner : String) (lease now : ℤ) (hid : r.id = id)
      (hn : r.status.terminal = false) (hl : liveOwner r now = false) :
      Change r (.claim id owner lease now) (claimedRow r owner (now + lease) now)
  | renewed (id : UUID) (owner : String) (lease now : ℤ) (hid : r.id = id)
      (ho : ownsExecution r (some owner) now = true) :
      Change r (.renew id owner lease now) { r with executionLeaseExpiresAt := some (now + lease) }
  | completed (id : UUID) (outcome : OperationOutcome red) (owner : Option String)
      (checkedAt now : ℤ) (stored : Payload) (hid : r.id = id)
      (ho : ownsExecution r owner checkedAt = true) :
      Change r (.complete id outcome owner checkedAt now) (completedRow red r outcome stored now)
  | failed (id : UUID) (error : String) (needs : Bool) (owner : Option String)
      (checkedAt now : ℤ) (hid : r.id = id) (ho : ownsExecution r owner checkedAt = true) :
      Change r (.fail id error needs owner checkedAt now)
        (failedRow r (boundedError red error) needs now)

/-- Every row is stored under its own identity, is well formed, and no
idempotency key is used twice. -/
structure StoreInv (red : Durability) (store : Store) : Prop where
  identity : ∀ i r, store.get i = some r → r.id = i
  valid : ∀ i r, store.get i = some r → wellFormed red r = true
  keys : ∀ i j r r', store.get i = some r → store.get j = some r' →
    r.idempotencyKey = r'.idempotencyKey → i = j

theorem findByKey_eq_none (store : Store) (key : String) (h : findByKey store key = none) (i : UUID)
    (r : OperationRow) (hr : store.get i = some r) : r.idempotencyKey ≠ key := by
  simp only [findByKey, Option.map_eq_none_iff, List.find?_eq_none, beq_iff_eq] at h
  exact h (i, r) ((store.mem_rows_iff i r).mpr hr)

theorem findByKey_eq_some (store : Store) (key : String) (r : OperationRow)
    (h : findByKey store key = some r) : r.idempotencyKey = key ∧ ∃ i, store.get i = some r := by
  simp only [findByKey, Option.map_eq_some_iff] at h
  obtain ⟨p, hp, rfl⟩ := h
  refine ⟨by simpa using List.find?_some hp, p.1, ?_⟩
  exact (store.mem_rows_iff p.1 p.2).mp (List.mem_of_find?_eq_some hp)

theorem storeInv_empty : StoreInv red Table.empty := by
  refine ⟨?_, ?_, ?_⟩
  · intro i r h; simp at h
  · intro i r h; simp at h
  · intro i j r r' h; simp at h

/- Replacing a row by a well-formed one of the same identity and key. -/
theorem storeInv_update (store : Store) (h : StoreInv red store) (i : UUID) (r r' : OperationRow)
    (hr : store.get i = some r) (hid : r'.id = r.id) (hk : r'.idempotencyKey = r.idempotencyKey)
    (hw : wellFormed red r' = true) : StoreInv red (store.put i r') := by
  refine ⟨?_, ?_, ?_⟩
  · intro j s hs
    rw [Table.get_put] at hs
    split at hs
    · next hj => cases hs; rw [hid, hj]; exact h.identity i r hr
    · exact h.identity j s hs
  · intro j s hs
    rw [Table.get_put] at hs
    split at hs
    · cases hs; exact hw
    · exact h.valid j s hs
  · intro j j' s s' hs hs' hkey
    -- the replaced row has the key it had before, so the old keys decide
    have hold : ∀ j s, (store.put i r').get j = some s →
        ∃ t, store.get j = some t ∧ t.idempotencyKey = s.idempotencyKey := by
      intro j s hs
      rw [Table.get_put] at hs
      split at hs
      · next hj => cases hs; exact ⟨r, hj ▸ hr, hk.symm⟩
      · exact ⟨s, hs, rfl⟩
    obtain ⟨t, ht, htk⟩ := hold j s hs
    obtain ⟨t', ht', htk'⟩ := hold j' s' hs'
    exact h.keys j j' t t' ht ht' (by rw [htk, htk', hkey])

theorem storeInv_insert (store : Store) (h : StoreInv red store) (r : OperationRow)
    (hk : findByKey store r.idempotencyKey = none) (hw : wellFormed red r = true) :
    StoreInv red (store.put r.id r) := by
  refine ⟨?_, ?_, ?_⟩
  · intro j s hs
    rw [Table.get_put] at hs
    split at hs
    · next hj => cases hs; exact hj.symm
    · exact h.identity j s hs
  · intro j s hs
    rw [Table.get_put] at hs
    split at hs
    · cases hs; exact hw
    · exact h.valid j s hs
  · intro j j' s s' hs hs' hkey
    rw [Table.get_put] at hs hs'
    split at hs
    · next hj =>
      cases hs
      split at hs'
      · next hj' => rw [hj, hj']
      · exact absurd hkey.symm (findByKey_eq_none store _ hk j' s' hs')
    · split at hs'
      · cases hs'
        exact absurd hkey (findByKey_eq_none store _ hk j s hs)
      · exact h.keys j j' s s' hs hs' hkey

/-- One call: an untouched table, an inserted row, or one changed row. -/
theorem call_cases (store store' : Store) (op : StoreOp red) (intent : OperationIntent red)
    (h : StoreInv red store) (hc : op.call red store = .ok (store', intent)) :
    store' = store ∨
      (∃ r, findByKey store r.idempotencyKey = none ∧ store.get r.id = none ∧
        wellFormed red r = true ∧ store' = store.put r.id r) ∨
      (∃ r r', store.get r.id = some r ∧ Change r op r' ∧ wellFormed red r' = true ∧
        store' = store.put r.id r') := by
  cases op with
  | begin args freshId runLoads now =>
    obtain ⟨kind, hb⟩ := beginIntent_eq_ok red store store' args freshId runLoads now intent hc
    rcases beginCore_eq_ok red _ _ _ _ hb with ⟨hs, -⟩ | ⟨row, -, hk, hid, hs, -, -, hw⟩
    · exact Or.inl hs
    · exact Or.inr (Or.inl ⟨row, hk, hid, hw, hs⟩)
  | claim id owner lease now =>
    simp only [StoreOp.call, map_eq_ok] at hc
    obtain ⟨⟨s, c⟩, hc, he⟩ := hc
    cases he
    obtain ⟨r, hr, ⟨hs, -⟩ | ⟨hn, hl, hs, -, -, hw⟩⟩ := claimForRecovery_eq_ok red _ _ _ _ _ _ _ hc
    · exact Or.inl hs
    · have hid := h.identity id r hr
      refine Or.inr (Or.inr ⟨r, _, hid ▸ hr, .claimed id owner lease now hid hn hl, hw, ?_⟩)
      rw [hs, hid]
  | renew id owner lease now =>
    obtain ⟨r, hr, ho, hs, -, hw⟩ := renewExecution_eq_ok red _ _ _ _ _ _ _ hc
    have hid := h.identity id r hr
    refine Or.inr (Or.inr ⟨r, _, hid ▸ hr, .renewed id owner lease now hid ho, hw, ?_⟩)
    rw [hs, hid]
  | complete id outcome owner checkedAt now =>
    obtain ⟨r, hr, ⟨-, -, -, hs, -⟩ | ⟨-, ho, stored, -, hs, -, hw⟩⟩ :=
      complete_eq_ok red _ _ _ _ _ _ _ _ hc
    · exact Or.inl hs
    · have hid := h.identity id r hr
      refine Or.inr (Or.inr ⟨r, _, hid ▸ hr,
        .completed id outcome owner checkedAt now stored hid ho, hw, ?_⟩)
      rw [hs, hid]
  | fail id error needs owner checkedAt now =>
    obtain ⟨r, hr, ⟨-, -, -, hs, -⟩ | ⟨-, ho, hs, -, hw⟩⟩ :=
      fail_eq_ok red _ _ _ _ _ _ _ _ _ hc
    · exact Or.inl hs
    · have hid := h.identity id r hr
      refine Or.inr (Or.inr ⟨r, _, hid ▸ hr, .failed id error needs owner checkedAt now hid ho, hw, ?_⟩)
      rw [hs, hid]

theorem change_identity (r r' : OperationRow) (op : StoreOp red) (h : Change r op r') :
    r'.id = r.id ∧ r'.idempotencyKey = r.idempotencyKey := by
  cases h <;> exact ⟨rfl, rfl⟩

theorem storeStep_inv (store : Store) (op : StoreOp red) (h : StoreInv red store) :
    StoreInv red (storeStep red store op) := by
  unfold storeStep
  cases hc : op.call red store with
  | error e => exact h
  | ok p =>
    obtain ⟨store', intent⟩ := p
    rcases call_cases store store' op intent h hc with rfl | ⟨r, hk, -, hw, rfl⟩ |
      ⟨r, r', hr, hch, hw, rfl⟩
    · exact h
    · exact storeInv_insert store h r hk hw
    · obtain ⟨hid, hkey⟩ := change_identity r r' op hch
      exact storeInv_update store h r.id r r' hr hid hkey hw

theorem storeStep_change (store : Store) (op : StoreOp red) (h : StoreInv red store) (i : UUID)
    (r : OperationRow) (hr : store.get i = some r) :
    ∃ r', (storeStep red store op).get i = some r' ∧ Change r op r' := by
  unfold storeStep
  cases hc : op.call red store with
  | error e => exact ⟨r, hr, .same op⟩
  | ok p =>
    obtain ⟨store', intent⟩ := p
    rcases call_cases store store' op intent h hc with rfl | ⟨s, -, hn, -, rfl⟩ |
      ⟨s, s', hs, hch, -, rfl⟩
    · exact ⟨r, hr, .same op⟩
    · refine ⟨r, ?_, .same op⟩
      have hne : i ≠ s.id := by
        rintro rfl
        rw [hr] at hn
        cases hn
      exact (Table.get_put_ne store s hne).trans hr
    · by_cases hi : i = s.id
      · subst hi
        rw [hs] at hr
        cases hr
        exact ⟨s', store.get_put_self _ _, hch⟩
      · exact ⟨r, (Table.get_put_ne store s' hi).trans hr, .same op⟩

theorem run_inv (ops : List (StoreOp red)) : StoreInv red (run (storeStep red) Table.empty ops) :=
  run_invariant _ _ storeStep_inv _ _ storeInv_empty

theorem ownsExecution_iff (r : OperationRow) (owner : String) (now : ℤ) :
    ownsExecution r (some owner) now = true ↔
      r.executionOwner = some owner ∧ ∃ e, r.executionLeaseExpiresAt = some e ∧ now < e := by
  cases he : r.executionLeaseExpiresAt <;> simp [ownsExecution, he]

theorem ownsExecution_owner (r : OperationRow) (owner : Option String) (now : ℤ)
    (h : ownsExecution r owner now = true) : r.executionOwner = owner ∧ owner ≠ none := by
  simp only [ownsExecution, Bool.and_eq_true, beq_iff_eq] at h
  refine ⟨h.1.2, ?_⟩
  rintro rfl
  simp at h

/- A settled row has no owner, so nothing can be done to it. -/
theorem change_terminal (r r' : OperationRow) (op : StoreOp red) (hw : wellFormed red r = true)
    (ht : r.status.terminal = true) (h : Change r op r') : r' = r := by
  have hown := wellFormed_terminal red r hw ht
  cases h with
  | same => rfl
  | claimed _ _ _ _ _ hn _ => rw [ht] at hn; cases hn
  | renewed _ _ _ _ _ ho => exact absurd (hown ▸ (ownsExecution_owner _ _ _ ho).1) (by simp)
  | completed _ _ _ _ _ _ _ ho =>
    obtain ⟨he, hne⟩ := ownsExecution_owner _ _ _ ho
    exact absurd (he.symm.trans hown) hne
  | failed _ _ _ _ _ _ _ ho =>
    obtain ⟨he, hne⟩ := ownsExecution_owner _ _ _ ho
    exact absurd (he.symm.trans hown) hne

theorem run_terminal (store : Store) (h : StoreInv red store) (ops : List (StoreOp red)) (i : UUID)
    (r : OperationRow) (hr : store.get i = some r) (ht : r.status.terminal = true) :
    (run (storeStep red) store ops).get i = some r := by
  induction ops generalizing store with
  | nil => exact hr
  | cons op ops ih =>
    obtain ⟨r', hr', hch⟩ := storeStep_change store op h i r hr
    rw [change_terminal r r' op (h.valid i r hr) ht hch] at hr'
    exact ih _ (storeStep_inv store op h) hr'

end rows

end ParallelForge.Operation
