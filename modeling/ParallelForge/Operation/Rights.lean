import ParallelForge.Operation.Recovery

/-!
# The right to invoke, along one process

`begin` reports a new intent only when the key was not in the store. The right
this gives moves along the process and is spent by the adapter call; a process
without it can only query, or answer what the store holds.
-/

namespace ParallelForge.Operation
open Base

variable {red : Durability}

-- the proofs about one step run it
attribute [local simp] procStep

/-- Rows are never removed, keep their key, and are final once settled. -/
def Extends (store store' : Store) : Prop :=
  ∀ i r, store.get i = some r → ∃ r', store'.get i = some r' ∧
    r'.idempotencyKey = r.idempotencyKey ∧ (r.status.terminal = true → r' = r)

theorem extends_refl (store : Store) : Extends store store :=
  fun _ r h => ⟨r, h, rfl, fun _ => rfl⟩

theorem storeStep_extends (store : Store) (op : StoreOp red) (h : StoreInv red store) :
    Extends store (storeStep red store op) := by
  intro i r hr
  obtain ⟨r', hr', hch⟩ := storeStep_change store op h i r hr
  exact ⟨r', hr', (change_identity r r' op hch).2,
    fun ht => change_terminal r r' op (h.valid i r hr) ht hch⟩

def hasKey (store : Store) (k : String) : Bool := (findByKey store k).isSome

theorem hasKey_iff (store : Store) (k : String) :
    hasKey store k = true ↔ ∃ i r, store.get i = some r ∧ r.idempotencyKey = k := by
  unfold hasKey
  cases h : findByKey store k with
  | none =>
    simp only [Option.isSome_none, Bool.false_eq_true, false_iff, not_exists, not_and]
    exact fun i r hr => findByKey_eq_none store k h i r hr
  | some r =>
    obtain ⟨hk, i, hi⟩ := findByKey_eq_some store k r h
    simpa using ⟨i, r, hi, hk⟩

theorem hasKey_extends (store store' : Store) (h : Extends store store') (k : String)
    (hk : hasKey store k = true) : hasKey store' k = true := by
  obtain ⟨i, r, hr, hrk⟩ := (hasKey_iff store k).mp hk
  obtain ⟨r', hr', hk', -⟩ := h i r hr
  exact (hasKey_iff store' k).mpr ⟨i, r', hr', hk'.trans hrk⟩

/-- The intent names a stored row with its own key. -/
def Backed (store : Store) (intent : OperationIntent red) : Prop :=
  ∃ r, store.get intent.row.id = some r ∧ r.idempotencyKey = intent.row.idempotencyKey

theorem backed_extends (store store' : Store) (h : Extends store store')
    (intent : OperationIntent red) (hb : Backed store intent) : Backed store' intent := by
  obtain ⟨r, hr, hk⟩ := hb
  obtain ⟨r', hr', hk', -⟩ := h _ r hr
  exact ⟨r', hr', hk'.trans hk⟩

/- A successful call is one step of the store. -/
theorem storeStep_of_call (store store' : Store) (op : StoreOp red) (intent : OperationIntent red)
    (h : op.call red store = .ok (store', intent)) : storeStep red store op = store' := by
  simp only [storeStep, h]

/-- What `begin` reports: a new row under a key that was not there, or nothing new. -/
theorem beginIntent_report (store store' : Store) (args : BeginArgs) (freshId : UUID)
    (runLoads : Bool) (now : ℤ) (intent : OperationIntent red)
    (h : beginIntent red store args freshId runLoads now = .ok (store', intent)) :
    intent.isNew = false ∨
      (intent.isNew = true ∧ hasKey store intent.row.idempotencyKey = false ∧
        store'.get intent.row.id = some intent.row) := by
  obtain ⟨kind, hb⟩ := beginIntent_eq_ok red store store' args freshId runLoads now intent h
  rcases beginCore_eq_ok red _ _ _ _ hb with ⟨-, hn, -⟩ | ⟨row, -, hk, -, hs, hrow, hn, -⟩
  · exact Or.inl hn
  · refine Or.inr ⟨hn, ?_, ?_⟩
    · rw [hrow, hasKey, hk]; rfl
    · rw [hs, hrow, Table.get_put_self]

/-- The key a program counter still has the right to invoke. -/
def Pc.fresh (k : String) : Pc red → Bool
  | .executeAdmitted intent => intent.isNew && intent.row.idempotencyKey == k
  | .invokeAdmitted intent => intent.isNew && intent.row.idempotencyKey == k
  | .renewAdmitted intent _ => intent.row.idempotencyKey == k
  | .invoke intent _ _ => intent.row.idempotencyKey == k
  | _ => false

def isInvoke (k : String) (c : AdapterCall) : Bool := c == .invoke k

def keyBound (store : Store) (k : String) : ℕ := if hasKey store k then 1 else 0

theorem keyBound_extends (store store' : Store) (h : Extends store store') (k : String) :
    keyBound store k ≤ keyBound store' k := by
  unfold keyBound
  cases hk : hasKey store k with
  | false => simp
  | true => simp [hasKey_extends store store' h k hk]

/-- Where the process waits on a renewal, the store still has its row. -/
def Pc.Backed (store : Store) : Pc red → Prop
  | .executeAdmitted intent => intent.isNew = true → Operation.Backed store intent
  | .invokeAdmitted intent => intent.isNew = true → Operation.Backed store intent
  | .renewAdmitted intent _ => Operation.Backed store intent
  | _ => True

/- A step touches the store through at most one of its methods. -/
theorem procStep_store (lease : ℤ) (store : Store) (pc : Pc red) (tick : Tick red) :
    (procStep red lease store pc tick).1 = store ∨
      ∃ op, (procStep red lease store pc tick).1 = storeStep red store op := by
  cases pc with
  | execute args owner =>
    simp only [procStep]
    split
    · exact Or.inl rfl
    · next store' intent hb =>
      have hs := storeStep_of_call store store' (.begin _ _ _ _) intent hb
      split_ifs <;> exact Or.inr ⟨_, hs.symm⟩
  | executeAdmitted intent =>
    simp only [procStep]
    split_ifs
    · exact Or.inl rfl
    · exact Or.inl rfl
    · split <;> exact Or.inl rfl
  | invokeAdmitted intent => simp only [procStep]; split <;> exact Or.inl rfl
  | renewAdmitted intent owner =>
    simp only [procStep]
    split
    · exact Or.inl rfl
    · next store' refreshed hb =>
      have hs := storeStep_of_call store store' (.renew _ _ _ _) refreshed hb
      split_ifs <;> exact Or.inr ⟨_, hs.symm⟩
  | invoke intent owner settles => exact Or.inl rfl
  | invoking intent owner settles renewing =>
    simp only [procStep]
    split <;> split_ifs <;> exact Or.inl rfl
  | observe id owner | reconcile id owner =>
    simp only [procStep]
    split
    · exact Or.inl rfl
    · split_ifs <;> exact Or.inl rfl
  | claimObserved id owner | claimReconcile id owner =>
    simp only [procStep]
    split
    · exact Or.inl rfl
    · next store' claim hb =>
      have hs := storeStep_of_call store store' (.claim id owner lease tick.now) claim.intent
        ((map_eq_ok _ _ _).mpr ⟨_, hb, rfl⟩)
      split_ifs <;> exact Or.inr ⟨_, hs.symm⟩
  | query intent owner service => exact Or.inl rfl
  | querying intent owner service renewing =>
    simp only [procStep]
    split <;> exact Or.inl rfl
  | storeOutcome id outcome owner service =>
    simp only [procStep]
    split
    · exact Or.inl rfl
    · next store' intent hb =>
      split_ifs at hb
      · exact Or.inr ⟨_, (storeStep_of_call store store' (.complete _ _ _ _ _) intent hb).symm⟩
      · exact Or.inr ⟨_, (storeStep_of_call store store' (.fail _ _ _ _ _ _) intent hb).symm⟩
  | markUnknown id error owner service =>
    simp only [procStep]
    split
    · exact Or.inl rfl
    · next store' intent hb =>
      exact Or.inr ⟨_, (storeStep_of_call store store' (.fail _ _ _ _ _ _) intent hb).symm⟩
  | returned o => exact Or.inl rfl
  | returnedIntent i => exact Or.inl rfl
  | raised => exact Or.inl rfl

theorem procStep_inv (lease : ℤ) (store : Store) (pc : Pc red) (tick : Tick red)
    (h : StoreInv red store) :
    StoreInv red (procStep red lease store pc tick).1 ∧
      Extends store (procStep red lease store pc tick).1 := by
  rcases procStep_store lease store pc tick with hs | ⟨op, hs⟩
  · rw [hs]; exact ⟨h, extends_refl store⟩
  · rw [hs]; exact ⟨storeStep_inv store op h, storeStep_extends store op h⟩

def freshCount (k : String) (pc : Pc red) : ℕ := if pc.fresh k then 1 else 0

def invokeCount (k : String) (call : Option AdapterCall) : ℕ :=
  if call.any (isInvoke k) then 1 else 0

theorem newlyOwned_isNew (intent : OperationIntent red) (now : ℤ) (owner : String)
    (h : newlyOwned red intent now = some owner) : intent.isNew = true := by
  unfold newlyOwned at h
  split at h
  · next hc =>
    simp only [Bool.and_eq_true] at hc
    exact hc.1.1
  · cases h

theorem returnStored_fresh (r : OperationRow) (k : String) : (returnStored red r).fresh k = false := by
  unfold returnStored
  split <;> rfl

/-- The count of rights and calls for a key that one step of a process may not raise, except
by a new key in the store. -/
def Spends (lease : ℤ) (store : Store) (pc : Pc red) (tick : Tick red) (k : String) : Prop :=
  freshCount k (procStep red lease store pc tick).2.1
      + invokeCount k (procStep red lease store pc tick).2.2 + keyBound store k
    ≤ freshCount k pc + keyBound (procStep red lease store pc tick).1 k

section spends
variable (lease : ℤ) (store : Store) (tick : Tick red) (k : String)

/- A step that leaves no right behind only needs the store to grow. -/
theorem spends_of_no_right (pc : Pc red) (h : StoreInv red store)
    (hf : (procStep red lease store pc tick).2.1.fresh k = false)
    (hc : (procStep red lease store pc tick).2.2 = none) : Spends lease store pc tick k := by
  have hgrow := keyBound_extends store _ (procStep_inv lease store pc tick h).2 k
  unfold Spends
  rw [hc]
  simp only [freshCount, hf, invokeCount, Option.any_none, Bool.false_eq_true, if_false]
  omega

theorem execute_spends (args : BeginArgs) (owner : String) (h : StoreInv red store) :
    Spends lease store (.execute args owner) tick k := by
  have hgrow := keyBound_extends store _ (procStep_inv lease store (.execute args owner) tick h).2 k
  cases hr : beginIntent red store
      { args with executionOwner := some owner, executionLease := some lease }
      tick.freshId tick.runLoads tick.now with
  | error e =>
    exact spends_of_no_right lease store tick k _ h (by simp [procStep, hr, Pc.fresh])
      (by simp [procStep, hr])
  | ok p =>
    obtain ⟨store', intent⟩ := p
    by_cases hst : intent.row.status = .succeeded
    · exact spends_of_no_right lease store tick k _ h
        (by simp [procStep, hr, hst, returnStored_fresh]) (by simp [procStep, hr, hst])
    · cases hn : intent.isNew with
      | false =>
        exact spends_of_no_right lease store tick k _ h (by simp [procStep, hr, hst, hn, Pc.fresh])
          (by simp [procStep, hr, hst, hn])
      | true =>
        rcases beginIntent_report _ _ _ _ _ _ _ hr with hf | ⟨-, hold, hnew⟩
        · rw [hn] at hf; cases hf
        · have hres : procStep red lease store (.execute args owner) tick
              = (store', .invoke intent owner true, none) := by
            simp [procStep, hr, hst, hn]
          unfold Spends
          rw [hres]
          by_cases hk : intent.row.idempotencyKey = k
          · subst hk
            have hnew' : hasKey store' intent.row.idempotencyKey = true :=
              (hasKey_iff _ _).mpr ⟨_, _, hnew, rfl⟩
            simp [freshCount, invokeCount, keyBound, Pc.fresh, hold, hnew']
          · rw [hres] at hgrow
            simp [freshCount, invokeCount, Pc.fresh, hk]
            exact hgrow

theorem renewAdmitted_spends (intent : OperationIntent red) (owner : String)
    (h : StoreInv red store) (hb : (Pc.renewAdmitted intent owner).Backed store) :
    Spends lease store (.renewAdmitted intent owner) tick k := by
  have hgrow := keyBound_extends store _
    (procStep_inv lease store (.renewAdmitted intent owner) tick h).2 k
  cases hr : renewExecution red store intent.row.id owner lease tick.now with
  | error e =>
    exact spends_of_no_right lease store tick k _ h (by simp [procStep, hr, Pc.fresh])
      (by simp [procStep, hr])
  | ok p =>
    obtain ⟨store', refreshed⟩ := p
    cases ho : ownsExecution refreshed.row (some owner) tick.checkedAt with
    | false =>
      exact spends_of_no_right lease store tick k _ h (by simp [procStep, hr, ho, Pc.fresh])
        (by simp [procStep, hr, ho])
    | true =>
      -- the refreshed intent is the row of the admitted one, so it has its key
      obtain ⟨r, hget, -, -, hrow, -⟩ := renewExecution_eq_ok red _ _ _ _ _ _ _ hr
      obtain ⟨r', hget', hkey⟩ := hb
      rw [hget] at hget'
      cases hget'
      have hk : refreshed.row.idempotencyKey = intent.row.idempotencyKey := by
        rw [hrow]; exact hkey
      unfold Spends
      simp only [procStep, hr, ho, if_true] at hgrow ⊢
      by_cases hk' : intent.row.idempotencyKey = k
      · simpa [freshCount, invokeCount, Pc.fresh, hk, hk'] using hgrow
      · simpa [freshCount, invokeCount, Pc.fresh, hk, hk'] using hgrow

/- Once the call is made, or belongs to another, no right is left. -/
theorem observe_spends (id : UUID) (owner : String) (h : StoreInv red store) :
    Spends lease store (.observe id owner) tick k := by
  refine spends_of_no_right lease store tick k _ h ?_ ?_
  · simp only [procStep]
    split
    · rfl
    · split_ifs
      · exact returnStored_fresh _ _
      · rfl
      · rfl
      · rfl
  · simp only [procStep]
    split
    · rfl
    · split_ifs <;> rfl

end spends

/-- The right moves along a process or is spent; a new one appears only with a
new key in the store. -/
theorem procStep_rights (lease : ℤ) (store : Store) (pc : Pc red) (tick : Tick red) (k : String)
    (h : StoreInv red store) (hb : pc.Backed store) :
    freshCount k (procStep red lease store pc tick).2.1
        + invokeCount k (procStep red lease store pc tick).2.2 + keyBound store k
      ≤ freshCount k pc + keyBound (procStep red lease store pc tick).1 k := by
  have hnone := fun pc => spends_of_no_right lease store tick k pc h
  cases pc with
  | execute args owner => exact execute_spends lease store tick k args owner h
  | executeAdmitted intent =>
    by_cases hst : intent.row.status = .succeeded
    · exact hnone _ (by simp [procStep, hst, returnStored_fresh]) (by simp [procStep, hst])
    · by_cases hf : intent.row.status = .failed
      · exact hnone _ (by simp [procStep, hf, Pc.fresh]) (by simp [procStep, hf])
      · cases ho : newlyOwned red intent tick.now with
        | none =>
          exact hnone _ (by simp [procStep, hst, hf, ho, Pc.fresh]) (by simp [procStep, hst, hf, ho])
        | some owner =>
          have hnew := newlyOwned_isNew intent tick.now owner ho
          simp [procStep, hst, hf, ho, freshCount, invokeCount, Pc.fresh, hnew]
  | invokeAdmitted intent =>
    cases ho : newlyOwned red intent tick.now with
    | none => exact hnone _ (by simp [procStep, ho, Pc.fresh]) (by simp [procStep, ho])
    | some owner =>
      have hnew := newlyOwned_isNew intent tick.now owner ho
      simp [procStep, ho, freshCount, invokeCount, Pc.fresh, hnew]
  | renewAdmitted intent owner => exact renewAdmitted_spends lease store tick k intent owner h hb
  | invoke intent owner settles =>
    simp only [procStep, freshCount, invokeCount, Pc.fresh, Option.any_some, isInvoke,
      Bool.false_eq_true, if_false]
    by_cases hk : intent.row.idempotencyKey = k
    · simp [hk]
    · simp [hk]
  | invoking intent owner settles renewing =>
    cases hr : tick.reply <;> cases settles <;>
      exact hnone _ (by simp [procStep, hr, Pc.fresh]) (by simp [procStep, hr])
  | observe id owner => exact observe_spends lease store tick k id owner h
  | claimObserved id owner | reconcile id owner | claimReconcile id owner =>
    refine hnone _ ?_ ?_
    · simp only [procStep]
      split
      · rfl
      · split_ifs <;> rfl
    · simp only [procStep]
      split
      · rfl
      · split_ifs <;> rfl
  | query intent owner service =>
    simp [procStep, freshCount, invokeCount, Pc.fresh, isInvoke]
  | querying intent owner service renewing =>
    cases hr : tick.reply <;>
      exact hnone _ (by simp [procStep, hr, Pc.fresh]) (by simp [procStep, hr])
  | storeOutcome id outcome owner service =>
    refine hnone _ ?_ ?_
    · simp only [procStep]
      split
      · rfl
      · unfold settled
        split_ifs <;> rfl
    · simp only [procStep]
      split <;> rfl
  | markUnknown id error owner service =>
    refine hnone _ ?_ ?_
    · simp only [procStep]
      split
      · rfl
      · cases service <;> rfl
    · simp only [procStep]
      split <;> rfl
  | returned o => exact hnone _ rfl rfl
  | returnedIntent i => exact hnone _ rfl rfl
  | raised => exact hnone _ rfl rfl

theorem returnStored_cases (r : OperationRow) :
    (∃ o, toOutcome red r = some o ∧ returnStored red r = .returned o) ∨
      returnStored red r = .raised := by
  unfold returnStored
  cases h : toOutcome red r with
  | none => exact Or.inr rfl
  | some o => exact Or.inl ⟨o, rfl, rfl⟩

theorem returnStored_backed (store : Store) (r : OperationRow) :
    (returnStored red r).Backed store := by
  rcases @returnStored_cases red r with ⟨o, -, h⟩ | h <;> rw [h] <;> trivial

theorem procStep_backed (lease : ℤ) (store : Store) (pc : Pc red) (tick : Tick red)
    (hb : pc.Backed store) :
    (procStep red lease store pc tick).2.1.Backed (procStep red lease store pc tick).1 := by
  cases pc with
  | execute args owner =>
    simp only [procStep]
    split
    · trivial
    · split_ifs
      · exact returnStored_backed _ _
      · trivial
      · trivial
  | executeAdmitted intent =>
    simp only [procStep]
    split_ifs
    · exact returnStored_backed _ _
    · trivial
    · split <;> trivial
  | invokeAdmitted intent =>
    simp only [procStep]
    split
    · next owner ho => exact hb (newlyOwned_isNew intent tick.now owner ho)
    · trivial
  | renewAdmitted intent owner =>
    simp only [procStep]
    split
    · trivial
    · split_ifs <;> trivial
  | invoking intent owner settles renewing =>
    simp only [procStep]
    split <;> split_ifs <;> trivial
  | observe id owner =>
    simp only [procStep]
    split
    · trivial
    · split_ifs
      · exact returnStored_backed _ _
      · trivial
      · trivial
      · trivial
  | claimObserved id owner | reconcile id owner | claimReconcile id owner =>
    simp only [procStep]
    split
    · trivial
    · split_ifs <;> trivial
  | querying intent owner service renewing =>
    simp only [procStep]
    split <;> trivial
  | storeOutcome id outcome owner service =>
    simp only [procStep]
    split
    · trivial
    · cases service <;> trivial
  | markUnknown id error owner service =>
    simp only [procStep]
    split
    · trivial
    · cases service <;> trivial
  | invoke | query | returned | returnedIntent | raised => trivial

/-- A settled intent in somebody's hands is the stored one. -/
def Stored (store : Store) (intent : OperationIntent red) : Prop :=
  intent.row.status.terminal = true → store.get intent.row.id = some intent.row

theorem stored_extends (store store' : Store) (h : Extends store store')
    (intent : OperationIntent red) (hs : Stored store intent) : Stored store' intent := by
  intro ht
  obtain ⟨r', hr', -, heq⟩ := h _ _ (hs ht)
  rw [hr', heq ht]

theorem beginIntent_stored (store store' : Store) (args : BeginArgs) (freshId : UUID)
    (runLoads : Bool) (now : ℤ) (intent : OperationIntent red) (hinv : StoreInv red store)
    (h : beginIntent red store args freshId runLoads now = .ok (store', intent)) :
    store'.get intent.row.id = some intent.row := by
  obtain ⟨kind, hb⟩ := beginIntent_eq_ok red store store' args freshId runLoads now intent h
  unfold beginCore at hb
  rw [bind_eq_ok] at hb
  obtain ⟨stored, -, hb⟩ := hb
  split at hb
  · split at hb
    · cases hb
    · rw [bind_eq_ok] at hb
      obtain ⟨i, hi, hb⟩ := hb
      cases hb
      rw [(intentFromRecord_eq_ok red _ _ _ hi).1, Table.get_put_self]
  · next byKey hk =>
    rw [bind_eq_ok] at hb
    obtain ⟨i, hi, hb⟩ := hb
    rw [require_bind_eq_ok] at hb
    cases hb.2
    rw [(intentFromRecord_eq_ok red _ _ _ hi).1]
    -- the row named by the candidate's identity, else the row of the key
    cases hg : store.get (candidateRow args kind (args.operationId.getD freshId) now).id with
    | some r =>
      rw [Option.getD_some, hinv.identity _ r hg]
      exact hg
    | none =>
      obtain ⟨-, j, hj⟩ := findByKey_eq_some store _ byKey hk
      rw [Option.getD_none, hinv.identity j byKey hj]
      exact hj

/-- What a call may still answer: the outcome of its own adapter call, or what
the store holds. -/
def Answered (store : Store) (called : Prop) : Pc red → Prop
  | .executeAdmitted intent => Stored store intent
  | .invoking .. | .querying .. | .storeOutcome .. | .markUnknown .. => called
  | .returned o => called ∨ ∃ id r, store.get id = some r ∧ r.status = .succeeded ∧
      toOutcome red r = some o
  | .returnedIntent intent => called ∨ Stored store intent
  | _ => True

theorem answered_extends (store store' : Store) (h : Extends store store') (c c' : Prop)
    (hc : c → c') (pc : Pc red) (ha : Answered store c pc) : Answered store' c' pc := by
  cases pc with
  | executeAdmitted intent => exact stored_extends store store' h intent ha
  | invoking | querying | storeOutcome | markUnknown => exact hc ha
  | returned o =>
    rcases ha with ha | ⟨id, r, hr, hst, ho⟩
    · exact Or.inl (hc ha)
    · obtain ⟨r', hr', -, heq⟩ := h id r hr
      exact Or.inr ⟨id, r, heq (by rw [hst]; rfl) ▸ hr', hst, ho⟩
  | returnedIntent intent =>
    rcases ha with ha | ha
    · exact Or.inl (hc ha)
    · exact Or.inr (stored_extends store store' h intent ha)
  | execute | invokeAdmitted | renewAdmitted | invoke | observe | claimObserved | reconcile
  | claimReconcile | query | raised => trivial

theorem returnStored_answered (store : Store) (c : Prop) (id : UUID) (r : OperationRow)
    (hr : store.get id = some r) (hst : r.status = .succeeded) :
    Answered store c (returnStored red r) := by
  rcases @returnStored_cases red r with ⟨o, ho, h⟩ | h
  · rw [h]; exact Or.inr ⟨id, r, hr, hst, ho⟩
  · rw [h]; trivial

theorem getIntent_eq_ok (store : Store) (id : UUID) (intent : OperationIntent red)
    (h : getIntent red store id = .ok intent) : store.get id = some intent.row := by
  unfold getIntent at h
  rw [bind_eq_ok] at h
  obtain ⟨r, hr, h⟩ := h
  rw [locked_eq_ok] at hr
  rw [(intentFromRecord_eq_ok red _ _ _ h).1]
  exact hr

theorem procStep_answered (lease : ℤ) (store : Store) (pc : Pc red) (tick : Tick red) (c : Prop)
    (h : StoreInv red store) (ha : Answered store c pc) :
    Answered (procStep red lease store pc tick).1
      (c ∨ (procStep red lease store pc tick).2.2 ≠ none)
      (procStep red lease store pc tick).2.1 := by
  cases pc with
  | execute args owner =>
    simp only [procStep]
    split
    · trivial
    · next store' intent hb =>
      split_ifs with hst
      · exact returnStored_answered _ _ _ _ (beginIntent_stored _ _ _ _ _ _ _ h hb) hst
      · trivial
      · trivial
  | executeAdmitted intent =>
    simp only [procStep]
    split_ifs with hst
    · exact returnStored_answered _ _ _ _ (ha (by rw [hst]; rfl)) hst
    · trivial
    · split <;> trivial
  | invokeAdmitted intent => simp only [procStep]; split <;> trivial
  | renewAdmitted intent owner =>
    simp only [procStep]
    split
    · trivial
    · split_ifs <;> trivial
  | invoke intent owner settles => exact Or.inr (by simp [procStep])
  | query intent owner service => exact Or.inr (by simp [procStep])
  | invoking intent owner settles renewing =>
    simp only [procStep]
    cases tick.reply <;> cases settles
    · exact Or.inl (Or.inl ha)
    · exact Or.inl ha
    · trivial
    · exact Or.inl ha
  | observe id owner =>
    simp only [procStep]
    split
    · trivial
    · next current hg =>
      split_ifs with hst
      · exact returnStored_answered _ _ _ _ (getIntent_eq_ok store id current hg) hst
      · trivial
      · trivial
      · trivial
  | claimObserved id owner =>
    simp only [procStep]
    split
    · trivial
    · split_ifs <;> trivial
  | reconcile id owner =>
    simp only [procStep]
    split
    · trivial
    · next current hg =>
      have hget := getIntent_eq_ok store id current hg
      split_ifs
      · exact Or.inr fun _ => by rw [h.identity id current.row hget]; exact hget
      · trivial
  | claimReconcile id owner =>
    simp only [procStep]
    split
    · trivial
    · next store' claim hc =>
      obtain ⟨r, hr, ⟨hs, hacq, hrow⟩ | ⟨-, -, -, hacq, -⟩⟩ :=
        claimForRecovery_eq_ok red _ _ _ _ _ _ _ hc
      · rw [hacq]
        refine Or.inr fun _ => ?_
        rw [hrow, h.identity id r hr, hs]
        exact hr
      · rw [hacq]; trivial
  | querying intent owner service renewing =>
    simp only [procStep]
    split <;> exact Or.inl ha
  | storeOutcome id outcome owner service =>
    simp only [procStep]
    split
    · trivial
    · cases service
      · exact Or.inl (Or.inl ha)
      · exact Or.inl (Or.inl ha)
  | markUnknown id error owner service =>
    simp only [procStep]
    split
    · trivial
    · cases service
      · trivial
      · exact Or.inl (Or.inl ha)
  | returned o => exact answered_extends _ _ (extends_refl _) _ _ Or.inl _ ha
  | returnedIntent i => exact answered_extends _ _ (extends_refl _) _ _ Or.inl _ ha
  | raised => trivial

end ParallelForge.Operation
