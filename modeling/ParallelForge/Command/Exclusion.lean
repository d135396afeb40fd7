import ParallelForge.Command.Store

/-!
# One live lease per run and lane

Workers share one clock that never goes back. A call reads it when it starts;
its transaction runs later, in any order with the others. `claim_next` stays
safe under this: what is live at the current time was live at the time it
read. `renew` does not: it can revive a lease that ended, and was passed over
by a claim, after the renewal read the clock.
-/

namespace ParallelForge.Command
open Base Run

variable (red : Durability)

inductive Call
  | enqueue (args : EnqueueArgs)
  | claimNext (worker : String) (lease : ℤ) (lane : CommandLane)
  | renew (id : UUID) (worker : String) (lease : ℤ)
  | complete (id : UUID) (worker : String)
  | fail (id : UUID) (worker error : String) (transient : Bool)
  | cancel (id : UUID) (worker reason : String)
  deriving DecidableEq, Repr

/-- The tables after a call's transaction. -/
def Call.transaction (db : Db) (now : ℤ) (lockedRows : List UUID) : Call → Except CommandError Db
  | .enqueue args => (Command.enqueue red db args now).map Prod.fst
  | .claimNext worker lease lane =>
    (Command.claimNext red db worker lease lane now lockedRows).map Prod.fst
  | .renew id worker lease => (Command.renew red db id worker lease now).map Prod.fst
  | .complete id worker => (Command.complete red db id worker now).map Prod.fst
  | .fail id worker error transient => (Command.fail red db id worker error transient now).map Prod.fst
  | .cancel id worker reason => (Command.cancel red db id worker reason now).map Prod.fst

/-- The rows of the other tables, which other services change at any time. -/
structure Surroundings where
  runState : UUID → Option RunState
  checkpointed : UUID → Bool
  startupInterventionHold : UUID → Bool
  barrierRequired : Option Bool

/-- The tables, the current time, and the calls that have read their clock and
not yet run. -/
structure World where
  db : Db
  clock : ℤ
  inFlight : List (Call × ℤ)

inductive Action
  | tick (elapsed : ℕ)
  | start (call : Call)
  | commit (call : ℕ) (lockedRows : List UUID)
  | crash (call : ℕ)
  | surroundings (s : Surroundings)

def World.step (w : World) : Action → World
  | .tick elapsed => { w with clock := w.clock + elapsed }
  | .start call => { w with inFlight := w.inFlight ++ [(call, w.clock)] }
  | .commit i lockedRows =>
    match w.inFlight[i]? with
    | none => w
    | some (call, now) =>
      { w with
        db := match call.transaction red w.db now lockedRows with
          | .ok db => db
          | .error _ => w.db
        inFlight := w.inFlight.eraseIdx i }
  | .crash i => { w with inFlight := w.inFlight.eraseIdx i }
  | .surroundings s =>
    { w with db :=
      { w.db with
        runState := s.runState
        checkpointed := s.checkpointed
        startupInterventionHold := s.startupInterventionHold
        barrierRequired := s.barrierRequired } }

def World.init (s : Surroundings) (clock : ℤ) : World where
  db := ⟨Table.empty, s.runState, s.checkpointed, s.startupInterventionHold, s.barrierRequired⟩
  clock := clock
  inFlight := []

/-- No two distinct commands of one run, both ordinary or both control, hold
leases that have not ended at `now`. -/
def Exclusive (db : Db) (now : ℤ) : Prop :=
  ∀ i j a b, db.commands.get i = some a → db.commands.get j = some b →
    a.runId = b.runId → isControl a.commandType = isControl b.commandType →
    liveAt a now = true → liveAt b now = true → i = j

/-- A renewal that is granted finds the lease still running at the current time. -/
def Timely (w : World) : Action → Prop
  | .commit i _ => ∀ id worker lease now r, w.inFlight[i]? = some (.renew id worker lease, now) →
      w.db.commands.get id = some r → ownsLease r worker now = true → liveAt r w.clock = true
  | _ => True

structure Inv (w : World) : Prop where
  identity : ∀ i r, w.db.commands.get i = some r → r.id = i
  past : ∀ c ∈ w.inFlight, c.2 ≤ w.clock
  exclusive : Exclusive w.db w.clock

section rows
variable {red : Durability}

theorem liveAt_iff (r : CommandRow) (now : ℤ) :
    liveAt r now = true ↔ r.status = .leased ∧ ∃ e, r.leaseExpiresAt = some e ∧ now < e := by
  cases he : r.leaseExpiresAt <;> simp [liveAt, he]

theorem liveAt_mono (r : CommandRow) (t now : ℤ) (h : t ≤ now) (hl : liveAt r now = true) :
    liveAt r t = true := by
  rw [liveAt_iff] at hl ⊢
  obtain ⟨hs, e, he, hlt⟩ := hl
  exact ⟨hs, e, he, by omega⟩

theorem commandFromRecord_eq_ok (r e : CommandRow) :
    commandFromRecord red r = .ok e ↔ wellFormed red r = true ∧ e = r := by
  unfold commandFromRecord
  split
  · next hw => simp [hw, eq_comm]
  · next hw => simp [hw]

theorem store_eq_ok (db db' : Db) (r e : CommandRow) (h : store red db r = .ok (db', e)) :
    wellFormed red r = true ∧ db' = db.put r := by
  unfold store at h
  rw [bind_eq_ok] at h
  obtain ⟨x, hx, h⟩ := h
  cases h
  exact ⟨((commandFromRecord_eq_ok r e).mp hx).1, rfl⟩

theorem locked_eq_ok (db : Db) (id : UUID) (r : CommandRow) :
    locked db id = .ok r ↔ db.commands.get id = some r := by
  unfold locked
  cases db.commands.get id with
  | none => simp
  | some r' => simp

/-- What a transaction may write over a row (or at a fresh identity): a row that
is not live, a claimed row, or a renewed one. -/
inductive Written (db : Db) (now : ℤ) : Call → CommandRow → Prop
  | idle (call : Call) (r : CommandRow) (h : r.status ≠ .leased) : Written db now call r
  | claimed (worker : String) (lease : ℤ) (lane : CommandLane) (r : CommandRow)
      (hget : db.commands.get r.id = some r) (hlane : isControl r.commandType = (lane == .control))
      (hfree : ∀ j b, db.commands.get j = some b → b.id ≠ r.id → b.runId = r.runId →
        isControl b.commandType = isControl r.commandType → liveAt b now = false) :
      Written db now (.claimNext worker lease lane) (leasedRow r worker (now + lease))
  | renewed (id : UUID) (worker : String) (lease : ℤ) (r : CommandRow)
      (hget : db.commands.get id = some r) (ho : ownsLease r worker now = true) :
      Written db now (.renew id worker lease) { r with leaseExpiresAt := some (now + lease) }

theorem other_eq_false (db : Db) (record : CommandRow) (p : CommandRow → Bool)
    (h : other db record p = false) (j : UUID) (b : CommandRow) (hb : db.commands.get j = some b)
    (hne : b.id ≠ record.id) (hrun : b.runId = record.runId) : p b = false := by
  have hf := (db.commands.any_eq_false _).mp h j b hb
  simpa [hrun, hne] using hf

/- A granted row: one of the candidates, with nothing live beside it. -/
theorem claimFrom_eq_some (db : Db) (lane : CommandLane) (now : ℤ) (l : List CommandRow)
    (r : CommandRow) (h : claimFrom db lane now l = .ok (some r)) :
    r ∈ l ∧ ∃ state, db.runState r.runId = some state ∧ blocked db lane now state r = false := by
  induction l with
  | nil => simp [claimFrom] at h
  | cons record rest ih =>
    unfold claimFrom at h
    split at h
    · cases h
    · next state hs =>
      split at h
      · obtain ⟨hm, hx⟩ := ih h
        exact ⟨List.mem_cons_of_mem _ hm, hx⟩
      · next hb =>
        cases h
        exact ⟨List.mem_cons_self, state, hs, Bool.eq_false_iff.mpr hb⟩

theorem blocked_eq_false (db : Db) (lane : CommandLane) (now : ℤ) (state : RunState)
    (r : CommandRow) (hlane : isControl r.commandType = (lane == .control))
    (h : blocked db lane now state r = false) (j : UUID) (b : CommandRow)
    (hb : db.commands.get j = some b) (hne : b.id ≠ r.id) (hrun : b.runId = r.runId)
    (hkind : isControl b.commandType = isControl r.commandType) : liveAt b now = false := by
  cases lane with
  | control =>
    have hc : isControl b.commandType = true := by rw [hkind, hlane]; rfl
    have hf := other_eq_false db r _ h j b hb hne hrun
    simpa [hc] using hf
  | normal =>
    have hc : isControl b.commandType = false := by rw [hkind, hlane]; rfl
    simp only [blocked, Bool.or_eq_false_iff] at h
    have hf := other_eq_false db r _ h.1.1.2 j b hb hne hrun
    simpa [hc] using hf

theorem mem_candidates (db : Db) (lane : CommandLane) (now : ℤ) (l : List UUID) (r : CommandRow)
    (h : r ∈ candidates db lane now l) :
    (∃ i, db.commands.get i = some r) ∧ isControl r.commandType = (lane == .control) := by
  unfold candidates at h
  rw [List.mem_insertionSort, List.mem_filter, List.mem_map] at h
  obtain ⟨⟨p, hp, rfl⟩, hf⟩ := h
  refine ⟨⟨p.1, (db.commands.mem_rows_iff p.1 p.2).mp hp⟩, ?_⟩
  simp only [eligible, Bool.and_eq_true, beq_iff_eq] at hf
  exact hf.1.2

/-- A transaction writes at most one row, and no malformed one. -/
theorem transaction_written (db db' : Db) (now : ℤ) (l : List UUID) (call : Call)
    (hid : ∀ i r, db.commands.get i = some r → r.id = i)
    (h : call.transaction red db now l = .ok db') :
    db' = db ∨ ∃ r, Written db now call r ∧ wellFormed red r = true ∧ db' = db.put r := by
  cases call with
  | enqueue args =>
    simp only [Call.transaction, map_eq_ok] at h
    obtain ⟨⟨db1, e⟩, h, rfl⟩ := h
    unfold enqueue at h
    rw [bind_unit_eq_ok] at h
    obtain ⟨-, h⟩ := h
    simp only [bind_eq_ok] at h
    obtain ⟨stored, -, h⟩ := h
    split at h
    · split at h
      · cases h
      · exact Or.inr ⟨_, .idle _ _ (by simp [enqueuedRow]), store_eq_ok _ _ _ _ h⟩
    · rw [bind_eq_ok] at h
      obtain ⟨x, -, h⟩ := h
      rw [require_bind_eq_ok] at h
      cases h.2
      exact Or.inl rfl
  | claimNext worker lease lane =>
    simp only [Call.transaction, map_eq_ok] at h
    obtain ⟨⟨db1, e⟩, h, rfl⟩ := h
    unfold claimNext at h
    rw [bind_unit_eq_ok] at h
    obtain ⟨-, h⟩ := h
    split at h
    · cases h
    · cases h; exact Or.inl rfl
    · rw [bind_eq_ok] at h
      obtain ⟨chosen, hc, h⟩ := h
      split at h
      · cases h; exact Or.inl rfl
      · next record =>
        rw [bind_eq_ok] at h
        obtain ⟨⟨db2, e2⟩, hs, h⟩ := h
        cases h
        obtain ⟨hm, state, -, hb⟩ := claimFrom_eq_some db lane now _ record hc
        obtain ⟨⟨i, hi⟩, hlane⟩ := mem_candidates db lane now l record hm
        refine Or.inr ⟨_, .claimed worker lease lane record (hid i record hi ▸ hi) hlane ?_,
          store_eq_ok _ _ _ _ hs⟩
        intro j b hbget hne hrun hkind
        exact blocked_eq_false db lane now state record hlane hb j b hbget hne hrun hkind
  | renew id worker lease =>
    simp only [Call.transaction, map_eq_ok] at h
    obtain ⟨⟨db1, e⟩, h, rfl⟩ := h
    unfold renew at h
    rw [bind_unit_eq_ok, bind_eq_ok] at h
    obtain ⟨-, r, hr, h⟩ := h
    rw [locked_eq_ok] at hr
    rw [require_bind_eq_ok] at h
    exact Or.inr ⟨_, .renewed id worker lease r hr h.1, store_eq_ok _ _ _ _ h.2⟩
  | complete id worker =>
    simp only [Call.transaction, map_eq_ok] at h
    obtain ⟨⟨db1, e⟩, h, rfl⟩ := h
    unfold complete at h
    rw [bind_eq_ok] at h
    obtain ⟨r, hr, h⟩ := h
    split at h
    · rw [bind_eq_ok] at h
      obtain ⟨x, -, h⟩ := h
      cases h
      exact Or.inl rfl
    · rw [require_bind_eq_ok] at h
      exact Or.inr ⟨_, .idle _ _ (by simp [settledRow]), store_eq_ok _ _ _ _ h.2⟩
  | fail id worker error transient =>
    simp only [Call.transaction, map_eq_ok] at h
    obtain ⟨⟨db1, e⟩, h, rfl⟩ := h
    unfold fail at h
    simp only [bind_eq_ok] at h
    obtain ⟨r, hr, h⟩ := h
    split at h
    · simp only [bind_eq_ok] at h
      obtain ⟨u, -, x, -, h⟩ := h
      cases h
      exact Or.inl rfl
    · rw [require_bind_eq_ok] at h
      refine Or.inr ⟨_, .idle _ _ ?_, store_eq_ok _ _ _ _ h.2⟩
      cases transient <;> simp [retriedRow, settledRow]
  | cancel id worker reason =>
    simp only [Call.transaction, map_eq_ok] at h
    obtain ⟨⟨db1, e⟩, h, rfl⟩ := h
    unfold cancel at h
    rw [bind_eq_ok] at h
    obtain ⟨r, hr, h⟩ := h
    split at h
    · rw [bind_eq_ok] at h
      obtain ⟨x, -, h⟩ := h
      cases h
      exact Or.inl rfl
    · rw [require_bind_eq_ok] at h
      exact Or.inr ⟨_, .idle _ _ (by simp [settledRow]), store_eq_ok _ _ _ _ h.2⟩

/- Exclusion is symmetric, so after a write only pairs with the written row count. -/
theorem exclusive_put (db : Db) (clock : ℤ) (r : CommandRow) (h : Exclusive db clock)
    (hid : ∀ i r, db.commands.get i = some r → r.id = i)
    (hr : liveAt r clock = true → ∀ j b, db.commands.get j = some b → b.id ≠ r.id →
      b.runId = r.runId → isControl b.commandType = isControl r.commandType →
      liveAt b clock = false) : Exclusive (db.put r) clock := by
  intro i j a b ha hb hrun hkind hla hlb
  simp only [Db.put, Table.get_put] at ha hb
  split at ha <;> split at hb
  · next hi hj => rw [hi, hj]
  · next hi hj =>
    cases ha
    have hne : b.id ≠ r.id := by rw [hid j b hb]; exact hj
    have := hr hla j b hb hne hrun.symm hkind.symm
    rw [hlb] at this
    cases this
  · next hi hj =>
    cases hb
    have hne : a.id ≠ r.id := by rw [hid i a ha]; exact hi
    have := hr hlb i a ha hne hrun hkind
    rw [hla] at this
    cases this
  · exact h i j a b ha hb hrun hkind hla hlb

/-- One transaction of a call that read `now` before the current time. -/
theorem transaction_exclusive (db db' : Db) (now clock : ℤ) (l : List UUID) (call : Call)
    (hid : ∀ i r, db.commands.get i = some r → r.id = i) (hnow : now ≤ clock)
    (h : Exclusive db clock) (hc : call.transaction red db now l = .ok db')
    (ht : ∀ id worker lease r, call = .renew id worker lease → db.commands.get id = some r →
      ownsLease r worker now = true → liveAt r clock = true) : Exclusive db' clock := by
  rcases transaction_written db db' now l call hid hc with rfl | ⟨r, hw, -, rfl⟩
  · exact h
  · refine exclusive_put db clock r h hid ?_
    intro hl j b hb hne hrun hkind
    cases hw with
    | idle _ _ hs => exact absurd ((liveAt_iff _ _).mp hl).1 hs
    | claimed worker lease lane r hget hlane hfree =>
      -- live at the current time is live at the time the claim read
      have hdead := hfree j b hb hne hrun hkind
      cases hlb : liveAt b clock with
      | false => rfl
      | true => rw [liveAt_mono b now clock hnow hlb] at hdead; cases hdead
    | renewed id worker lease r hget ho =>
      -- the renewed lease was still running, so nothing else was
      have hlive := ht id worker lease r rfl hget ho
      cases hlb : liveAt b clock with
      | false => rfl
      | true =>
        have hij := h j id b r hb hget hrun hkind hlb hlive
        subst hij
        exact absurd ((hid j b hb).trans (hid j r hget).symm) hne

theorem transaction_identity (db db' : Db) (now : ℤ) (l : List UUID) (call : Call)
    (hid : ∀ i r, db.commands.get i = some r → r.id = i)
    (hc : call.transaction red db now l = .ok db') (i : UUID) (r : CommandRow)
    (hr : db'.commands.get i = some r) : r.id = i := by
  rcases transaction_written db db' now l call hid hc with rfl | ⟨s, -, -, rfl⟩
  · exact hid i r hr
  · simp only [Db.put, Table.get_put] at hr
    split at hr
    · next hi => cases hr; exact hi.symm
    · exact hid i r hr

theorem inv_step (w : World) (a : Action) (h : Inv w) (ht : Timely w a) : Inv (w.step red a) := by
  cases a with
  | tick elapsed =>
    refine ⟨h.identity, ?_, ?_⟩
    · intro c hc
      have := h.past c hc
      simp only [World.step]
      omega
    · intro i j a b ha hb hrun hkind hla hlb
      have hle : w.clock ≤ w.clock + elapsed := by omega
      exact h.exclusive i j a b ha hb hrun hkind (liveAt_mono a _ _ hle hla)
        (liveAt_mono b _ _ hle hlb)
  | start call =>
    refine ⟨h.identity, ?_, h.exclusive⟩
    intro c hc
    rcases List.mem_append.mp hc with hc | hc
    · exact h.past c hc
    · rw [List.mem_singleton] at hc
      subst hc
      exact Int.le_refl _
  | commit i lockedRows =>
    simp only [World.step]
    cases hf : w.inFlight[i]? with
    | none => exact h
    | some c =>
      obtain ⟨call, now⟩ := c
      have hnow : now ≤ w.clock := h.past (call, now) (List.mem_of_getElem? hf)
      have hpast : ∀ c ∈ w.inFlight.eraseIdx i, c.2 ≤ w.clock :=
        fun c hc => h.past c (List.mem_of_mem_eraseIdx hc)
      cases hc : call.transaction red w.db now lockedRows with
      | error e =>
        simp only [hc]
        exact ⟨h.identity, hpast, h.exclusive⟩
      | ok db' =>
        simp only [hc]
        refine ⟨transaction_identity w.db db' now lockedRows call h.identity hc, hpast, ?_⟩
        refine transaction_exclusive w.db db' now w.clock lockedRows call h.identity hnow
          h.exclusive hc ?_
        intro id worker lease r hcall hget ho
        subst hcall
        exact ht id worker lease now r hf hget ho
  | crash i => exact ⟨h.identity, fun c hc => h.past c (List.mem_of_mem_eraseIdx hc), h.exclusive⟩
  | surroundings s => exact ⟨h.identity, h.past, h.exclusive⟩

theorem inv_init (s : Surroundings) (clock : ℤ) : Inv (World.init s clock) := by
  refine ⟨?_, ?_, ?_⟩
  · intro i r hr; simp [World.init] at hr
  · intro c hc; simp [World.init] at hc
  · intro i j a b ha; simp [World.init] at ha

end rows

/-- In every run in which each granted renewal finds its lease still running at
the current time, no run ever has two live ordinary leases or two live control
leases. -/
theorem exclusive_of_timely (red : Durability) (s : Surroundings) (clock : ℤ)
    (actions : List Action)
    (ht : Along (World.step red) Timely (World.init s clock) actions) :
    let w := run (World.step red) (World.init s clock) actions
    Exclusive w.db w.clock :=
  (run_invariant_along (World.step red) Timely Inv (fun w a h ht => inv_step w a h ht) _ _
    (inv_init s clock) ht).exclusive

/-- One run in progress. Command 1 is leased until 10 s; command 2 is enqueued to be
delivered first. -/
def sampleSurroundings : Surroundings where
  runState := fun _ => some .implementing
  checkpointed := fun _ => false
  startupInterventionHold := fun _ => false
  barrierRequired := some false

def sampleDurability : Durability := ⟨fun _ => false, id, some⟩

def sampleCommand (id : UUID) (key : String) (availableAt : ℤ) : EnqueueArgs where
  id := id
  runId := 9
  commandType := "implement"
  idempotencyKey := key
  payload := "[]"
  expectedRunVersion := 0
  actorId := none
  payloadSchemaVersion := 1
  availableAt := some availableAt
  createdAt := 0

def leaseFirst : List Action :=
  [.start (.enqueue (sampleCommand 1 "one" 1000000)), .commit 0 [], .tick 1000000,
    .start (.claimNext "w1" 9000000 .normal), .commit 0 [],
    .start (.enqueue (sampleCommand 2 "two" 0)), .commit 0 []]

theorem exclusive_of_timely_renewal :
    let actions := leaseFirst ++ [.tick 8000000, .start (.renew 1 "w1" 9000000), .commit 0 []]
    let w := run (World.step sampleDurability) (World.init sampleSurroundings 0) actions
    (w.db.commands.get 1).map (liveAt · w.clock) = some true ∧ Exclusive w.db w.clock := by
  refine ⟨by decide +kernel, ?_⟩
  refine exclusive_of_timely sampleDurability sampleSurroundings 0 _ ?_
  refine ⟨trivial, ?_, trivial, trivial, ?_, trivial, ?_, trivial, trivial, ?_, trivial⟩
  · intro id worker lease now r hf; cases hf
  · intro id worker lease now r hf; cases hf
  · intro id worker lease now r hf; cases hf
  · intro id worker lease now r hf hget ho
    cases hf
    have hrow : ((run (World.step sampleDurability) (World.init sampleSurroundings 0)
        (leaseFirst ++ [.tick 8000000])).db.commands.get 1).all (liveAt · 9000000) = true := by
      decide +kernel
    have hget' : (run (World.step sampleDurability) (World.init sampleSurroundings 0)
        (leaseFirst ++ [.tick 8000000])).db.commands.get 1 = some r := hget
    rw [hget'] at hrow
    exact hrow

/- A renewal of command 1 reads 9 s; at 10 s a claim takes command 2, and then the
renewal commits. -/
theorem late_renewal_breaks_exclusion :
    let actions := leaseFirst ++ [.tick 8000000, .start (.renew 1 "w1" 9000000), .tick 1000000,
      .start (.claimNext "w2" 9000000 .normal), .commit 1 [], .commit 0 []]
    let w := run (World.step sampleDurability) (World.init sampleSurroundings 0) actions
    ¬ Exclusive w.db w.clock := by
  intro actions w h
  have hone : (w.db.commands.get 1).any (fun r => liveAt r w.clock && r.runId == 9 &&
      !isControl r.commandType) = true := by decide +kernel
  have htwo : (w.db.commands.get 2).any (fun r => liveAt r w.clock && r.runId == 9 &&
      !isControl r.commandType) = true := by decide +kernel
  rw [Option.any_eq_true] at hone htwo
  obtain ⟨a, ha, hpa⟩ := hone
  obtain ⟨b, hb, hpb⟩ := htwo
  simp only [Bool.and_eq_true, beq_iff_eq, Bool.not_eq_true'] at hpa hpb
  have := h 1 2 a b ha hb (hpa.1.2.trans hpb.1.2.symm) (hpa.2.trans hpb.2.symm) hpa.1.1 hpb.1.1
  cases this

end ParallelForge.Command
