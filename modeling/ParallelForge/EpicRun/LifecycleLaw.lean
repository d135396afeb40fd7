import ParallelForge.EpicRun.LaunchLaw
import ParallelForge.EpicRun.Lifecycle

/-!
# What a control transaction does

A request that is accepted writes one intent for each attempt of the execution, under
a version of its own. A reconciler moves one intent at a time; what it does to the
control stands beside the move.
-/

namespace ParallelForge.EpicRun
open Base Brainstorm Budget Epic Run

/-! ### The request -/

/- The intents of a list of participants are added; the others stay. -/
theorem addIntents_spec (mk : Participant → UUID × ControlIntent) (l : List Participant) :
    ∀ db db', l.foldlM (fun db p => addIntent db (mk p).1 (mk p).2) db = .ok db' →
      (∃ intents, db' = { db with intents := intents }) ∧
      (∀ id i, db.intents.get id = some i → db'.intents.get id = some i) ∧
      (∀ p ∈ l, db'.intents.get (mk p).1 = some (mk p).2) ∧
      ∀ id i, db'.intents.get id = some i → db.intents.get id = some i ∨ ∃ p ∈ l, mk p = (id, i) := by
  induction l with
  | nil =>
    intro db db' h
    cases h
    exact ⟨⟨db.intents, rfl⟩, fun _ _ hi => hi, List.forall_mem_nil _, fun _ _ hi => Or.inl hi⟩
  | cons p l ih =>
    intro db db' h
    rw [List.foldlM_cons, bind_eq_ok] at h
    obtain ⟨db₁, hadd, hrest⟩ := h
    simp only [addIntent, bind_eq_ok, require_eq_ok] at hadd
    obtain ⟨-, ⟨hnone, -⟩, hadd⟩ := hadd
    cases hadd
    obtain ⟨⟨intents, rfl⟩, hkept, hnew, hfrom⟩ := ih _ _ hrest
    refine ⟨⟨intents, rfl⟩, ?_, ?_, ?_⟩
    · intro id i hi
      refine hkept id i ?_
      exact (Table.get_put_ne _ _ (Table.ne_of_get _ hnone hi)).trans hi
    · intro q hq
      rcases List.mem_cons.mp hq with rfl | hq
      · exact hkept _ _ (Table.get_put_self _ _ _)
      · exact hnew q hq
    · intro id i hi
      rcases hfrom id i hi with hold | ⟨q, hq, hmk⟩
      · simp only [Db.putIntent, Table.get_put] at hold
        split at hold
        · next he =>
          cases hold
          exact Or.inr ⟨p, List.mem_cons_self, Prod.ext he.symm rfl⟩
        · exact Or.inl hold
      · exact Or.inr ⟨q, List.mem_cons_of_mem _ hq, hmk⟩

theorem settleHolds_rows (l : List UUID) : ∀ db : Db, ∃ holds, l.foldl settleHold db = { db with holds := holds } := by
  induction l with
  | nil => exact fun db => ⟨db.holds, rfl⟩
  | cons id l ih =>
    intro db
    obtain ⟨holds, h⟩ := ih (settleHold db id)
    exact ⟨holds, h⟩

theorem mem_participantOrder (participants : List Participant) (p : Participant) :
    p ∈ participantOrder participants ↔ p ∈ participants := by
  simp only [participantOrder, List.mem_append, List.mem_filter, beq_iff_eq]
  cases p.standing <;> simp

/-- The participant of an attempt. -/
structure ParticipantOf (db : Db) (action : ControlAction) (x : UUID) (a : Attempt) (p : Participant) : Prop where
  attemptId : p.attemptId = x
  runId : p.runId = a.runId
  run : ∃ run, db.runs.get a.runId = some run ∧ p.standing = standing db action a.runId run

theorem participantOf_spec (db : Db) (action : ControlAction) (x : UUID) (a : Attempt) (p : Participant)
    (h : participantOf db action (x, a) = .ok p) : ParticipantOf db action x a p := by
  simp only [participantOf, bind_eq_ok, orRaise_eq_ok] at h
  obtain ⟨run, hrun, h⟩ := h
  cases h
  exact ⟨rfl, rfl, run, hrun, rfl⟩

/-- What an accepted request has found and written. -/
structure Requested (db db' : Db) (actorId epicId executionId : UUID) (key : Str) (request : ControlRequest)
    (response : ControlReceipt) (control control' : Control) : Prop where
  valid : validKey key = true
  unused : db.receipts.get (actorId, .executionControl, key) = none
  found : db.controls.get executionId = some control
  epic : control.epicId = epicId
  version : control.version = request.expectedExecutionVersion
  allowed : stateRefusal request.action control.state = none
  rows : ∃ holds intents, db' = { db with
    holds := holds
    intents := intents
    controls := db.controls.put executionId control'
    receipts := db.receipts.put (actorId, .executionControl, key)
      ⟨.executionControl executionId request, executionId, some response⟩ }
  answer : response.executionId = executionId ∧ response.executionVersion = control'.version ∧
    response.action = request.action ∧ response.state = control'.state
  next : control'.epicId = epicId ∧ control'.version = control.version + 1
  kept : ∀ id i, db.intents.get id = some i → db'.intents.get id = some i
  participants : ∀ x a, db.attempts.get x = some a → a.epicId = epicId → a.executionId = executionId →
    ∃ id i run, db'.intents.get id = some i ∧ i.executionId = executionId ∧ i.controlVersion = control'.version ∧
      i.runId = a.runId ∧ db.runs.get a.runId = some run ∧
      i.status = (standing db request.action a.runId run).status
  added : ∀ id i, db'.intents.get id = some i → db.intents.get id = some i ∨
    (i.executionId = executionId ∧ i.controlVersion = control'.version ∧ i.action = request.action ∧
      i.commandId = none ∧ ∃ s : Standing, i.status = s.status)
  state : (control'.state = request.action.requested ∧ ∃ id i, db'.intents.get id = some i ∧
      i.executionId = executionId ∧ i.controlVersion = control'.version ∧ i.status.isOpen = true) ∨
    (control'.state = request.action.settled ∧ ∀ x a, db.attempts.get x = some a → a.epicId = epicId →
      a.executionId = executionId → ∃ run, db.runs.get a.runId = some run ∧
        (standing db request.action a.runId run).isPending = false)

theorem Standing.isOpen_status (s : Standing) (h : s.isPending = true) : s.status.isOpen = true := by
  cases s with
  | live => rfl
  | observing => rfl
  | historical => cases h
  | alreadySettled => cases h

/- The participants of the attempts of the execution. -/
theorem participants_spec (db : Db) (epicId executionId : UUID) (action : ControlAction) (participants : List Participant)
    (h : (db.listAttempts epicId (some executionId)).mapM (participantOf db action) = .ok participants) (x : UUID)
    (a : Attempt) (hx : db.attempts.get x = some a) (hepic : a.epicId = epicId) (he : a.executionId = executionId) :
    ∃ p ∈ participants, ParticipantOf db action x a p := by
  have hmem : (x, a) ∈ db.listAttempts epicId (some executionId) := by
    rw [Db.mem_listAttempts]
    exact ⟨hx, hepic, fun e hsome => by cases hsome; exact he.symm⟩
  obtain ⟨p, hp, hof⟩ := forall₂_exists ((mapM_eq_ok _ _ _).mp h).flip (x, a) hmem
  exact ⟨p, hp, participantOf_spec db action x a p hof⟩

theorem controlRequest_spec (db db' : Db) (now : ℤ) (actor : Actor) (epicId executionId : UUID) (key : Str)
    (request : ControlRequest) (o : ControlOutside) (response : ControlReceipt)
    (h : controlRequest db now actor epicId executionId key request o = .ok (response, db')) :
    (db' = db ∧ validKey key = true ∧ ∃ receipt, db.receipts.get (actor.actorId, .executionControl, key) = some receipt ∧
        receipt.request = .executionControl executionId request ∧ receipt.response = some response) ∨
      ∃ control control', Requested db db' actor.actorId epicId executionId key request response control control' := by
  unfold controlRequest at h
  rw [bind_eq_ok] at h
  obtain ⟨o', hreserve, h⟩ := h
  cases o' with
  | some receipt =>
    simp only [bind_eq_ok, orRaise_eq_ok] at h
    obtain ⟨found, hfound, h⟩ := h
    cases h
    obtain ⟨hget, hsame⟩ := reserve_eq_some _ _ _ _ _ _ hreserve
    exact Or.inl ⟨rfl, reserve_key _ _ _ _ _ _ hreserve, receipt, hget, hsame, hfound⟩
  | none =>
    simp only [bind_eq_ok, orRaise_eq_ok, require_eq_ok] at h
    obtain ⟨-, -, control, hcontrol, -, hepic, -, hversion, -, hallowed, participants, hparticipants, db₁, hintents,
      -, -, h⟩ := h
    cases h
    obtain ⟨holds, hholds⟩ := settleHolds_rows ((participants.filter (·.standing == .historical)).map (·.attemptId)) db
    rw [hholds] at hintents
    obtain ⟨⟨intents, rfl⟩, hkept, hnew, hfrom⟩ := addIntents_spec
      (fun p => (o.intentId p.runId, intentOf now actor executionId (control.version + 1) request.action p)) _ _ _ hintents
    have hof := participants_spec db epicId executionId request.action participants hparticipants
    refine Or.inr ⟨control, { control with
      version := control.version + 1
      state := if participants.any (·.standing.isPending) then request.action.requested else request.action.settled
      blockerCode := none
      updatedAt := now }, reserve_key _ _ _ _ _ _ hreserve, reserve_eq_none _ _ _ _ _ hreserve, hcontrol, hepic,
      hversion, Option.isNone_iff_eq_none.mp hallowed, ⟨holds, intents, rfl⟩, ⟨rfl, rfl, rfl, rfl⟩, ⟨hepic, rfl⟩, hkept,
      ?_, ?_, ?_⟩
    · intro x a hx hae hax
      obtain ⟨p, hp, hpa⟩ := hof x a hx hae hax
      obtain ⟨run, hrun, hstanding⟩ := hpa.run
      refine ⟨_, _, run, hnew p ((mem_participantOrder _ _).mpr hp), rfl, rfl, hpa.runId, hrun, ?_⟩
      exact congrArg Standing.status hstanding
    · intro id i hi
      rcases hfrom id i hi with hold | ⟨p, -, hmk⟩
      · exact Or.inl hold
      · cases hmk
        exact Or.inr ⟨rfl, rfl, rfl, rfl, p.standing, rfl⟩
    · cases hany : participants.any (·.standing.isPending) with
      | true =>
        obtain ⟨p, hp, hpending⟩ := List.any_eq_true.mp hany
        exact Or.inl ⟨rfl, _, _, hnew p ((mem_participantOrder _ _).mpr hp), rfl, rfl, p.standing.isOpen_status hpending⟩
      | false =>
        refine Or.inr ⟨rfl, ?_⟩
        intro x a hx hae hax
        obtain ⟨p, hp, hpa⟩ := hof x a hx hae hax
        obtain ⟨run, hrun, hstanding⟩ := hpa.run
        refine ⟨run, hrun, ?_⟩
        rw [← hstanding]
        exact Bool.eq_false_iff.mpr (List.any_eq_false.mp hany p hp)

/-! ### The reconciler -/

/-- The attempt's participant in the version is settled, and its run where it should be. -/
def Controlled (db db' : Db) (executionId : UUID) (version : ℕ) (action : ControlAction) (b : Attempt) : Prop :=
  ∃ id i run, db'.intents.get id = some i ∧ i.executionId = executionId ∧ i.controlVersion = version ∧
    i.runId = b.runId ∧ i.status.isSettled = true ∧ db.runs.get b.runId = some run ∧
    expectedState i.status action run.state = true ∧
    (i.status = .historical ∨ action ≠ .resume → db.isQuiescent b.runId = true)

/-- The control an intent leaves when it is settled. -/
inductive SettledControl (db db' : Db) (id : UUID) (a : ControlIntent) (control : Control) : Prop
  | pending (j : UUID) (other : ControlIntent) (hne : j ≠ id) (hget : db.intents.get j = some other)
      (he : other.executionId = a.executionId) (hv : other.controlVersion = a.controlVersion)
      (hs : other.status.isSettled = false) (hc : db'.controls = db.controls)
  | blocked (c' : Control) (hc : db'.controls = db.controls.put a.executionId c') (hepic : c'.epicId = control.epicId)
      (hv : c'.version = control.version) (hs : c'.state = .blocked)
  | reached (c' : Control) (hc : db'.controls = db.controls.put a.executionId c') (hepic : c'.epicId = control.epicId)
      (hv : c'.version = control.version) (hs : c'.state = a.action.settled)
      (hall : ∀ x b, db.attempts.get x = some b → b.epicId = control.epicId → b.executionId = a.executionId →
        Controlled db db' a.executionId a.controlVersion a.action b)

/-- The command that is written for an intent: for its child, as it was when the owner asked. -/
structure Sent (db db' : Db) (a : ControlIntent) (commandId : UUID) : Prop where
  run : ∃ run, db.runs.get a.runId = some run ∧ run.version = a.expectedRunVersion ∧
    Command.stateAllows run.state a.action.command = true ∧
    (a.action = .cancel → Command.cancellationRejectionReason run = none)
  row : ∃ row : Command.CommandRow, db.commands.get commandId = none ∧ db'.commands = db.commands.put commandId row ∧
    row.id = commandId ∧ row.runId = a.runId ∧ row.commandType = a.action.command.value ∧
    row.actorId = some a.actorId ∧ row.expectedRunVersion = a.expectedRunVersion ∧ row.status = .pending

/-- One intent's move, and what goes with it. -/
inductive Moved (db db' : Db) (id : UUID) (a : ControlIntent) : ControlIntent → Prop
  | checked (checkedAt : Option ℤ) (hs : a.status.isOpen = true) (hc : db'.controls = db.controls)
      (hm : db'.commands = db.commands) : Moved db db' id a { a with checkedAt := checkedAt }
  | superseded (control : Control) (hs : a.status.isOpen = true) (hget : db.controls.get a.executionId = some control)
      (hne : control.version ≠ a.controlVersion) (hc : db'.controls = db.controls)
      (hm : db'.commands = db.commands) : Moved db db' id a { a with status := .superseded }
  | enqueued (control : Control) (checkedAt : Option ℤ) (commandId : UUID) (hs : a.status = .requested)
      (hget : db.controls.get a.executionId = some control) (hv : control.version = a.controlVersion)
      (hc : db'.controls = db.controls) (hm : db'.commands = db.commands ∨ Sent db db' a commandId) :
      Moved db db' id a { a with checkedAt := checkedAt, commandId := some commandId, status := .enqueued }
  | refused (control : Control) (checkedAt : Option ℤ) (refusal : Option Refusal)
      (hs : a.status = .requested ∨ a.status = .enqueued) (hget : db.controls.get a.executionId = some control)
      (hc : (control.version ≠ a.controlVersion ∧ db'.controls = db.controls) ∨ (control.version = a.controlVersion ∧
        ∃ c', db'.controls = db.controls.put a.executionId c' ∧ c'.epicId = control.epicId ∧
          c'.version = control.version ∧ c'.state = .blocked))
      (hm : db'.commands = db.commands) :
      Moved db db' id a { a with checkedAt := checkedAt, status := .refused, refusal := refusal }
  | settled (control : Control) (status : IntentStatus) (hs : a.status = .enqueued ∨ a.status = .observing)
      (hsettled : status.isSettled = true) (hget : db.controls.get a.executionId = some control)
      (hv : control.version = a.controlVersion) (hc : SettledControl db db' id a control)
      (hm : db'.commands = db.commands) : Moved db db' id a { a with status := status }

/-- The rows before and after a reconciler's transaction. -/
structure Reconciled (db db' : Db) : Prop where
  rows : ∃ holds intents controls commands, db' = { db with
    holds := holds, intents := intents, controls := controls, commands := commands }
  moves : (db'.controls = db.controls ∧ db'.intents = db.intents ∧ db'.commands = db.commands) ∨
    ∃ id a b, db.intents.get id = some a ∧ db'.intents = db.intents.put id b ∧ Moved db db' id a b

theorem Reconciled.refl (db : Db) : Reconciled db db :=
  ⟨⟨db.holds, db.intents, db.controls, db.commands, rfl⟩, Or.inl ⟨rfl, rfl, rfl⟩⟩

theorem refuse_eq_ok {ε : Type} (reason : Option String) (error : String → ε)
    (h : Command.refuse reason error = .ok ()) : reason = none := by
  cases reason with
  | none => rfl
  | some text => cases h

/- What the admission of a new command has found, and its row. -/
theorem enqueue_spec (red : Durability) (db db' : Command.Db) (args : Command.EnqueueArgs) (now : ℤ)
    (row : Command.CommandRow) (h : Command.enqueue red db args now = .ok (db', row)) :
    db' = db ∨ (db.commands.get args.id = none ∧ db' = db.put row ∧
      ∃ stored, row = { Command.enqueuedRow args now with payload := stored }) := by
  simp only [Command.enqueue, bind_eq_ok] at h
  obtain ⟨-, -, stored, -, h⟩ := h
  split at h
  · split at h
    · cases h
    · next hnone =>
      simp only [Command.store, Command.commandFromRecord, bind_eq_ok] at h
      obtain ⟨envelope, henvelope, h⟩ := h
      cases h
      split at henvelope
      · cases henvelope
        exact Or.inr ⟨hnone, rfl, stored, rfl⟩
      · cases henvelope
  · simp only [bind_eq_ok] at h
    obtain ⟨actual, -, -, -, h⟩ := h
    cases h
    exact Or.inl rfl

theorem Commands.enqueue_spec (c : Commands) (db : Db) (now : ℤ) (id : UUID) (a : ControlIntent) (newId : UUID)
    (commands : Command.Db) (row : Command.CommandRow) (h : c.enqueue db now id a newId = .ok (commands, row))
    (intents : Table UUID ControlIntent) :
    commands.commands = db.commands ∨
      Sent db { db with intents := intents, commands := commands.commands } a row.id := by
  simp only [Commands.enqueue, Command.enqueueInWork, bind_eq_ok] at h
  obtain ⟨queueKey, -, before, -, h⟩ := h
  cases before with
  | some existing =>
    simp only [bind_eq_ok] at h
    obtain ⟨-, -, h⟩ := h
    cases h
    exact Or.inl rfl
  | none =>
    simp only [bind_eq_ok, orRaise_eq_ok] at h
    obtain ⟨run, hrun, after, -, h⟩ := h
    cases after with
    | some existing =>
      simp only [bind_eq_ok] at h
      obtain ⟨-, -, h⟩ := h
      cases h
      exact Or.inl rfl
    | none =>
      simp only [Command.admitAgainstRun, bind_eq_ok, require_eq_ok, mapError_eq_ok] at h
      obtain ⟨-, ⟨-, hversion, _, hcancel, -, -, hstate⟩, payload, -, -, -, h⟩ := h
      rcases EpicRun.enqueue_spec _ _ _ _ _ _ h with hsame | ⟨hnone, hput, stored, hrow⟩
      · rw [hsame]
        exact Or.inl rfl
      · refine Or.inr ⟨⟨run, hrun, hversion.symm, hstate, ?_⟩, row, ?_, ?_, rfl, ?_⟩
        · intro hact
          have := refuse_eq_ok _ _ hcancel
          rwa [if_pos (by rw [hact]; rfl)] at this
        · rw [hrow]
          exact hnone
        · rw [hput]
          rfl
        · rw [hrow]
          exact ⟨rfl, rfl, rfl, rfl, rfl⟩

theorem refused_reconciled (db : Db) (now : ℤ) (id : UUID) (a : ControlIntent) (control : Control)
    (checkedAt : Option ℤ) (refusal : Option Refusal) (ha : db.intents.get id = some a)
    (hs : a.status = .requested ∨ a.status = .enqueued) (hget : db.controls.get a.executionId = some control)
    (hv : control.version = a.controlVersion) :
    Reconciled db (refusedControl (db.putIntent id { a with
      checkedAt := checkedAt, status := .refused, refusal := refusal }) now a.executionId control) :=
  ⟨⟨_, _, _, _, rfl⟩, Or.inr ⟨id, a, _, ha, rfl,
    .refused control checkedAt refusal hs hget (Or.inr ⟨hv, _, rfl, rfl, rfl, rfl⟩) rfl⟩⟩

theorem enqueueIntent_reconciled (c : Commands) (db db' : Db) (now : ℤ) (id : UUID) (a : ControlIntent) (newId : UUID)
    (ha : db.intents.get id = some a) (hs : a.status = .requested)
    (h : enqueueIntent c db now id a newId = .ok db') : Reconciled db db' := by
  simp only [enqueueIntent, bind_eq_ok, orRaise_eq_ok, require_eq_ok] at h
  obtain ⟨control, hget, -, -, h⟩ := h
  split at h
  · next hne =>
    cases h
    exact ⟨⟨_, _, _, _, rfl⟩, Or.inr ⟨id, a, _, ha, rfl, .superseded control (by rw [hs]; rfl) hget hne rfl rfl⟩⟩
  · next hv =>
    have hversion : control.version = a.controlVersion := not_not.mp hv
    split at h
    · cases h
      exact refused_reconciled db now id a control (some now) _ ha (Or.inl hs) hget hversion
    · next commands command hqueued =>
      cases h
      exact ⟨⟨_, _, _, _, rfl⟩, Or.inr ⟨id, a, _, ha, rfl, .enqueued control (some now) command.id hs hget hversion rfl
        (c.enqueue_spec db now id a newId commands command hqueued _)⟩⟩

theorem recordRefusal_reconciled (db db' : Db) (now : ℤ) (id : UUID) (refusal : Refusal)
    (h : recordRefusal db now id refusal = .ok db') : Reconciled db db' := by
  unfold recordRefusal at h
  split at h
  · cases h
    exact Reconciled.refl db
  · next a ha =>
    split at h
    · cases h
      exact Reconciled.refl db
    · next control hget =>
      simp only [bind_eq_ok, require_eq_ok] at h
      obtain ⟨-, -, h⟩ := h
      split at h
      · next hs =>
        split at h
        · next hv =>
          cases h
          exact refused_reconciled db now id a control a.checkedAt _ ha hs hget hv
        · next hv =>
          cases h
          exact ⟨⟨_, _, _, _, rfl⟩, Or.inr ⟨id, a, _, ha, rfl,
            .refused control a.checkedAt (some refusal) hs hget (Or.inl ⟨hv, rfl⟩) rfl⟩⟩
      · cases h
        exact Reconciled.refl db

theorem participantIntent_spec (db : Db) (executionId : UUID) (version : ℕ) (runId : UUID) (i : ControlIntent)
    (h : participantIntent db executionId version runId = some i) :
    ∃ id, db.intents.get id = some i ∧ i.executionId = executionId ∧ i.controlVersion = version ∧ i.runId = runId := by
  unfold participantIntent at h
  rw [Option.map_eq_some_iff] at h
  obtain ⟨⟨id, i'⟩, hlast, rfl⟩ := h
  have hmem := List.mem_of_getLast? hlast
  rw [Table.mem_select_iff] at hmem
  simp only [Bool.and_eq_true, beq_iff_eq] at hmem
  exact ⟨id, hmem.1, hmem.2.1.1, hmem.2.1.2, hmem.2.2⟩

/- The loop has looked at every attempt. -/
theorem anyUncontrolled_false (db : Db) (a : ControlIntent) (attempts : List (UUID × Attempt))
    (h : anyUncontrolled db a attempts = .ok false) :
    ∀ x ∈ attempts, Controlled db db a.executionId a.controlVersion a.action x.2 := by
  induction attempts with
  | nil => exact List.forall_mem_nil _
  | cons y attempts ih =>
    obtain ⟨yid, b⟩ := y
    unfold anyUncontrolled at h
    split at h
    · cases h
    · next i hi =>
      split at h
      · cases h
      · next hsettled =>
        simp only [bind_eq_ok, orRaise_eq_ok] at h
        obtain ⟨run, hrun, h⟩ := h
        split at h
        · cases h
        · next hstate =>
          split at h
          · cases h
          · next hquiet =>
            obtain ⟨id, hid, hexec, hversion, hrunId⟩ := participantIntent_spec db _ _ _ i hi
            intro x hx
            rcases List.mem_cons.mp hx with rfl | hx
            · refine ⟨id, i, run, hid, hexec, hversion, hrunId, Bool.eq_true_of_not_eq_false hsettled, hrun,
                Bool.eq_true_of_not_eq_false hstate, ?_⟩
              intro hneeds
              by_contra hnot
              exact hquiet ⟨hneeds, Bool.eq_false_iff.mpr hnot⟩
            · exact ih h x hx

theorem pendingOther_spec (db : Db) (id : UUID) (a b : ControlIntent) (he : b.executionId = a.executionId)
    (hv : b.controlVersion = a.controlVersion) (h : pendingOther (db.putIntent id b) id b = true) :
    ∃ j other, j ≠ id ∧ db.intents.get j = some other ∧ other.executionId = a.executionId ∧
      other.controlVersion = a.controlVersion ∧ other.status.isSettled = false := by
  unfold pendingOther at h
  rw [Table.any_iff] at h
  obtain ⟨j, other, hget, hall⟩ := h
  simp only [Bool.and_eq_true, beq_iff_eq, bne_iff_ne, Bool.not_eq_true'] at hall
  obtain ⟨⟨⟨hexec, hversion⟩, hne⟩, hsettled⟩ := hall
  refine ⟨j, other, hne, ?_, hexec.trans he, hversion.trans hv, hsettled⟩
  exact (Table.get_put_ne _ _ hne).symm.trans hget

/- Settling the control after the intent. -/
theorem settleControl_spec (db db' : Db) (now : ℤ) (control : Control) (id : UUID) (a : ControlIntent)
    (status : IntentStatus)
    (h : settleControl (db.putIntent id { a with status := status }) now control id { a with status := status } = .ok db') :
    (∃ controls, db' = { db.putIntent id { a with status := status } with controls := controls }) ∧
      SettledControl db db' id a control := by
  unfold settleControl at h
  split at h
  · next hpending =>
    cases h
    obtain ⟨j, other, hne, hget, he, hv, hs⟩ := pendingOther_spec db id a { a with status := status } rfl rfl hpending
    exact ⟨⟨db.controls, rfl⟩, .pending j other hne hget he hv hs rfl⟩
  · simp only [bind_eq_ok] at h
    obtain ⟨uncontrolled, hloop, h⟩ := h
    cases h
    refine ⟨⟨_, rfl⟩, ?_⟩
    cases uncontrolled with
    | true => exact .blocked _ rfl rfl rfl rfl
    | false =>
      refine .reached _ rfl rfl rfl rfl ?_
      intro x b hx hepic he
      have hmem : (x, b) ∈ (db.putIntent id { a with status := status }).listAttempts control.epicId
          (some a.executionId) := by
        rw [Db.mem_listAttempts]
        exact ⟨hx, hepic, fun e hsome => by cases hsome; exact he.symm⟩
      exact anyUncontrolled_false _ _ _ hloop (x, b) hmem

theorem settleRow_reconciled (db db' : Db) (now : ℤ) (control : Control) (id : UUID) (a : ControlIntent)
    (current : RunSnapshot) (ha : db.intents.get id = some a) (hs : a.status = .enqueued ∨ a.status = .observing)
    (hget : db.controls.get a.executionId = some control) (hv : control.version = a.controlVersion)
    (h : settleRow db now control id a current = .ok db') : Reconciled db db' := by
  obtain ⟨⟨controls, rfl⟩, hcontrol⟩ := settleControl_spec _ db' now control id a _ h
  refine ⟨⟨_, _, controls, _, rfl⟩, Or.inr ⟨id, a, _, ha, rfl, .settled control _ hs ?_ hget hv ?_ rfl⟩⟩
  · split
    · rfl
    · rfl
  · cases hcontrol with
    | pending j other hne hj he hversion hsettled hc => exact .pending j other hne hj he hversion hsettled hc
    | blocked c' hc hepic hversion hblocked => exact .blocked c' hc hepic hversion hblocked
    | reached c' hc hepic hversion hreached hall => exact .reached c' hc hepic hversion hreached hall

theorem settleIntent_reconciled (c : Commands) (db db' : Db) (now : ℤ) (id : UUID) (moved : Bool)
    (h : settleIntent c db now id = .ok (moved, db')) : Reconciled db db' := by
  unfold settleIntent at h
  split at h
  · cases h
    exact Reconciled.refl db
  · next a ha =>
    simp only [bind_eq_ok, orRaise_eq_ok, require_eq_ok] at h
    obtain ⟨control, hget, -, -, h⟩ := h
    split at h
    · cases h
      exact Reconciled.refl db
    · next hs =>
      have hopen : a.status = .enqueued ∨ a.status = .observing := by
        rcases not_and_or.mp hs with h | h
        · exact Or.inl (not_not.mp h)
        · exact Or.inr (not_not.mp h)
      split at h
      · next hne =>
        cases h
        refine ⟨⟨_, _, _, _, rfl⟩, Or.inr ⟨id, a, _, ha, rfl, .superseded control ?_ hget hne rfl rfl⟩⟩
        rcases hopen with h | h
        · rw [h]
          rfl
        · rw [h]
          rfl
      · next hv =>
        rw [bind_eq_ok] at h
        obtain ⟨acknowledged, -, h⟩ := h
        split at h
        · cases h
          exact Reconciled.refl db
        · simp only [bind_eq_ok, orRaise_eq_ok] at h
          obtain ⟨current, -, h⟩ := h
          split at h
          · cases h
            exact Reconciled.refl db
          · simp only [bind_eq_ok] at h
            obtain ⟨settled, hsettle, h⟩ := h
            cases h
            exact settleRow_reconciled db _ now control id a current ha hopen hget (not_not.mp hv) hsettle

/- Every transaction of the reconciler but the first of an intent leaves the rows or moves one. -/
theorem raisedIdle_reconciled {α : Type} (db : Db) (result : Except Fault α) (next : α → Reconciler × Db)
    (h : ∀ a, result = .ok a → Reconciled db (next a).2) : Reconciled db (raisedIdle db result next).2 := by
  cases result with
  | ok a => exact h a rfl
  | error e => exact Reconciled.refl db

theorem checked_reconciled (db : Db) (id : UUID) (a : ControlIntent) (checkedAt : Option ℤ)
    (ha : db.intents.get id = some a) (hs : a.status.isOpen = true) :
    Reconciled db (db.putIntent id { a with checkedAt := checkedAt }) :=
  ⟨⟨_, _, _, _, rfl⟩, Or.inr ⟨id, a, _, ha, rfl, .checked checkedAt hs rfl rfl⟩⟩

theorem turn_reconciled (c : Commands) (db : Db) (now : ℤ) (newId : UUID) (r : Reconciler) :
    Reconciled db (r.turn c db now newId).2 := by
  cases r with
  | idle => exact Reconciled.refl db
  | scanning ids =>
    cases ids with
    | nil => exact Reconciled.refl db
    | cons id ids =>
      simp only [Reconciler.turn]
      split
      · exact Reconciled.refl db
      · next a ha =>
        split
        · next hs =>
          exact raisedIdle_reconciled db _ _ fun db' h => enqueueIntent_reconciled c db db' now id a newId ha hs h
        · next hs => exact checked_reconciled db id a _ ha (by rw [hs]; rfl)
        · next hs => exact checked_reconciled db id a _ ha (by rw [hs]; rfl)
        · exact Reconciled.refl db
  | observed id action runId ids => exact raisedIdle_reconciled db _ _ fun _ _ => Reconciled.refl db
  | commanded id commandId ids =>
    cases commandId with
    | none => exact Reconciled.refl db
    | some commandId => exact raisedIdle_reconciled db _ _ fun _ _ => Reconciled.refl db
  | settling id ids =>
    refine raisedIdle_reconciled db _ _ ?_
    rintro ⟨moved, db'⟩ h
    exact settleIntent_reconciled c db db' now id moved h
  | refusing id refusal =>
    exact raisedIdle_reconciled db _ _ fun db' h => recordRefusal_reconciled db db' now id refusal h

end ParallelForge.EpicRun
