import ParallelForge.EpicRun.DispatchOnce

/-!
# Control of an execution over whole runs

A requested control has an intent that is still open. A reached one, paused or
cancelled, has every attempt of the execution among its settled participants: a
child that comes in later takes the control back to blocked.
-/

namespace ParallelForge.EpicRun
open Base Brainstorm Budget Epic Run

/-- The states a control request ends in that keep children from being launched. -/
def ControlState.isReached : ControlState → Bool
  | .paused | .cancelled => true
  | _ => false

theorem Control.Free.not_requested {c : Control} (h : c.Free) : c.state.isRequested = false := by
  rcases h with h | h | h
  · rw [h]
    rfl
  · rw [h]
    rfl
  · rw [h]
    rfl

theorem Control.Free.not_reached {c : Control} (h : c.Free) : c.state.isReached = false := by
  rcases h with h | h | h
  · rw [h]
    rfl
  · rw [h]
    rfl
  · rw [h]
    rfl

theorem ControlAction.isRequested_settled (action : ControlAction) : action.settled.isRequested = false := by
  cases action with
  | pause => rfl
  | resume => rfl
  | cancel => rfl

theorem ControlAction.isReached_requested (action : ControlAction) : action.requested.isReached = false := by
  cases action with
  | pause => rfl
  | resume => rfl
  | cancel => rfl

/- A control that a request or its reconciler has brought where it is was there before. -/
theorem eased_origin {db db' : Db} (h : ControlsEased db db') (e : UUID) (c' : Control)
    (hc : db'.controls.get e = some c') (hs : c'.state.isRequested = true ∨ c'.state.isReached = true) :
    ∃ c, db.controls.get e = some c ∧ c'.version = c.version ∧ c'.state = c.state := by
  have hfree : ¬c'.Free := by
    intro hf
    rcases hs with hs | hs
    · rw [hf.not_requested] at hs
      cases hs
    · rw [hf.not_reached] at hs
      cases hs
  rcases h.back e c' hc with ⟨-, hf⟩ | ⟨c, hold, -, -, ⟨hversion, hstate⟩ | hf⟩
  · exact absurd hf hfree
  · exact ⟨c, hold, hversion, hstate⟩
  · exact absurd hf hfree

/-- A settled participant of the control's version stands for the attempt. -/
def Participates (db : Db) (e : UUID) (version : ℕ) (a : Attempt) : Prop :=
  ∃ id i, db.intents.get id = some i ∧ i.executionId = e ∧ i.controlVersion = version ∧ i.runId = a.runId ∧
    i.status.isSettled = true

/-- What every run keeps of the controls and their intents. -/
structure Ruled (db : Db) : Prop where
  bounded : ∀ id i, db.intents.get id = some i →
    ∃ c, db.controls.get i.executionId = some c ∧ i.controlVersion ≤ c.version
  unrefused : ∀ id i c, db.intents.get id = some i → db.controls.get i.executionId = some c →
    i.controlVersion = c.version → c.state.isRequested = true → i.status ≠ .refused ∧ i.status ≠ .superseded
  pending : ∀ e c, db.controls.get e = some c → c.state.isRequested = true →
    ∃ id i, db.intents.get id = some i ∧ i.executionId = e ∧ i.controlVersion = c.version ∧ i.status.isOpen = true
  participants : ∀ e c, db.controls.get e = some c → c.state.isReached = true →
    ∀ x a, db.attempts.get x = some a → a.executionId = e → Participates db e c.version a

theorem ruled_init (env : Surroundings) : Ruled (Db.init env) where
  bounded id i h := by cases h
  unrefused id i c h := by cases h
  pending e c h := by cases h
  participants e c h := by cases h

/- Attempts are added to executions whose control is not reached. -/
theorem ruled_of_eased {db db' : Db} (h : Ruled db) (hc : ControlsEased db db') (hi : db'.intents = db.intents)
    (ha : ∀ e c, db'.controls.get e = some c → c.state.isReached = true → ∀ x a, db'.attempts.get x = some a →
      a.executionId = e → db.attempts.get x = some a) : Ruled db' := by
  refine ⟨?_, ?_, ?_, ?_⟩
  · intro id i hget
    rw [hi] at hget
    obtain ⟨c, hold, hle⟩ := h.bounded id i hget
    obtain ⟨c', hnew, -, hversion, -⟩ := hc.forth _ c hold
    exact ⟨c', hnew, hle.trans hversion⟩
  · intro id i c' hget hnew hversion hs
    rw [hi] at hget
    obtain ⟨c, hold, hv, hstate⟩ := eased_origin hc _ c' hnew (Or.inl hs)
    exact h.unrefused id i c hget hold (hversion.trans hv) (hstate ▸ hs)
  · intro e c' hnew hs
    obtain ⟨c, hold, hv, hstate⟩ := eased_origin hc e c' hnew (Or.inl hs)
    obtain ⟨id, i, hget, hexec, hversion, hopen⟩ := h.pending e c hold (hstate ▸ hs)
    exact ⟨id, i, hi ▸ hget, hexec, hversion.trans hv.symm, hopen⟩
  · intro e c' hnew hs x a hx hexec
    obtain ⟨c, hold, hv, hstate⟩ := eased_origin hc e c' hnew (Or.inr hs)
    obtain ⟨id, i, hget, hrest⟩ := h.participants e c hold (hstate ▸ hs) x a (ha e c' hnew hs x a hx hexec) hexec
    exact ⟨id, i, hi ▸ hget, hv ▸ hrest⟩

theorem Created.ruled {db db' : Db} {now : ℤ} {actor : Actor} {epicId : UUID} {key : Str}
    {request : LaunchRequest} {token : Option UUID} {id : UUID} {a : Attempt}
    (h : Created db db' now actor epicId key request token id a) (hr : Ruled db) : Ruled db' := by
  refine ruled_of_eased hr h.controls h.intents ?_
  intro e c hc hs x b hx hexec
  rw [h.attempts, Table.get_put] at hx
  split at hx
  · cases hx
    subst hexec
    obtain ⟨hpaused, hcancelled⟩ := h.late c hc
    cases hstate : c.state <;> simp_all [ControlState.isReached]
  · exact hx

/- An attempt of the execution belongs to the epic of its control. -/
theorem epic_of_control {db : Db} (howned : Owned db)
    (hg : ∀ e c, db.controls.get e = some c → ∃ x, db.executions.get e = some x ∧ x.epicId = c.epicId) {e : UUID}
    {c : Control} (hc : db.controls.get e = some c) {x : UUID} {a : Attempt} (hx : db.attempts.get x = some a)
    (he : a.executionId = e) : a.epicId = c.epicId := by
  subst he
  obtain ⟨execution, hget, hepic⟩ := howned x a hx
  obtain ⟨execution', hget', hepic'⟩ := hg _ c hc
  rw [hget] at hget'
  cases hget'
  exact hepic.symm.trans hepic'

theorem IntentStatus.not_settled_of_open {status : IntentStatus} (h : status.isOpen = true) :
    status.isSettled = false := by
  cases status <;> first | rfl | cases h

theorem IntentStatus.open_of_not_settled {status : IntentStatus} (h : status.isSettled = false)
    (hr : status ≠ .refused) (hs : status ≠ .superseded) : status.isOpen = true := by
  cases status <;> first | rfl | exact absurd rfl hr | exact absurd rfl hs | cases h

theorem Standing.status_unrefused (s : Standing) : s.status ≠ .refused ∧ s.status ≠ .superseded := by
  cases s <;> decide

theorem Standing.isSettled_status (s : Standing) (h : s.isPending = false) : s.status.isSettled = true := by
  cases s <;> first | rfl | cases h

/-! ### A request -/

/- The intents of the request's version are its own. -/
theorem Requested.intent_cases {db db' : Db} {actorId epicId executionId : UUID} {key : Str} {request : ControlRequest}
    {response : ControlReceipt} {control control' : Control}
    (h : Requested db db' actorId epicId executionId key request response control control') (hr : Ruled db) (id : UUID)
    (i : ControlIntent) (hi : db'.intents.get id = some i) :
    (db.intents.get id = some i ∧ (i.executionId = executionId → i.controlVersion < control'.version)) ∨
      (i.executionId = executionId ∧ i.controlVersion = control'.version ∧ ∃ s : Standing, i.status = s.status) := by
  rcases h.added id i hi with hold | ⟨he, hv, -, -, hs⟩
  · refine Or.inl ⟨hold, fun he => ?_⟩
    obtain ⟨c, hc, hle⟩ := hr.bounded id i hold
    rw [he, h.found] at hc
    cases hc
    have := h.next.2
    omega
  · exact Or.inr ⟨he, hv, hs⟩

theorem Requested.control_cases {db db' : Db} {actorId epicId executionId : UUID} {key : Str} {request : ControlRequest}
    {response : ControlReceipt} {control control' : Control}
    (h : Requested db db' actorId epicId executionId key request response control control') (e : UUID) :
    (e = executionId ∧ db'.controls.get e = some control') ∨
      (e ≠ executionId ∧ db'.controls.get e = db.controls.get e) := by
  obtain ⟨holds, intents, hrows⟩ := h.rows
  rw [hrows]
  by_cases he : e = executionId
  · exact Or.inl ⟨he, he ▸ Table.get_put_self _ _ _⟩
  · exact Or.inr ⟨he, Table.get_put_ne _ _ he⟩

theorem Requested.attempts {db db' : Db} {actorId epicId executionId : UUID} {key : Str} {request : ControlRequest}
    {response : ControlReceipt} {control control' : Control}
    (h : Requested db db' actorId epicId executionId key request response control control') :
    db'.attempts = db.attempts ∧ db'.runs = db.runs ∧ db'.env = db.env := by
  obtain ⟨holds, intents, hrows⟩ := h.rows
  rw [hrows]
  exact ⟨rfl, rfl, rfl⟩

/- The control a request reaches at once: every child was where it should be. -/
theorem Requested.reached {db db' : Db} {actorId epicId executionId : UUID} {key : Str} {request : ControlRequest}
    {response : ControlReceipt} {control control' : Control}
    (h : Requested db db' actorId epicId executionId key request response control control')
    (hs : control'.state.isReached = true) :
    control'.state = request.action.settled ∧ ∀ x a, db.attempts.get x = some a → a.epicId = epicId →
      a.executionId = executionId → ∃ run, db.runs.get a.runId = some run ∧
        (standing db request.action a.runId run).isPending = false := by
  rcases h.state with ⟨hstate, -⟩ | hsettled
  · rw [hstate, ControlAction.isReached_requested] at hs
    cases hs
  · exact hsettled

theorem Requested.ruled {db db' : Db} {actorId epicId executionId : UUID} {key : Str} {request : ControlRequest}
    {response : ControlReceipt} {control control' : Control}
    (h : Requested db db' actorId epicId executionId key request response control control') (hr : Ruled db)
    (howned : Owned db)
    (hg : ∀ e c, db.controls.get e = some c → ∃ x, db.executions.get e = some x ∧ x.epicId = c.epicId) : Ruled db' := by
  refine ⟨?_, ?_, ?_, ?_⟩
  · intro id i hi
    rcases h.intent_cases hr id i hi with ⟨hold, hlt⟩ | ⟨he, hv, -⟩
    · rcases h.control_cases i.executionId with ⟨he, hc⟩ | ⟨-, hsame⟩
      · exact ⟨control', hc, (hlt he).le⟩
      · rw [hsame]
        exact hr.bounded id i hold
    · rcases h.control_cases i.executionId with ⟨-, hc⟩ | ⟨hne, -⟩
      · exact ⟨control', hc, hv.le⟩
      · exact absurd he hne
  · intro id i c hi hc hv hs
    rcases h.intent_cases hr id i hi with ⟨hold, hlt⟩ | ⟨-, -, s, hstatus⟩
    · rcases h.control_cases i.executionId with ⟨he, hnew⟩ | ⟨-, hsame⟩
      · rw [hnew] at hc
        cases hc
        have := hlt he
        omega
      · exact hr.unrefused id i c hold (hsame ▸ hc) hv hs
    · rw [hstatus]
      exact s.status_unrefused
  · intro e c hc hs
    rcases h.control_cases e with ⟨he, hnew⟩ | ⟨-, hsame⟩
    · rw [hnew] at hc
      cases hc
      rcases h.state with ⟨-, id, i, hi, hexec, hv, hopen⟩ | ⟨hstate, -⟩
      · exact ⟨id, i, hi, hexec.trans he.symm, hv, hopen⟩
      · rw [hstate, ControlAction.isRequested_settled] at hs
        cases hs
    · obtain ⟨id, i, hi, hrest⟩ := hr.pending e c (hsame ▸ hc) hs
      exact ⟨id, i, h.kept id i hi, hrest⟩
  · intro e c hc hs x a hx hexec
    rw [h.attempts.1] at hx
    rcases h.control_cases e with ⟨he, hnew⟩ | ⟨-, hsame⟩
    · rw [hnew] at hc
      cases hc
      have hepic := (epic_of_control howned hg h.found hx (hexec.trans he)).trans h.epic
      obtain ⟨id, i, run, hi, hie, hiv, hir, hrun, hstatus⟩ := h.participants x a hx hepic (hexec.trans he)
      obtain ⟨run', hrun', hpending⟩ := (h.reached hs).2 x a hx hepic (hexec.trans he)
      rw [hrun] at hrun'
      cases hrun'
      refine ⟨id, i, hi, hie.trans he.symm, hiv, hir, ?_⟩
      rw [hstatus]
      exact Standing.isSettled_status _ hpending
    · obtain ⟨id, i, hi, hrest⟩ := hr.participants e c (hsame ▸ hc) hs x a hx hexec
      exact ⟨id, i, h.kept id i hi, hrest⟩

/-! ### A reconciler -/

theorem Moved.same {db db' : Db} {id : UUID} {a b : ControlIntent} (h : Moved db db' id a b) :
    b.executionId = a.executionId ∧ b.controlVersion = a.controlVersion ∧ b.runId = a.runId ∧ b.action = a.action := by
  cases h <;> exact ⟨rfl, rfl, rfl, rfl⟩

theorem Moved.isOpen {db db' : Db} {id : UUID} {a b : ControlIntent} (h : Moved db db' id a b) :
    a.status.isOpen = true := by
  cases h with
  | checked checkedAt hs hc hm => exact hs
  | superseded control hs hget hne hc hm => exact hs
  | enqueued control checkedAt commandId hs hget hv hc hm =>
    rw [hs]
    rfl
  | refused control checkedAt refusal hs hget hc hm =>
    rcases hs with hs | hs <;> · rw [hs]; rfl
  | settled control status hs hsettled hget hv hc hm =>
    rcases hs with hs | hs <;> · rw [hs]; rfl

/-- What a move leaves the control at. -/
inductive ControlMoved (db db' : Db) (a : ControlIntent) (e : UUID) (c' : Control) : Prop
  | same (hget : db.controls.get e = some c')
  | blocked (control : Control) (he : e = a.executionId) (hget : db.controls.get e = some control)
      (hepic : c'.epicId = control.epicId) (hversion : c'.version = control.version) (hs : c'.state = .blocked)
  | reached (control : Control) (he : e = a.executionId) (hget : db.controls.get e = some control)
      (hepic : c'.epicId = control.epicId) (hversion : c'.version = control.version)
      (hv : control.version = a.controlVersion) (hs : c'.state = a.action.settled)
      (hall : ∀ x b, db.attempts.get x = some b → b.epicId = control.epicId → b.executionId = a.executionId →
        Controlled db db' a.executionId a.controlVersion a.action b)

theorem SettledControl.controlMoved {db db' : Db} {id : UUID} {a : ControlIntent} {control : Control}
    (h : SettledControl db db' id a control) (hget : db.controls.get a.executionId = some control)
    (hv : control.version = a.controlVersion) (e : UUID) (c' : Control) (hc' : db'.controls.get e = some c') :
    ControlMoved db db' a e c' := by
  cases h with
  | pending j other hne hj he hversion hsettled hc => exact .same (hc ▸ hc')
  | blocked new hc hepic hversion hs =>
    rw [hc, Table.get_put] at hc'
    split at hc'
    · next he =>
      cases hc'
      exact .blocked control he (he ▸ hget) hepic hversion hs
    · exact .same hc'
  | reached new hc hepic hversion hs hall =>
    rw [hc, Table.get_put] at hc'
    split at hc'
    · next he =>
      cases hc'
      exact .reached control he (he ▸ hget) hepic hversion hv hs hall
    · exact .same hc'

theorem Moved.controlMoved {db db' : Db} {id : UUID} {a b : ControlIntent} (h : Moved db db' id a b) (e : UUID)
    (c' : Control) (hc' : db'.controls.get e = some c') : ControlMoved db db' a e c' := by
  cases h with
  | checked checkedAt hs hc hm => exact .same (hc ▸ hc')
  | superseded control hs hget hne hc hm => exact .same (hc ▸ hc')
  | enqueued control checkedAt commandId hs hget hv hc hm => exact .same (hc ▸ hc')
  | refused control checkedAt refusal hs hget hc hm =>
    rcases hc with ⟨-, hc⟩ | ⟨-, new, hc, hepic, hversion, hblocked⟩
    · exact .same (hc ▸ hc')
    · rw [hc, Table.get_put] at hc'
      split at hc'
      · next he =>
        cases hc'
        exact .blocked control he (he ▸ hget) hepic hversion hblocked
      · exact .same hc'
  | settled control status hs hsettled hget hv hc hm => exact hc.controlMoved hget hv e c' hc'

/- A requested control is no reconciler's work. -/
theorem ControlMoved.of_requested {db db' : Db} {a : ControlIntent} {e : UUID} {c' : Control}
    (h : ControlMoved db db' a e c') (hs : c'.state.isRequested = true) : db.controls.get e = some c' := by
  cases h with
  | same hget => exact hget
  | blocked control he hget hepic hversion hstate =>
    rw [hstate] at hs
    cases hs
  | reached control he hget hepic hversion hv hstate hall =>
    rw [hstate, ControlAction.isRequested_settled] at hs
    cases hs

/- The intents of a move: the moved one, and the others as they were. -/
theorem moved_cases {db db' : Db} {id : UUID} {b : ControlIntent} (hput : db'.intents = db.intents.put id b) (j : UUID)
    (i : ControlIntent) (hi : db'.intents.get j = some i) : (j = id ∧ i = b) ∨ (j ≠ id ∧ db.intents.get j = some i) := by
  rw [hput, Table.get_put] at hi
  split at hi
  · next hj =>
    cases hi
    exact Or.inl ⟨hj, rfl⟩
  · next hj => exact Or.inr ⟨hj, hi⟩

theorem Moved.version {db db' : Db} {id : UUID} {a b : ControlIntent} (h : Moved db db' id a b) (e : UUID) (c : Control)
    (hc : db.controls.get e = some c) : ∃ c', db'.controls.get e = some c' ∧ c'.version = c.version := by
  rcases h.control with hsame | ⟨control, new, hget, hnew, -, hversion⟩
  · exact ⟨c, hsame ▸ hc, rfl⟩
  · rw [hnew, Table.get_put]
    split
    · next he =>
      rw [he, hget] at hc
      cases hc
      exact ⟨new, rfl, hversion⟩
    · exact ⟨c, hc, rfl⟩

theorem Moved.bounded {db db' : Db} {id : UUID} {a b : ControlIntent} (h : Moved db db' id a b)
    (ha : db.intents.get id = some a) (hput : db'.intents = db.intents.put id b) (hr : Ruled db) (j : UUID)
    (i : ControlIntent) (hi : db'.intents.get j = some i) :
    ∃ c, db'.controls.get i.executionId = some c ∧ i.controlVersion ≤ c.version := by
  have hold : ∃ c, db.controls.get i.executionId = some c ∧ i.controlVersion ≤ c.version := by
    rcases moved_cases hput j i hi with ⟨rfl, rfl⟩ | ⟨-, hj⟩
    · rw [h.same.1, h.same.2.1]
      exact hr.bounded j a ha
    · exact hr.bounded j i hj
  obtain ⟨c, hc, hle⟩ := hold
  obtain ⟨c', hc', hversion⟩ := h.version _ c hc
  exact ⟨c', hc', hle.trans hversion.ge⟩

theorem Moved.unrefused {db db' : Db} {id : UUID} {a b : ControlIntent} (h : Moved db db' id a b)
    (ha : db.intents.get id = some a) (hr : Ruled db) (c : Control) (hc : db'.controls.get a.executionId = some c)
    (hv : a.controlVersion = c.version) (hs : c.state.isRequested = true) :
    b.status ≠ .refused ∧ b.status ≠ .superseded := by
  have hold := (h.controlMoved _ c hc).of_requested hs
  cases h with
  | checked checkedAt hopen hcontrols hm => exact hr.unrefused id a c ha hold hv hs
  | superseded control hopen hget hne hcontrols hm =>
    rw [hold] at hget
    cases hget
    exact absurd hv.symm hne
  | enqueued control checkedAt commandId hopen hget hversion hcontrols hm => exact ⟨by simp, by simp⟩
  | refused control checkedAt refusal hopen hget hcontrols hm =>
    rw [hold] at hget
    cases hget
    rcases hcontrols with ⟨hne, -⟩ | ⟨-, new, hnew, -, -, hblocked⟩
    · exact absurd hv.symm hne
    · rw [hnew, Table.get_put_self] at hc
      cases hc
      rw [hblocked] at hs
      cases hs
  | settled control status hopen hsettled hget hversion hcontrols hm =>
    constructor
    · intro heq
      rw [show status = IntentStatus.refused from heq] at hsettled
      cases hsettled
    · intro heq
      rw [show status = IntentStatus.superseded from heq] at hsettled
      cases hsettled

/- The moved intent of a requested control is still open, or another one is. -/
theorem Moved.pending {db db' : Db} {id : UUID} {a b : ControlIntent} (h : Moved db db' id a b)
    (ha : db.intents.get id = some a) (hput : db'.intents = db.intents.put id b) (hr : Ruled db) (c : Control)
    (hc : db'.controls.get a.executionId = some c) (hv : a.controlVersion = c.version)
    (hs : c.state.isRequested = true) : ∃ j i, db'.intents.get j = some i ∧ i.executionId = a.executionId ∧
      i.controlVersion = c.version ∧ i.status.isOpen = true := by
  have hold := (h.controlMoved _ c hc).of_requested hs
  have hself : b.status.isOpen = true → ∃ j i, db'.intents.get j = some i ∧ i.executionId = a.executionId ∧
      i.controlVersion = c.version ∧ i.status.isOpen = true := by
    intro hopen
    exact ⟨id, b, by rw [hput, Table.get_put_self], h.same.1, h.same.2.1.trans hv, hopen⟩
  have hunrefused := h.unrefused ha hr c hc hv hs
  cases hstatus : b.status.isSettled with
  | false => exact hself (IntentStatus.open_of_not_settled hstatus hunrefused.1 hunrefused.2)
  | true =>
    cases h with
    | checked checkedAt hopen hcontrols hm => exact hself hopen
    | superseded control hopen hget hne hcontrols hm => exact absurd rfl hunrefused.2
    | enqueued control checkedAt commandId hopen hget hversion hcontrols hm => exact hself rfl
    | refused control checkedAt refusal hopen hget hcontrols hm => exact absurd rfl hunrefused.1
    | settled control status hopen hsettled hget hversion hcontrols hm =>
      cases hcontrols with
      | pending j other hne hj he hversion' hunsettled hsame =>
        have hother := hr.unrefused j other c hj (he ▸ hold) (hversion'.trans hv) hs
        exact ⟨j, other, by rw [hput, Table.get_put_ne _ _ hne, hj], he, hversion'.trans hv,
          IntentStatus.open_of_not_settled hunsettled hother.1 hother.2⟩
      | blocked new hnew hepic hversion' hstate =>
        rw [hnew, Table.get_put_self] at hc
        cases hc
        rw [hstate] at hs
        cases hs
      | reached new hnew hepic hversion' hstate hall =>
        rw [hnew, Table.get_put_self] at hc
        cases hc
        rw [hstate, ControlAction.isRequested_settled] at hs
        cases hs

theorem Reconciled.attempts {db db' : Db} (h : Reconciled db db') :
    db'.attempts = db.attempts ∧ db'.runs = db.runs ∧ db'.env = db.env := by
  obtain ⟨holds, intents, controls, commands, hrows⟩ := h.rows
  rw [hrows]
  exact ⟨rfl, rfl, rfl⟩

theorem Moved.ruled {db db' : Db} {id : UUID} {a b : ControlIntent} (h : Moved db db' id a b)
    (ha : db.intents.get id = some a) (hput : db'.intents = db.intents.put id b)
    (hattempts : db'.attempts = db.attempts) (hr : Ruled db) (howned : Owned db)
    (hg : ∀ e c, db.controls.get e = some c → ∃ x, db.executions.get e = some x ∧ x.epicId = c.epicId) : Ruled db' := by
  have hothers : ∀ j i, j ≠ id → db.intents.get j = some i → db'.intents.get j = some i := by
    intro j i hj hi
    rw [hput, Table.get_put_ne _ _ hj, hi]
  refine ⟨h.bounded ha hput hr, ?_, ?_, ?_⟩
  · intro j i c hi hc hv hs
    rcases moved_cases hput j i hi with ⟨rfl, rfl⟩ | ⟨-, hj⟩
    · rw [h.same.1] at hc
      rw [h.same.2.1] at hv
      exact h.unrefused ha hr c hc hv hs
    · exact hr.unrefused j i c hj ((h.controlMoved _ c hc).of_requested hs) hv hs
  · intro e c hc hs
    obtain ⟨j, i, hi, he, hv, hopen⟩ := hr.pending e c ((h.controlMoved _ c hc).of_requested hs) hs
    by_cases hj : j = id
    · rw [hj, ha] at hi
      cases hi
      subst he
      exact h.pending ha hput hr c hc hv hs
    · exact ⟨j, i, hothers j i hj hi, he, hv, hopen⟩
  · intro e c hc hs x b' hx hexec
    rw [hattempts] at hx
    cases h.controlMoved e c hc with
    | same hget =>
      obtain ⟨j, i, hi, he, hv, hrun, hsettled⟩ := hr.participants e c hget hs x b' hx hexec
      refine ⟨j, i, hothers j i ?_ hi, he, hv, hrun, hsettled⟩
      intro hj
      rw [hj, ha] at hi
      cases hi
      rw [IntentStatus.not_settled_of_open h.isOpen] at hsettled
      cases hsettled
    | blocked control he hget hepic hversion hstate =>
      rw [hstate] at hs
      cases hs
    | reached control he hget hepic hversion hv hstate hall =>
      have hb := epic_of_control howned hg hget hx hexec
      obtain ⟨j, i, run, hi, hie, hiv, hir, hsettled, -⟩ := hall x b' hx hb (hexec.trans he)
      exact ⟨j, i, hi, hie.trans he.symm, hiv.trans (hv.symm.trans hversion.symm), hir, hsettled⟩

theorem Reconciled.ruled {db db' : Db} (h : Reconciled db db') (hr : Ruled db) (howned : Owned db)
    (hg : ∀ e c, db.controls.get e = some c → ∃ x, db.executions.get e = some x ∧ x.epicId = c.epicId) : Ruled db' := by
  rcases h.moves with ⟨hc, hi, -⟩ | ⟨id, a, b, ha, hput, hm⟩
  · refine ruled_of_eased hr ?_ hi ?_
    · unfold ControlsEased
      rw [hc]
      exact Table.Evolves.refl Control.Eased.refl db.controls
    · intro e c hget hs x a hx hexec
      rwa [h.attempts.1] at hx
  · exact hm.ruled ha hput h.attempts.1 hr howned hg

/-! ### Every run -/

theorem step_ruled (cfg : Config) (s : System) (i : Input) (hs : Placed s) (hr : Ruled s.db) :
    Ruled (step cfg s i).db := by
  rcases step_kinds cfg s i hs with (he | ⟨_, _, _, _, _, _, _, _, hq⟩ | hq) | ⟨call, id, a, -, hc, -⟩
  · refine ruled_of_eased hr he.controlled he.intents ?_
    intro e c hget hstate x a hx hexec
    rwa [he.attempts] at hx
  · exact hq.ruled hr hs.owned hs.governs
  · exact hq.ruled hr hs.owned hs.governs
  · exact hc.ruled hr

theorem run_ruled (cfg : Config) (env : Surroundings) (now : ℤ) (l : List Input) :
    Ruled (run (step cfg) (System.init env now) l).db :=
  (run_invariant (step cfg) (fun s => Placed s ∧ Ruled s.db)
    (fun s i h => ⟨step_placed cfg s i h.1, step_ruled cfg s i h.1 h.2⟩) _ l
    ⟨placed_init env now, ruled_init env⟩).2

end ParallelForge.EpicRun
