import ParallelForge.EpicRun.ControlLaw
import ParallelForge.EpicRun.AdmissionFence

/-!
# What the owner is told of an execution's control

A control that a transaction brings to paused or cancelled tells the truth about every
child, late ones included. Of the requests that name one version of a control, one is
accepted; its answer is the same ever after. An intent is enqueued once, while its
version is the control's, and a closed one is never touched again.
-/

namespace ParallelForge.EpicRun
open Base Brainstorm Budget Epic Run

/-! ### Truth -/

/-- The attempt's child has ended or is paused, and nothing of it is running. -/
def Halted (db : Db) (state : ControlState) (a : Attempt) : Prop :=
  ∃ run, db.runs.get a.runId = some run ∧
    (isTerminalState run.state = true ∨ (state = .paused ∧ run.state = .paused)) ∧ db.isQuiescent a.runId = true

theorem standing_halted (db : Db) (action : ControlAction) (a : Attempt) (run : RunSnapshot)
    (hrun : db.runs.get a.runId = some run) (hs : action.settled.isReached = true)
    (hp : (standing db action a.runId run).isPending = false) : Halted db action.settled a := by
  unfold standing at hp
  split at hp
  · next hended =>
    split at hp
    · next hquiet => exact ⟨run, hrun, Or.inl hended, hquiet⟩
    · cases hp
  · cases action with
    | resume => cases hs
    | cancel => cases hp
    | pause =>
      simp only at hp
      split at hp
      · next hpaused =>
        split at hp
        · next hquiet => exact ⟨run, hrun, Or.inr ⟨rfl, hpaused⟩, hquiet⟩
        · cases hp
      · cases hp

theorem controlled_halted (db db' : Db) (e : UUID) (version : ℕ) (action : ControlAction) (a : Attempt)
    (hs : action.settled.isReached = true) (h : Controlled db db' e version action a) : Halted db action.settled a := by
  obtain ⟨id, i, run, -, -, -, -, -, hrun, hexpected, hquiet⟩ := h
  have hresume : action ≠ .resume := by
    intro hr
    rw [hr] at hs
    cases hs
  refine ⟨run, hrun, ?_, hquiet (Or.inr hresume)⟩
  unfold expectedState at hexpected
  split at hexpected
  · exact Or.inl hexpected
  · cases action with
    | resume => exact absurd rfl hresume
    | pause => exact Or.inr ⟨rfl, beq_iff_eq.mp hexpected⟩
    | cancel =>
      refine Or.inl ?_
      rw [beq_iff_eq.mp hexpected]
      rfl

theorem Halted.of_same {db db' : Db} {state : ControlState} {a : Attempt} (h : Halted db state a)
    (hr : db'.runs = db.runs) (he : db'.env = db.env) : Halted db' state a := by
  obtain ⟨run, hrun, hstate, hquiet⟩ := h
  refine ⟨run, hr ▸ hrun, hstate, ?_⟩
  unfold Db.isQuiescent at hquiet ⊢
  rw [he]
  exact hquiet

/-- The transaction has brought the control to its state under its version. -/
def Brought (db db' : Db) (e : UUID) (c' : Control) : Prop :=
  db'.controls.get e = some c' ∧ ∀ c, db.controls.get e = some c → c'.version = c.version → c'.state ≠ c.state

theorem step_truthful (cfg : Config) (s : System) (i : Input) (hs : Placed s) (e : UUID) (c' : Control)
    (h : Brought s.db (step cfg s i).db e c') (hreached : c'.state.isReached = true) (x : UUID) (a : Attempt)
    (hx : (step cfg s i).db.attempts.get x = some a) (ha : a.executionId = e) :
    Halted (step cfg s i).db c'.state a := by
  have heased : ¬ControlsEased s.db (step cfg s i).db := by
    intro heased
    obtain ⟨c, hold, hversion, hstate⟩ := eased_origin heased e c' h.1 (Or.inr hreached)
    exact h.2 c hold hversion hstate
  rcases step_kinds cfg s i hs with
    (hq | ⟨_, _, _, _, _, _, control, control', hq⟩ | hq) | ⟨call, id, b, -, hc, -⟩
  · exact absurd hq.controlled heased
  · obtain ⟨hattempts, hruns, henv⟩ := hq.attempts
    rw [hattempts] at hx
    refine Halted.of_same ?_ hruns henv
    rcases hq.control_cases e with ⟨he, hnew⟩ | ⟨-, hsame⟩
    · have heq : c' = control' := Option.some.inj (h.1.symm.trans hnew)
      rw [heq] at hreached ⊢
      obtain ⟨hstate, hall⟩ := hq.reached hreached
      have hepic := (epic_of_control hs.owned hs.governs hq.found hx (ha.trans he)).trans hq.epic
      obtain ⟨run, hrun, hpending⟩ := hall x a hx hepic (ha.trans he)
      rw [hstate] at hreached ⊢
      exact standing_halted _ _ _ run hrun hreached hpending
    · exact absurd rfl (h.2 c' (hsame ▸ h.1) rfl)
  · obtain ⟨hattempts, hruns, henv⟩ := hq.attempts
    rw [hattempts] at hx
    refine Halted.of_same ?_ hruns henv
    rcases hq.moves with ⟨hc, -, -⟩ | ⟨id, b, b', -, -, hm⟩
    · exact absurd rfl (h.2 c' (hc ▸ h.1) rfl)
    · cases hm.controlMoved e c' h.1 with
      | same hget => exact absurd rfl (h.2 c' hget rfl)
      | blocked control he hget hepic hversion hstate =>
        rw [hstate] at hreached
        cases hreached
      | reached control he hget hepic hversion hv hstate hall =>
        rw [hstate] at hreached ⊢
        have hb := epic_of_control hs.owned hs.governs hget hx ha
        exact controlled_halted _ _ _ _ _ _ hreached (hall x a hx hb (ha.trans he))
  · exact absurd hc.controls heased

/-! ### A run -/

def sampleControlOutside : ControlOutside := ⟨fun runId => runId + 100, fun _ => true⟩

/-- The owner starts the epic and launches its item, and the child begins. -/
def sampleStart : List Input :=
  [.start ⟨7, 8⟩ 1 (codes "start") ⟨5, none, none, none, none, false, none⟩ 10, sampleLaunch,
    .child 32 (.transition .planning)]

def samplePauseRequest : ControlRequest := ⟨1, .pause⟩

def samplePause : Input := .request ⟨7, 8⟩ 1 10 (codes "pause") samplePauseRequest sampleControlOutside

/-- The command of the child's intent, once its run has paused. -/
def sampleCommand : Command.CommandRow where
  id := 200
  runId := 32
  commandType := "pause"
  idempotencyKey := "run-command:commands:7:32:epic-control:132"
  payload := "\x7b\x7d"
  expectedRunVersion := 1
  actorId := some 7
  payloadSchemaVersion := 1
  status := .completed
  attempt := 1
  availableAt := 0
  leaseOwner := none
  leaseExpiresAt := none
  createdAt := 0
  completedAt := some 0
  errorSummary := none

/-- The pause is requested, its command is enqueued and completed, and the intent is observed. -/
def samplePaused : List Input :=
  sampleStart ++ [samplePause, .reconcile 0 200, .reconcile 0 200, .child 32 .pause,
    .commands (Table.empty.put 200 sampleCommand), .reconcile 0 201, .reconcile 0 201, .reconcile 0 201]

/-- A transaction of any run that brings a control to paused or cancelled finds every
child of the execution paused or ended (for cancelled: ended), and quiescent. -/
theorem control_truthful (cfg : Config) (env : Surroundings) (now : ℤ) (l : List Input) (i : Input) (e : UUID)
    (c' : Control)
    (h : Brought (run (step cfg) (System.init env now) l).db (run (step cfg) (System.init env now) (l ++ [i])).db e c')
    (hreached : c'.state.isReached = true) (x : UUID) (a : Attempt)
    (hx : (run (step cfg) (System.init env now) (l ++ [i])).db.attempts.get x = some a) (ha : a.executionId = e) :
    Halted (run (step cfg) (System.init env now) (l ++ [i])).db c'.state a := by
  have hstep : run (step cfg) (System.init env now) (l ++ [i]) =
      step cfg (run (step cfg) (System.init env now) l) i := List.foldl_append
  rw [hstep] at h hx ⊢
  exact step_truthful cfg _ i (run_placed cfg env now l) e c' h hreached x a hx ha

theorem control_truthful_sample :
    ∃ c' a, Brought (run (step sampleConfig) (System.init sampleSurroundings 0) samplePaused).db
        (run (step sampleConfig) (System.init sampleSurroundings 0) (samplePaused ++ [.reconcile 0 201])).db 10 c' ∧
      c'.state = .paused ∧
      Halted (run (step sampleConfig) (System.init sampleSurroundings 0) (samplePaused ++ [.reconcile 0 201])).db
        c'.state a := by
  obtain ⟨c', hc', hstate⟩ := Option.map_eq_some_iff.mp (by decide +kernel :
    ((run (step sampleConfig) (System.init sampleSurroundings 0)
      (samplePaused ++ [.reconcile 0 201])).db.controls.get 10).map (·.state) = some .paused)
  obtain ⟨c, hc, hbefore⟩ := Option.map_eq_some_iff.mp (by decide +kernel :
    ((run (step sampleConfig) (System.init sampleSurroundings 0) samplePaused).db.controls.get 10).map (·.state) =
      some .pauseRequested)
  obtain ⟨a, ha, hexec⟩ := Option.map_eq_some_iff.mp (by decide +kernel :
    ((run (step sampleConfig) (System.init sampleSurroundings 0)
      (samplePaused ++ [.reconcile 0 201])).db.attempts.get 30).map (·.executionId) = some 10)
  have hbrought : Brought (run (step sampleConfig) (System.init sampleSurroundings 0) samplePaused).db
      (run (step sampleConfig) (System.init sampleSurroundings 0) (samplePaused ++ [.reconcile 0 201])).db 10 c' := by
    refine ⟨hc', fun d hd _ => ?_⟩
    rw [hc] at hd
    cases hd
    rw [hstate, hbefore]
    decide
  exact ⟨c', a, hbrought, hstate, control_truthful _ _ _ _ _ 10 c' hbrought (by rw [hstate]; rfl) 30 a ha hexec⟩

/-- At the end of every run a paused or cancelled control has a settled participant, of
its own version, for every attempt of the execution; and a requested control has an
intent of its version that is still to be settled. -/
theorem control_covers (cfg : Config) (env : Surroundings) (now : ℤ) (l : List Input) (e : UUID) (c : Control)
    (hc : (run (step cfg) (System.init env now) l).db.controls.get e = some c) :
    (c.state.isReached = true → ∀ x a, (run (step cfg) (System.init env now) l).db.attempts.get x = some a →
      a.executionId = e → Participates (run (step cfg) (System.init env now) l).db e c.version a) ∧
    (c.state.isRequested = true → ∃ id i, (run (step cfg) (System.init env now) l).db.intents.get id = some i ∧
      i.executionId = e ∧ i.controlVersion = c.version ∧ i.status.isOpen = true) := by
  have hr := run_ruled cfg env now l
  exact ⟨hr.participants e c hc, hr.pending e c hc⟩

theorem control_covers_sample :
    ∃ (c : Control) (a : Attempt), c.state = .paused ∧
      Participates (run (step sampleConfig) (System.init sampleSurroundings 0)
        (samplePaused ++ [.reconcile 0 201])).db 10 c.version a := by
  obtain ⟨c, hc, hstate⟩ := Option.map_eq_some_iff.mp (by decide +kernel :
    ((run (step sampleConfig) (System.init sampleSurroundings 0)
      (samplePaused ++ [.reconcile 0 201])).db.controls.get 10).map (·.state) = some .paused)
  obtain ⟨a, ha, hexec⟩ := Option.map_eq_some_iff.mp (by decide +kernel :
    ((run (step sampleConfig) (System.init sampleSurroundings 0)
      (samplePaused ++ [.reconcile 0 201])).db.attempts.get 30).map (·.executionId) = some 10)
  exact ⟨c, a, hstate, (control_covers _ _ _ _ 10 c hc).1 (by rw [hstate]; rfl) 30 a ha hexec⟩

/-! ### Intents -/

/-- How an intent may stand later. Transactions are taken whole, one after another: of two
reconcilers that overlap, one that read the row before the other closed it would still write
`checkedAt` into the closed row, since that read takes no lock. -/
structure ControlIntent.Later (a b : ControlIntent) : Prop where
  same : ∃ commandId status refusal checkedAt, b = { a with
    commandId := commandId, status := status, refusal := refusal, checkedAt := checkedAt }
  command : ∀ c, a.commandId = some c → b.commandId = some c
  requested : b.status = .requested → a.status = .requested ∧ b.commandId = a.commandId
  enqueued : b.status = .enqueued → a.status = .requested ∨ a.status = .enqueued
  observing : b.status = .observing → a.status = .observing
  closed : a.status.isOpen = false → b = a

theorem ControlIntent.Later.refl (a : ControlIntent) : a.Later a where
  same := ⟨a.commandId, a.status, a.refusal, a.checkedAt, rfl⟩
  command _ h := h
  requested h := ⟨h, rfl⟩
  enqueued h := Or.inr h
  observing h := h
  closed _ := rfl

theorem ControlIntent.Later.trans {a b c : ControlIntent} (h : a.Later b) (k : b.Later c) : a.Later c where
  same := by
    obtain ⟨_, _, _, _, rfl⟩ := h.same
    exact k.same
  command i hi := k.command i (h.command i hi)
  requested hc := by
    obtain ⟨hb, hsame⟩ := k.requested hc
    obtain ⟨ha, hsame'⟩ := h.requested hb
    exact ⟨ha, hsame.trans hsame'⟩
  enqueued hc := by
    rcases k.enqueued hc with hb | hb
    · exact Or.inl (h.requested hb).1
    · exact h.enqueued hb
  observing hc := h.observing (k.observing hc)
  closed ha := by
    have hb := h.closed ha
    rw [← hb] at ha
    exact (k.closed ha).trans hb

/-- A requested intent has no command. -/
def Unsent (db : Db) : Prop :=
  ∀ id i, db.intents.get id = some i → i.status = .requested → i.commandId = none

theorem Moved.later {db db' : Db} {id : UUID} {a b : ControlIntent} (h : Moved db db' id a b)
    (hu : a.status = .requested → a.commandId = none) : a.Later b := by
  have hopen : a.status.isOpen = false → b = a := by
    intro hclosed
    rw [h.isOpen] at hclosed
    cases hclosed
  cases h with
  | checked checkedAt hs hc hm =>
    exact ⟨⟨_, _, _, checkedAt, rfl⟩, fun _ hc => hc, fun hs => ⟨hs, rfl⟩, Or.inr, fun hs => hs, hopen⟩
  | superseded control hs hget hne hc hm =>
    exact ⟨⟨_, .superseded, _, _, rfl⟩, fun _ hc => hc, nofun, nofun, nofun, hopen⟩
  | enqueued control checkedAt commandId hs hget hv hc hm =>
    refine ⟨⟨_, .enqueued, _, checkedAt, rfl⟩, ?_, nofun, fun _ => Or.inl hs, nofun, hopen⟩
    intro c hc
    rw [hu hs] at hc
    cases hc
  | refused control checkedAt refusal hs hget hc hm =>
    exact ⟨⟨_, .refused, refusal, checkedAt, rfl⟩, fun _ hc => hc, nofun, nofun, nofun, hopen⟩
  | settled control status hs hsettled hget hv hc hm =>
    have hne : ∀ s : IntentStatus, s.isOpen = true → status ≠ s := by
      intro s hs heq
      rw [heq, IntentStatus.not_settled_of_open hs] at hsettled
      cases hsettled
    exact ⟨⟨_, status, _, _, rfl⟩, fun _ hc => hc, fun h => absurd h (hne _ rfl), fun h => absurd h (hne _ rfl),
      fun h => absurd h (hne _ rfl), hopen⟩

/-- Intents move forward; a new one has no command. -/
abbrev IntentsEvolve (db db' : Db) : Prop :=
  Table.Evolves ControlIntent.Later (fun i => i.commandId = none) db.intents db'.intents

theorem Requested.intents {db db' : Db} {actorId epicId executionId : UUID} {key : Str} {request : ControlRequest}
    {response : ControlReceipt} {control control' : Control}
    (h : Requested db db' actorId epicId executionId key request response control control') : IntentsEvolve db db' := by
  intro id
  cases hold : db.intents.get id with
  | some a =>
    rw [h.kept id a hold]
    exact .changed a a (ControlIntent.Later.refl a)
  | none =>
    cases hnew : db'.intents.get id with
    | none => exact .absent
    | some b =>
      rcases h.added id b hnew with hget | ⟨-, -, -, hcommand, -⟩
      · rw [hold] at hget
        cases hget
      · exact .inserted b hcommand

theorem step_intents (cfg : Config) (s : System) (i : Input) (hs : Placed s) (hu : Unsent s.db) :
    IntentsEvolve s.db (step cfg s i).db := by
  have hsame : (step cfg s i).db.intents = s.db.intents → IntentsEvolve s.db (step cfg s i).db := by
    intro heq
    unfold IntentsEvolve
    rw [heq]
    exact Table.Evolves.refl ControlIntent.Later.refl s.db.intents
  rcases step_kinds cfg s i hs with (hq | ⟨_, _, _, _, _, _, _, _, hq⟩ | hq) | ⟨call, id, a, -, hc, -⟩
  · exact hsame hq.intents
  · exact hq.intents
  · rcases hq.moves with ⟨-, heq, -⟩ | ⟨id, a, b, ha, hput, hm⟩
    · exact hsame heq
    · unfold IntentsEvolve
      rw [hput]
      exact Table.evolves_put ControlIntent.Later.refl s.db.intents id a b ha (hm.later (hu id a ha))
  · exact hsame hc.intents

theorem IntentsEvolve.unsent {db db' : Db} (h : IntentsEvolve db db') (hu : Unsent db) : Unsent db' := by
  intro id b hb hs
  rcases h.back id b hb with ⟨-, hnone⟩ | ⟨a, ha, hlater⟩
  · exact hnone
  · obtain ⟨hrequested, hsame⟩ := hlater.requested hs
    exact hsame.trans (hu id a ha hrequested)

theorem unsent_init (env : Surroundings) : Unsent (Db.init env) := by
  intro id i h
  cases h

/- What holds of every run, the intents with it. -/
theorem run_unsent (cfg : Config) (env : Surroundings) (now : ℤ) (l : List Input) :
    Placed (run (step cfg) (System.init env now) l) ∧ Unsent (run (step cfg) (System.init env now) l).db :=
  run_invariant (step cfg) (fun s => Placed s ∧ Unsent s.db)
    (fun s i h => ⟨step_placed cfg s i h.1, (step_intents cfg s i h.1 h.2).unsent h.2⟩) _ l
    ⟨placed_init env now, unsent_init env⟩

theorem run_later (cfg : Config) (m : List Input) : ∀ (s : System) (id : UUID) (a : ControlIntent), Placed s →
    Unsent s.db → s.db.intents.get id = some a →
    ∃ b, (run (step cfg) s m).db.intents.get id = some b ∧ a.Later b := by
  induction m with
  | nil => exact fun s id a _ _ ha => ⟨a, ha, ControlIntent.Later.refl a⟩
  | cons i m ih =>
    intro s id a hs hu ha
    have hstep := step_intents cfg s i hs hu
    obtain ⟨b, hb, hab⟩ := hstep.forth id a ha
    obtain ⟨c, hc, hbc⟩ := ih (step cfg s i) id b (step_placed cfg s i hs) (hstep.unsent hu) hb
    exact ⟨c, hc, hab.trans hbc⟩

/-- An intent keeps what the owner asked for, its command once it has one, and only
moves forward: from requested to enqueued, and closed for good. -/
theorem intent_later (cfg : Config) (env : Surroundings) (now : ℤ) (l m : List Input) (id : UUID) (a : ControlIntent)
    (h : (run (step cfg) (System.init env now) l).db.intents.get id = some a) :
    ∃ b, (run (step cfg) (System.init env now) (l ++ m)).db.intents.get id = some b ∧ a.Later b := by
  obtain ⟨hs, hu⟩ := run_unsent cfg env now l
  rw [show run (step cfg) (System.init env now) (l ++ m) = run (step cfg) (run (step cfg) (System.init env now) l) m from
    List.foldl_append]
  exact run_later cfg m _ id a hs hu h

theorem intent_later_sample :
    ∃ a b, (run (step sampleConfig) (System.init sampleSurroundings 0) (sampleStart ++ [samplePause])).db.intents.get
        132 = some a ∧
      (run (step sampleConfig) (System.init sampleSurroundings 0) (sampleStart ++ [samplePause] ++
        [.reconcile 0 200, .reconcile 0 200])).db.intents.get 132 = some b ∧ a.Later b := by
  obtain ⟨a, ha⟩ := Option.isSome_iff_exists.mp (by decide +kernel :
    ((run (step sampleConfig) (System.init sampleSurroundings 0) (sampleStart ++ [samplePause])).db.intents.get
      132).isSome = true)
  obtain ⟨b, hb, hlater⟩ := intent_later sampleConfig sampleSurroundings 0 (sampleStart ++ [samplePause])
    [.reconcile 0 200, .reconcile 0 200] 132 a ha
  exact ⟨a, b, ha, hb, hlater⟩

/- A reconciler's transaction that writes a command writes it for a requested intent. -/
theorem Reconciled.sent {db db' : Db} (h : Reconciled db db') (hcommands : db'.commands ≠ db.commands) :
    ∃ id a control checkedAt commandId, db.intents.get id = some a ∧ a.status = .requested ∧
      db.controls.get a.executionId = some control ∧ control.version = a.controlVersion ∧
      Sent db db' a commandId ∧ db'.intents.get id = some { a with
        checkedAt := checkedAt, commandId := some commandId, status := .enqueued } := by
  rcases h.moves with ⟨-, -, hsame⟩ | ⟨id, a, b, ha, hput, hm⟩
  · exact absurd hsame hcommands
  · cases hm with
    | checked checkedAt hs hc hm => exact absurd hm hcommands
    | superseded control hs hget hne hc hm => exact absurd hm hcommands
    | enqueued control checkedAt commandId hs hget hv hc hm =>
      rcases hm with hsame | hsent
      · exact absurd hsame hcommands
      · exact ⟨id, a, control, checkedAt, commandId, ha, hs, hget, hv, hsent, by rw [hput, Table.get_put_self]⟩
    | refused control checkedAt refusal hs hget hc hm => exact absurd hm hcommands
    | settled control status hs hsettled hget hv hc hm => exact absurd hm hcommands

/-- When a reconciler's transaction writes a command, it is one command, for the child of
a requested intent whose version is the control's, at the run version that the owner saw;
and from then on no transaction finds that intent requested. -/
theorem intent_sent_once (cfg : Config) (env : Surroundings) (now : ℤ) (l m : List Input) (j : ℕ) (newId : UUID)
    (h : (run (step cfg) (System.init env now) (l ++ [.reconcile j newId])).db.commands ≠
      (run (step cfg) (System.init env now) l).db.commands) :
    ∃ id a control commandId, (run (step cfg) (System.init env now) l).db.intents.get id = some a ∧
      a.status = .requested ∧
      (run (step cfg) (System.init env now) l).db.controls.get a.executionId = some control ∧
      control.version = a.controlVersion ∧
      Sent (run (step cfg) (System.init env now) l).db
        (run (step cfg) (System.init env now) (l ++ [.reconcile j newId])).db a commandId ∧
      ∃ b, (run (step cfg) (System.init env now) (l ++ [.reconcile j newId] ++ m)).db.intents.get id = some b ∧
        b.status ≠ .requested ∧ b.commandId = some commandId := by
  have hstep : run (step cfg) (System.init env now) (l ++ [.reconcile j newId]) =
      step cfg (run (step cfg) (System.init env now) l) (.reconcile j newId) := List.foldl_append
  have hreconciled : Reconciled (run (step cfg) (System.init env now) l).db
      (run (step cfg) (System.init env now) (l ++ [.reconcile j newId])).db := by
    rw [hstep]
    exact turn_reconciled cfg.commands _ _ newId _
  obtain ⟨id, a, control, checkedAt, commandId, ha, hs, hget, hv, hsent, hb⟩ := hreconciled.sent h
  obtain ⟨b, hb', hlater⟩ := intent_later cfg env now (l ++ [.reconcile j newId]) m id _ hb
  refine ⟨id, a, control, commandId, ha, hs, hget, hv, hsent, b, hb', ?_, hlater.command commandId rfl⟩
  intro hrequested
  cases (hlater.requested hrequested).1

theorem intent_sent_once_sample :
    ∃ id a commandId, a.status = .requested ∧
      Sent (run (step sampleConfig) (System.init sampleSurroundings 0) (sampleStart ++ [samplePause, .reconcile 0 200])).db
        (run (step sampleConfig) (System.init sampleSurroundings 0)
          (sampleStart ++ [samplePause, .reconcile 0 200] ++ [.reconcile 0 200])).db a commandId ∧
      ∃ b, (run (step sampleConfig) (System.init sampleSurroundings 0)
          (sampleStart ++ [samplePause, .reconcile 0 200] ++ [.reconcile 0 200] ++ [.child 32 .pause])).db.intents.get id =
        some b ∧ b.status ≠ .requested := by
  have hwritten : (run (step sampleConfig) (System.init sampleSurroundings 0)
      (sampleStart ++ [samplePause, .reconcile 0 200] ++ [.reconcile 0 200])).db.commands ≠
      (run (step sampleConfig) (System.init sampleSurroundings 0)
        (sampleStart ++ [samplePause, .reconcile 0 200])).db.commands := by
    intro h
    exact absurd (congrArg (fun t => t.rows.length) h) (by decide +kernel)
  obtain ⟨id, a, control, commandId, -, hs, -, -, hsent, b, hb, hlater, -⟩ := intent_sent_once sampleConfig
    sampleSurroundings 0 (sampleStart ++ [samplePause, .reconcile 0 200]) [.child 32 .pause] 0 200 hwritten
  exact ⟨id, a, commandId, hs, hsent, b, hb, hlater⟩

/-! ### Requests -/

/- A request of the run that is new and is accepted. -/
theorem request_accepted (db db' : Db) (now : ℤ) (actor : Actor) (epicId executionId : UUID) (key : Str)
    (request : ControlRequest) (o : ControlOutside) (response : ControlReceipt)
    (hnew : db.receipts.get (actor.actorId, .executionControl, key) = none)
    (h : controlRequest db now actor epicId executionId key request o = .ok (response, db')) :
    ∃ control control', Requested db db' actor.actorId epicId executionId key request response control control' := by
  rcases controlRequest_spec _ _ _ _ _ _ _ _ _ _ h with ⟨-, -, receipt, hget, -⟩ | hrequested
  · rw [hnew] at hget
    cases hget
  · exact hrequested

/- A control stays, and its version does not go back. -/
theorem step_version (cfg : Config) (s : System) (i : Input) (hs : Placed s) (e : UUID) (c : Control)
    (hc : s.db.controls.get e = some c) :
    ∃ c', (step cfg s i).db.controls.get e = some c' ∧ c.version ≤ c'.version := by
  rcases step_kinds cfg s i hs with
    (hq | ⟨_, _, _, _, _, _, control, control', hq⟩ | hq) | ⟨call, id, a, -, hcreated, -⟩
  · obtain ⟨c', hc', -, hle, -⟩ := hq.controlled.forth e c hc
    exact ⟨c', hc', hle⟩
  · rcases hq.control_cases e with ⟨he, hnew⟩ | ⟨-, hsame⟩
    · rw [he, hq.found] at hc
      cases hc
      exact ⟨control', hnew, by have := hq.next.2; omega⟩
    · exact ⟨c, hsame.trans hc, le_refl _⟩
  · rcases hq.moves with ⟨hsame, -, -⟩ | ⟨id, a, b, -, -, hm⟩
    · exact ⟨c, hsame ▸ hc, le_refl _⟩
    · obtain ⟨c', hc', hversion⟩ := hm.version e c hc
      exact ⟨c', hc', hversion.ge⟩
  · obtain ⟨c', hc', -, hle, -⟩ := hcreated.controls.forth e c hc
    exact ⟨c', hc', hle⟩

theorem run_version (cfg : Config) (m : List Input) : ∀ (s : System) (e : UUID) (c : Control), Placed s →
    s.db.controls.get e = some c → ∃ c', (run (step cfg) s m).db.controls.get e = some c' ∧ c.version ≤ c'.version := by
  induction m with
  | nil => exact fun s e c _ hc => ⟨c, hc, le_refl _⟩
  | cons i m ih =>
    intro s e c hs hc
    obtain ⟨c₁, hc₁, hle⟩ := step_version cfg s i hs e c hc
    obtain ⟨c', hc', hle'⟩ := ih (step cfg s i) e c₁ (step_placed cfg s i hs) hc₁
    exact ⟨c', hc', hle.trans hle'⟩

theorem commit_ok {α : Type} (db db' : Db) (result : Except Fault (α × Db)) (a : α) (h : result = .ok (a, db')) :
    commit db (result.map Prod.snd) = db' := by
  rw [h]
  rfl

/-- A new request that is accepted raises the version of its control by one, and every
later new request that names the same version, or an older one, is refused. -/
theorem request_accepted_once (cfg : Config) (env : Surroundings) (now : ℤ) (l m : List Input) (actor : Actor)
    (epicId executionId : UUID) (key : Str) (request : ControlRequest) (o : ControlOutside) (response : ControlReceipt)
    (db' : Db)
    (hnew : (run (step cfg) (System.init env now) l).db.receipts.get (actor.actorId, .executionControl, key) = none)
    (hok : controlRequest (run (step cfg) (System.init env now) l).db (run (step cfg) (System.init env now) l).now
      actor epicId executionId key request o = .ok (response, db')) :
    response.executionVersion = request.expectedExecutionVersion + 1 ∧
    (∃ c, db'.controls.get executionId = some c ∧ c.version = response.executionVersion ∧ c.state = response.state) ∧
    ∀ actor' epicId' key' request' o' result,
      (run (step cfg) (System.init env now) (l ++ .request actor epicId executionId key request o :: m)).db.receipts.get
        (actor'.actorId, .executionControl, key') = none →
      request'.expectedExecutionVersion ≤ request.expectedExecutionVersion →
      controlRequest (run (step cfg) (System.init env now) (l ++ .request actor epicId executionId key request o :: m)).db
        (run (step cfg) (System.init env now) (l ++ .request actor epicId executionId key request o :: m)).now
        actor' epicId' executionId key' request' o' ≠ .ok result := by
  have hs := run_placed cfg env now l
  obtain ⟨control, control', hq⟩ := request_accepted _ _ _ _ _ _ _ _ _ _ hnew hok
  have hcontrol : db'.controls.get executionId = some control' := by
    rcases hq.control_cases executionId with ⟨-, hget⟩ | ⟨hne, -⟩
    · exact hget
    · exact absurd rfl hne
  have hversion : control'.version = request.expectedExecutionVersion + 1 := by
    rw [hq.next.2, hq.version]
  refine ⟨hq.answer.2.1.trans hversion, ⟨control', hcontrol, hq.answer.2.1.symm, hq.answer.2.2.2.symm⟩, ?_⟩
  intro actor' epicId' key' request' o' result hunused hle hresult
  have hstep : (step cfg (run (step cfg) (System.init env now) l) (.request actor epicId executionId key request o)).db =
      db' := commit_ok _ _ _ _ hok
  have hlast : ∃ c, (run (step cfg) (System.init env now)
      (l ++ .request actor epicId executionId key request o :: m)).db.controls.get executionId = some c ∧
      control'.version ≤ c.version := by
    rw [show run (step cfg) (System.init env now) (l ++ .request actor epicId executionId key request o :: m) =
      run (step cfg) (step cfg (run (step cfg) (System.init env now) l)
        (.request actor epicId executionId key request o)) m from List.foldl_append]
    exact run_version cfg m _ _ _ (step_placed cfg _ _ hs) (hstep ▸ hcontrol)
  obtain ⟨c, hc, hle'⟩ := hlast
  obtain ⟨response', db''⟩ := result
  obtain ⟨found, found', hq'⟩ := request_accepted _ _ _ _ _ _ _ _ _ _ hunused hresult
  have hfound := hq'.found
  rw [hc] at hfound
  cases hfound
  have := hq'.version
  omega

theorem request_accepted_once_sample :
    ∃ response db', controlRequest (run (step sampleConfig) (System.init sampleSurroundings 0) sampleStart).db
        (run (step sampleConfig) (System.init sampleSurroundings 0) sampleStart).now ⟨7, 8⟩ 1 10 (codes "pause")
        samplePauseRequest sampleControlOutside = .ok (response, db') ∧
      response.executionVersion = 2 ∧
      ∀ result, controlRequest
        (run (step sampleConfig) (System.init sampleSurroundings 0) (sampleStart ++ samplePause :: [.reconcile 0 200])).db
        (run (step sampleConfig) (System.init sampleSurroundings 0) (sampleStart ++ samplePause :: [.reconcile 0 200])).now
        ⟨7, 8⟩ 1 10 (codes "again") samplePauseRequest sampleControlOutside ≠ .ok result := by
  obtain ⟨⟨response, db'⟩, hok⟩ := ok_of_isOk (controlRequest
    (run (step sampleConfig) (System.init sampleSurroundings 0) sampleStart).db
    (run (step sampleConfig) (System.init sampleSurroundings 0) sampleStart).now ⟨7, 8⟩ 1 10 (codes "pause")
    samplePauseRequest sampleControlOutside) (by decide +kernel)
  obtain ⟨hversion, -, hlater⟩ := request_accepted_once sampleConfig sampleSurroundings 0 sampleStart [.reconcile 0 200]
    ⟨7, 8⟩ 1 10 (codes "pause") samplePauseRequest sampleControlOutside response db'
    (Option.isNone_iff_eq_none.mp (by decide +kernel)) hok
  exact ⟨response, db', hok, hversion, fun result => hlater ⟨7, 8⟩ 1 (codes "again") samplePauseRequest
    sampleControlOutside result (Option.isNone_iff_eq_none.mp (by decide +kernel)) le_rfl⟩

/-- The receipt of a request that has been accepted. -/
def Answered (db : Db) (actorId executionId : UUID) (key : Str) (request : ControlRequest)
    (response : ControlReceipt) : Prop :=
  validKey key = true ∧ ∃ receipt, db.receipts.get (actorId, .executionControl, key) = some receipt ∧
    receipt.request = .executionControl executionId request ∧ receipt.response = some response

theorem answered_of_request (db db' : Db) (now : ℤ) (actor : Actor) (epicId executionId : UUID) (key : Str)
    (request : ControlRequest) (o : ControlOutside) (response : ControlReceipt)
    (h : controlRequest db now actor epicId executionId key request o = .ok (response, db')) :
    Answered db' actor.actorId executionId key request response := by
  rcases controlRequest_spec _ _ _ _ _ _ _ _ _ _ h with ⟨rfl, hkey, hreceipt⟩ | ⟨control, control', hq⟩
  · exact ⟨hkey, hreceipt⟩
  · obtain ⟨holds, intents, hrows⟩ := hq.rows
    refine ⟨hq.valid, ⟨.executionControl executionId request, executionId, some response⟩, ?_, rfl, rfl⟩
    rw [hrows]
    exact Table.get_put_self _ _ _

theorem request_of_answered (db : Db) (now : ℤ) (actor : Actor) (epicId executionId : UUID) (key : Str)
    (request : ControlRequest) (o : ControlOutside) (response : ControlReceipt)
    (h : Answered db actor.actorId executionId key request response) :
    controlRequest db now actor epicId executionId key request o = .ok (response, db) := by
  obtain ⟨hkey, receipt, hget, hrequest, hresponse⟩ := h
  unfold controlRequest
  rw [reserve_replay db actor.actorId .executionControl key _ receipt hkey hget hrequest]
  have hfound : orRaise receipt.response (Fault.value "control receipt has no response") = .ok response := by
    rw [hresponse]
    rfl
  exact congrArg (· >>= fun response => .ok (response, db)) hfound

theorem step_answered (cfg : Config) (s : System) (i : Input) (hs : Placed s) (actorId executionId : UUID) (key : Str)
    (request : ControlRequest) (response : ControlReceipt) (h : Answered s.db actorId executionId key request response) :
    Answered (step cfg s i).db actorId executionId key request response := by
  obtain ⟨hkey, receipt, hget, hfacts⟩ := h
  exact ⟨hkey, receipt, (step_keeps cfg s i hs).1 _ _ hget, hfacts⟩

/-- A request that has once been answered gets the same answer ever after, whichever of
the owner's sessions repeats it and whatever has happened since, and changes nothing. -/
theorem request_replayed (cfg : Config) (env : Surroundings) (now : ℤ) (l m : List Input) (actor actor' : Actor)
    (epicId epicId' executionId : UUID) (key : Str) (request : ControlRequest) (o o' : ControlOutside)
    (response : ControlReceipt) (db' : Db)
    (hok : controlRequest (run (step cfg) (System.init env now) l).db (run (step cfg) (System.init env now) l).now
      actor epicId executionId key request o = .ok (response, db'))
    (hactor : actor'.actorId = actor.actorId) :
    controlRequest (run (step cfg) (System.init env now) (l ++ .request actor epicId executionId key request o :: m)).db
        (run (step cfg) (System.init env now) (l ++ .request actor epicId executionId key request o :: m)).now
        actor' epicId' executionId key request o' =
      .ok (response,
        (run (step cfg) (System.init env now) (l ++ .request actor epicId executionId key request o :: m)).db) := by
  have hs := run_placed cfg env now l
  have hfirst : Answered (step cfg (run (step cfg) (System.init env now) l)
      (.request actor epicId executionId key request o)).db actor.actorId executionId key request response := by
    rw [show (step cfg (run (step cfg) (System.init env now) l) (.request actor epicId executionId key request o)).db =
      db' from commit_ok _ _ _ _ hok]
    exact answered_of_request _ _ _ _ _ _ _ _ _ _ hok
  have hlast : Answered (run (step cfg) (System.init env now)
      (l ++ .request actor epicId executionId key request o :: m)).db actor.actorId executionId key request response := by
    rw [show run (step cfg) (System.init env now) (l ++ .request actor epicId executionId key request o :: m) =
      run (step cfg) (step cfg (run (step cfg) (System.init env now) l)
        (.request actor epicId executionId key request o)) m from List.foldl_append]
    exact (run_invariant (step cfg)
      (fun s => Placed s ∧ Answered s.db actor.actorId executionId key request response)
      (fun s j h => ⟨step_placed cfg s j h.1, step_answered cfg s j h.1 _ _ _ _ _ h.2⟩) _ m
      ⟨step_placed cfg _ _ hs, hfirst⟩).2
  exact request_of_answered _ _ actor' _ _ _ _ o' _ (hactor ▸ hlast)

theorem request_replayed_sample :
    ∃ response, controlRequest
        (run (step sampleConfig) (System.init sampleSurroundings 0) (sampleStart ++ samplePause :: [.reconcile 0 200])).db
        (run (step sampleConfig) (System.init sampleSurroundings 0) (sampleStart ++ samplePause :: [.reconcile 0 200])).now
        ⟨7, 9⟩ 1 10 (codes "pause") samplePauseRequest sampleControlOutside = .ok (response,
          (run (step sampleConfig) (System.init sampleSurroundings 0)
            (sampleStart ++ samplePause :: [.reconcile 0 200])).db) := by
  obtain ⟨⟨response, db'⟩, hok⟩ := ok_of_isOk (controlRequest
    (run (step sampleConfig) (System.init sampleSurroundings 0) sampleStart).db
    (run (step sampleConfig) (System.init sampleSurroundings 0) sampleStart).now ⟨7, 8⟩ 1 10 (codes "pause")
    samplePauseRequest sampleControlOutside) (by decide +kernel)
  exact ⟨response, request_replayed _ _ _ sampleStart [.reconcile 0 200] _ _ _ _ _ _ _ _ _ _ _ hok rfl⟩

end ParallelForge.EpicRun
