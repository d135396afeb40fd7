import ParallelForge.EpicRun.LifecycleLaw
import ParallelForge.EpicRun.System
import ParallelForge.Run.Gates

/-!
# What one transaction does

Every transaction but a launch is quiet: it writes no attempt, keeps executions,
receipts and ended runs, and puts a claim on an item without an attempt only. A
launch is quiet or writes one attempt.
-/

namespace ParallelForge.EpicRun
open Base Brainstorm Budget Epic Run

/-- No attempt of the execution is for the item. -/
def Unattempted (db : Db) (executionId itemId : UUID) : Prop :=
  ∀ x b, db.attempts.get x = some b → b.executionId = executionId → b.itemId ≠ itemId

/-- The claim an enabled setting holds. -/
def Claims (db : Db) (executionId actorId : UUID) (claim : Claim) : Prop :=
  ∃ s, db.settings.get executionId = some s ∧ s.enabled = true ∧ s.claim = some claim ∧ s.actorId = actorId

/-- The rows before and after a transaction that writes no attempt. -/
structure Quiet (db db' : Db) : Prop where
  attempts : db'.attempts = db.attempts
  executions : ∀ e x, db.executions.get e = some x → db'.executions.get e = some x
  controls : (∀ e, (db.executions.get e).isSome = true → (db.controls.get e).isSome = true) →
    ∀ e, (db'.executions.get e).isSome = true → (db'.controls.get e).isSome = true
  governs : ∀ e c', db'.controls.get e = some c' → (∃ c, db.controls.get e = some c ∧ c'.epicId = c.epicId) ∨
    ∃ x, db'.executions.get e = some x ∧ x.epicId = c'.epicId
  runs : ∀ r run, db.runs.get r = some run → ∃ run', db'.runs.get r = some run' ∧
    (isTerminalState run.state = true → run' = run)
  receipts : ∀ k r, db.receipts.get k = some r → db'.receipts.get k = some r
  settings : ∀ e, (db'.settings.get e).isSome = true →
    (db.settings.get e).isSome = true ∨ (db'.executions.get e).isSome = true
  claims : ∀ e actorId claim, Claims db' e actorId claim →
    Claims db e actorId claim ∨ Unattempted db e claim.itemId

/-- A quiet transaction that is no request for control and no reconciler's. -/
structure Eased (db db' : Db) : Prop extends Quiet db db' where
  controlled : ControlsEased db db'
  intents : db'.intents = db.intents

/- A transaction that leaves attempts, executions, runs, receipts and settings alone. -/
theorem quiet_of_same {db db' : Db} (ha : db'.attempts = db.attempts) (he : db'.executions = db.executions)
    (hc : ∀ e, (db.controls.get e).isSome = true → (db'.controls.get e).isSome = true)
    (hg : ∀ e c', db'.controls.get e = some c' → ∃ c, db.controls.get e = some c ∧ c'.epicId = c.epicId)
    (hr : db'.runs = db.runs) (hreceipts : db'.receipts = db.receipts) (hs : db'.settings = db.settings) :
    Quiet db db' where
  attempts := ha
  executions e x h := by rw [he]; exact h
  controls h e hx := hc e (h e (by rwa [he] at hx))
  governs e c' h := Or.inl (hg e c' h)
  runs r run h := ⟨run, by rw [hr]; exact h, fun _ => rfl⟩
  receipts k r h := by rw [hreceipts]; exact h
  settings e h := by
    rw [hs] at h
    exact Or.inl h
  claims e actorId claim h := by
    obtain ⟨s, hget, hfacts⟩ := h
    rw [hs] at hget
    exact Or.inl ⟨s, hget, hfacts⟩

theorem isSome_of_kept {db db' : Db} (h : ControlsKept db db') (e : UUID)
    (he : (db.controls.get e).isSome = true) : (db'.controls.get e).isSome = true := by
  obtain ⟨c, hc⟩ := Option.isSome_iff_exists.mp he
  obtain ⟨c', hc'⟩ := h.kept e c hc
  exact hc' ▸ rfl

theorem epic_of_kept {db db' : Db} (h : ControlsKept db db') (e : UUID) (c' : Control)
    (hc : db'.controls.get e = some c') : ∃ c, db.controls.get e = some c ∧ c'.epicId = c.epicId := by
  obtain ⟨c, hold, heased⟩ := h.origin e c' hc
  exact ⟨c, hold, heased.1⟩

/- As `quiet_of_same`, for a transaction that leaves the controls and intents alone too. -/
theorem eased_of_same {db db' : Db} (ha : db'.attempts = db.attempts) (he : db'.executions = db.executions)
    (hc : db'.controls = db.controls) (hi : db'.intents = db.intents) (hr : db'.runs = db.runs)
    (hreceipts : db'.receipts = db.receipts) (hs : db'.settings = db.settings) : Eased db db' := by
  have hkept : ControlsKept db db' := by
    unfold ControlsKept
    rw [hc]
    exact ControlsKept.refl db
  exact ⟨quiet_of_same ha he (isSome_of_kept hkept) (epic_of_kept hkept) hr hreceipts hs, hkept.eased, hi⟩

theorem Eased.refl (db : Db) : Eased db db := eased_of_same rfl rfl rfl rfl rfl rfl rfl

theorem eased_commit (db : Db) (result : Except Fault Db) (h : ∀ db', result = .ok db' → Eased db db') :
    Eased db (commit db result) := by
  cases result with
  | ok db' => exact h db' rfl
  | error e => exact Eased.refl db

theorem put_isSome {κ α : Type} [DecidableEq κ] (t : Table κ α) (k k' : κ) (a : α)
    (h : (t.get k').isSome = true) : ((t.put k a).get k').isSome = true := by
  rw [Table.get_put]
  split
  · rfl
  · exact h

/- A row inserted under a new key leaves the others. -/
theorem get_put_fresh {κ α : Type} [DecidableEq κ] (t : Table κ α) (k k' : κ) (a b : α) (hk : t.get k = none)
    (h : t.get k' = some b) : (t.put k a).get k' = some b := by
  rw [Table.get_put_ne _ _ (Table.ne_of_get t hk h), h]

/-! ### The owner's transactions -/

theorem createExecution_eased (db db' : Db) (now : ℤ) (id : UUID) (execution : Execution)
    (h : createExecution db now id execution = .ok db') : Eased db db' := by
  simp only [createExecution, bind_eq_ok, require_eq_ok] at h
  obtain ⟨-, ⟨hnone, hfree⟩, h⟩ := h
  cases h
  have hfree := Option.isNone_iff_eq_none.mp hfree
  refine ⟨⟨rfl, fun e x hx => get_put_fresh _ _ _ _ _ hnone hx, ?_, ?_, fun r run hr => ⟨run, hr, fun _ => rfl⟩,
    fun k r hr => hr, fun e he => Or.inl he, fun e actorId claim hclaim => Or.inl hclaim⟩,
    Table.evolves_insert Control.Eased.refl db.controls _ _ hfree (Or.inl rfl), rfl⟩
  · intro hall e he
    simp only [Table.get_put] at he ⊢
    split
    · rfl
    · next hne =>
      rw [if_neg hne] at he
      exact hall e he
  · intro e c' hc
    simp only [Table.get_put] at hc ⊢
    split at hc
    · next he =>
      cases hc
      exact Or.inr ⟨execution, if_pos he, rfl⟩
    · exact Or.inl ⟨c', hc, rfl⟩

/- A receipt under an unused key. -/
theorem Eased.receipt {db db' : Db} (h : Eased db db') (k : ReceiptKey) (receipt : Receipt)
    (hk : db.receipts.get k = none) (hsame : db'.receipts = db.receipts) :
    Eased db { db' with receipts := db'.receipts.put k receipt } := by
  refine ⟨⟨h.attempts, h.executions, h.controls, h.governs, h.runs, ?_, h.settings, h.claims⟩, h.controlled, h.intents⟩
  intro k' r hr
  show (db'.receipts.put k receipt).get k' = some r
  rw [hsame]
  exact get_put_fresh _ _ _ _ _ hk hr

theorem start_eased (db : Db) (now : ℤ) (actor : Actor) (epicId : UUID) (key : Str)
    (request : ExecutionStartRequest) (id id' : UUID) (db' : Db)
    (h : start db now actor epicId key request id = .ok (id', db')) : Eased db db' := by
  unfold start at h
  rw [bind_eq_ok] at h
  obtain ⟨o, hreserve, h⟩ := h
  cases o with
  | some receipt =>
    cases h
    exact Eased.refl db
  | none =>
    simp only [bind_eq_ok] at h
    obtain ⟨epic, -, -, -, briefId, -, briefDigest, -, graphId, -, graphDigest, -, content, -, graph, -, -, -, -, -,
      -, -, created, hcreated, h⟩ := h
    cases h
    have hsame : created.receipts = db.receipts := by
      simp only [createExecution, bind_eq_ok] at hcreated
      obtain ⟨-, -, hcreated⟩ := hcreated
      cases hcreated
      rfl
    exact (createExecution_eased db created now id _ hcreated).receipt _ _ (reserve_eq_none _ _ _ _ _ hreserve) hsame

/-! ### Settings and controls -/

/-- A transaction on settings and controls. -/
structure Dispatched (db db' : Db) : Prop where
  rows : ∃ settings controls, db' = { db with settings := settings, controls := controls }
  controls : ControlsKept db db'
  settings : ∀ e, (db'.settings.get e).isSome = true →
    (db.settings.get e).isSome = true ∨ (db.executions.get e).isSome = true
  claims : ∀ e actorId claim, Claims db' e actorId claim →
    Claims db e actorId claim ∨ Unattempted db e claim.itemId

theorem Dispatched.eased {db db' : Db} (h : Dispatched db db') : Eased db db' := by
  have hc := isSome_of_kept h.controls
  have hg := epic_of_kept h.controls
  have heased := h.controls.eased
  obtain ⟨settings, controls, rfl⟩ := h.rows
  exact ⟨⟨rfl, fun e x hx => hx, fun hall e he => hc e (hall e he), fun e c' hc' => Or.inl (hg e c' hc'),
    fun r run hr => ⟨run, hr, fun _ => rfl⟩, fun k r hr => hr, h.settings, h.claims⟩, heased, rfl⟩

theorem Dispatched.refl (db : Db) : Dispatched db db :=
  ⟨⟨db.settings, db.controls, rfl⟩, ControlsKept.refl db, fun _ h => Or.inl h, fun _ _ _ h => Or.inl h⟩

theorem Dispatched.trans {db db₁ db₂ : Db} (h : Dispatched db db₁) (k : Dispatched db₁ db₂) : Dispatched db db₂ := by
  obtain ⟨settings, controls, hrows⟩ := h.rows
  obtain ⟨settings', controls', hrows'⟩ := k.rows
  refine ⟨⟨settings', controls', by rw [hrows', hrows]⟩, h.controls.trans k.controls, ?_, ?_⟩
  · intro e he
    rcases k.settings e he with hs | hx
    · exact h.settings e hs
    · rw [hrows] at hx
      exact Or.inr hx
  · intro e actorId claim hclaim
    rcases k.claims e actorId claim hclaim with hc | hu
    · exact h.claims e actorId claim hc
    · rw [hrows] at hu
      exact Or.inr hu

theorem putControl_dispatched (db : Db) (e : UUID) (c c' : Control) (hget : db.controls.get e = some c)
    (h : c.Eased c') : Dispatched db (db.putControl e c') :=
  ⟨⟨db.settings, _, rfl⟩, Table.evolves_put Control.Eased.refl db.controls e c c' hget h, fun _ h => Or.inl h,
    fun _ _ _ h => Or.inl h⟩

theorem putSetting_dispatched (db : Db) (e : UUID) (s : Setting)
    (hexists : (db.settings.get e).isSome = true ∨ (db.executions.get e).isSome = true)
    (hclaim : ∀ claim, s.enabled = true → s.claim = some claim →
      Claims db e s.actorId claim ∨ Unattempted db e claim.itemId) : Dispatched db (db.putSetting e s) := by
  refine ⟨⟨_, db.controls, rfl⟩, ControlsKept.refl db, ?_, ?_⟩
  · intro e' h
    simp only [Db.putSetting, Table.get_put] at h
    split at h
    · next he =>
      rw [he]
      exact hexists
    · exact Or.inl h
  · rintro e' actorId claim ⟨s', hget, henabled, hs', rfl⟩
    simp only [Db.putSetting, Table.get_put] at hget
    split at hget
    · next he =>
      cases hget
      rw [he]
      exact hclaim claim henabled hs'
    · exact Or.inl ⟨s', hget, henabled, hs', rfl⟩

/- A setting that loses rights only. -/
theorem eased_dispatched (db : Db) (e : UUID) (s s' : Setting) (h : db.settings.get e = some s)
    (hactor : s'.actorId = s.actorId) (henabled : s'.enabled = true → s.enabled = true)
    (hclaim : ∀ claim, s'.claim = some claim → s.claim = some claim) : Dispatched db (db.putSetting e s') := by
  refine putSetting_dispatched db e s' (Or.inl (h ▸ rfl)) ?_
  intro claim hs' hc
  exact Or.inl ⟨s, h, henabled hs', hclaim claim hc, hactor.symm⟩

theorem recoverBudget_dispatched (db : Db) (now : ℤ) (executionId : UUID) (enabled : Bool) :
    Dispatched db (recoverBudget db now executionId enabled).1 := by
  unfold recoverBudget
  split
  · next c hsome =>
    have hget : db.controls.get executionId = some c := by
      split at hsome
      · exact (Option.filter_eq_some_iff.mp hsome).1
      · cases hsome
    exact putControl_dispatched db executionId c _ hget ⟨rfl, Nat.le_succ _, Or.inr (Or.inl rfl)⟩
  · exact Dispatched.refl db

theorem configure_eased (db : Db) (now : ℤ) (actor : Actor) (epicId executionId : UUID) (key : Str)
    (request : DispatchRequest) (db' : Db)
    (h : configure db now actor epicId executionId key request = .ok db') : Eased db db' := by
  unfold configure at h
  rw [bind_eq_ok] at h
  obtain ⟨o, hreserve, h⟩ := h
  cases o with
  | some receipt =>
    cases h
    exact Eased.refl db
  | none =>
    simp only [bind_eq_ok, require_eq_ok, orRaise_eq_ok] at h
    obtain ⟨-, -, execution, hexecution, -, -, -, -, -, -, h⟩ := h
    cases h
    have hrecovered := recoverBudget_dispatched db now executionId request.enabled
    obtain ⟨settings, controls, hrows⟩ := hrecovered.rows
    have hset := putSetting_dispatched (recoverBudget db now executionId request.enabled).1 executionId
      (configuredSetting (db.settings.get executionId) epicId actor request
        (recoverBudget db now executionId request.enabled).2)
      (Or.inr (by rw [hrows]; exact hexecution ▸ rfl)) (fun claim _ hc => by cases hc)
    refine (hrecovered.trans hset).eased.receipt _ _ (reserve_eq_none _ _ _ _ _ hreserve) ?_
    rw [hrows]
    rfl

/-! ### The worker's transactions -/

theorem blockFailedChild_dispatched (db : Db) (now : ℤ) (executionId : UUID) (control : Control)
    (hget : db.controls.get executionId = some control) : Dispatched db (blockFailedChild db now executionId control) := by
  unfold blockFailedChild
  have hcontrol := putControl_dispatched db executionId control { control with
    state := .blocked, version := control.version + 1, blockerCode := some .predecessorFailed, updatedAt := now } hget
    ⟨rfl, Nat.le_succ _, Or.inr (Or.inr (Or.inl rfl))⟩
  dsimp only
  split
  · next setting hget =>
    exact hcontrol.trans (eased_dispatched _ executionId setting _ hget rfl (fun h => by cases h) fun _ h => by cases h)
  · exact hcontrol

theorem readinessUnavailable_dispatched (db : Db) (now : ℤ) (c : Candidate) (db' : Db)
    (h : readinessUnavailable db now c = .ok db') : Dispatched db db' := by
  have hmarked : ∀ setting, (db.settings.get c.executionId).filter (fun s => s.enabled) = some setting →
      Dispatched db (db.putSetting c.executionId { setting with
        checkedAt := some now, blockerCode := some .readinessUnavailable }) := by
    intro setting hs
    exact eased_dispatched db c.executionId setting _ (Option.filter_eq_some_iff.mp hs).1 rfl (fun h => h) fun _ h => h
  simp only [readinessUnavailable, bind_eq_ok] at h
  obtain ⟨-, -, h⟩ := h
  split at h
  · next control hsome =>
    have hget := (Option.filter_eq_some_iff.mp hsome).1
    rw [bind_eq_ok] at h
    obtain ⟨failed, -, h⟩ := h
    split at h
    · cases h
      exact blockFailedChild_dispatched db now c.executionId control hget
    · split at h
      · next setting hs =>
        cases h
        exact hmarked setting hs
      · cases h
        exact putControl_dispatched db c.executionId control _ hget ⟨rfl, le_rfl, Or.inl ⟨rfl, rfl⟩⟩
  · split at h
    · next setting hs =>
      cases h
      exact hmarked setting hs
    · cases h
      exact Dispatched.refl db

section progress
variable {now : ℤ} {c : Candidate}

theorem complete_dispatched (db db' : Db) (control : Control) (setting : Option Setting)
    (attempts : List (UUID × Attempt)) (hs : ∀ s, setting = some s → db.settings.get c.executionId = some s)
    (hget : db.controls.get c.executionId = some control)
    (h : complete now c db control setting attempts = .ok db') : Dispatched db db' := by
  simp only [complete, bind_eq_ok] at h
  obtain ⟨settled, -, h⟩ := h
  split at h
  · have hcontrol := putControl_dispatched db c.executionId control { control with
      state := .succeeded, version := control.version + 1, blockerCode := none, updatedAt := now } hget
      ⟨rfl, Nat.le_succ _, Or.inr (Or.inr (Or.inr rfl))⟩
    split at h
    · next s =>
      cases h
      exact hcontrol.trans
        (eased_dispatched _ c.executionId s _ (hs s rfl) rfl (fun hfalse => by cases hfalse) fun _ hc => hc)
    · cases h
      exact hcontrol
  · split at h
    · next s hsome =>
      cases h
      exact eased_dispatched db c.executionId s _ (hs s (Option.filter_eq_some_iff.mp hsome).1) rfl (fun h => h)
        fun _ hc => hc
    · cases h
      exact Dispatched.refl db

/- A claim is put on an item without an attempt. -/
theorem claimReady_dispatched (db db' : Db) (epic : EpicRow) (s : Setting) (required : List EpicItemEligibility)
    (attempts : List (UUID × Attempt)) (token : UUID) (own : Option ClaimedLaunch)
    (hs : db.settings.get c.executionId = some s)
    (hall : ∀ x b, db.attempts.get x = some b → b.executionId = c.executionId → (x, b) ∈ attempts)
    (h : claimReady now c db epic s required attempts token = .ok (own, db')) : Dispatched db db' := by
  have hmarked : ∀ blocker, Dispatched db (db.putSetting c.executionId { s with blockerCode := blocker }) :=
    fun blocker => eased_dispatched db c.executionId s _ hs rfl (fun h => h) fun _ hc => hc
  unfold claimReady at h
  split at h
  · cases h
    exact hmarked _
  · next ready _ =>
    split at h
    · cases h
      exact hmarked _
    · next hfree =>
      rw [bind_eq_ok] at h
      obtain ⟨waiting, -, h⟩ := h
      cases waiting with
      | some code =>
        cases h
        exact hmarked _
      | none =>
        simp only [bind_eq_ok] at h
        obtain ⟨execution, -, h⟩ := h
        cases h
        refine putSetting_dispatched db c.executionId _ (Or.inl (hs ▸ rfl)) ?_
        intro claim _ hclaim
        cases hclaim
        refine Or.inr fun x b hx he hitem => hfree ?_
        rw [List.any_eq_true]
        exact ⟨(x, b), hall x b hx he, by simpa using hitem⟩

theorem advance_dispatched (db db' : Db) (epic : EpicRow) (control : Control) (setting : Option Setting)
    (readiness : List EpicItemEligibility) (attempts : List (UUID × Attempt)) (token : UUID)
    (own : Option ClaimedLaunch) (hs : ∀ s, setting = some s → db.settings.get c.executionId = some s)
    (hget : db.controls.get c.executionId = some control)
    (hall : ∀ x b, db.attempts.get x = some b → b.executionId = c.executionId → (x, b) ∈ attempts)
    (h : advance now c db epic control setting readiness attempts token = .ok (own, db')) : Dispatched db db' := by
  unfold advance at h
  dsimp only at h
  split at h
  · rw [bind_eq_ok] at h
    obtain ⟨completed, hcomplete, h⟩ := h
    cases h
    exact complete_dispatched db db' control setting attempts hs hget hcomplete
  · split at h
    · cases h
      exact Dispatched.refl db
    · next s hsome =>
      exact claimReady_dispatched db db' epic s _ attempts token own (hs s (Option.filter_eq_some_iff.mp hsome).1)
        hall h

theorem progressActive_dispatched (db db' : Db) (epic : EpicRow) (control : Control)
    (readiness : List EpicItemEligibility) (token : UUID) (own : Option ClaimedLaunch)
    (hcontrol : db.controls.get c.executionId = some control)
    (hall : ∀ x b, db.attempts.get x = some b → b.executionId = c.executionId →
      (x, b) ∈ db.listAttempts c.epicId (some c.executionId))
    (h : progressActive now c db epic control readiness token = .ok (own, db')) : Dispatched db db' := by
  unfold progressActive at h
  dsimp only at h
  split at h
  · split at h
    · cases h
      exact Dispatched.refl db
    · rw [bind_eq_ok] at h
      obtain ⟨failed, -, h⟩ := h
      have htouched := putControl_dispatched db c.executionId control { control with updatedAt := now } hcontrol
        ⟨rfl, le_rfl, Or.inl ⟨rfl, rfl⟩⟩
      split at h
      · cases h
        exact htouched.trans (blockFailedChild_dispatched _ now c.executionId _ (Table.get_put_self _ _ _))
      · exact htouched.trans (advance_dispatched _ db' epic _ _ readiness _ token own (fun s hsome => hsome)
          (Table.get_put_self _ _ _) hall h)
  · next s hsome =>
    have hget := (Option.filter_eq_some_iff.mp hsome).1
    have htouched := eased_dispatched db c.executionId s { s with checkedAt := some now } hget rfl (fun h => h)
      fun _ hc => hc
    rw [bind_eq_ok] at h
    obtain ⟨failed, -, h⟩ := h
    split at h
    · cases h
      exact htouched.trans (blockFailedChild_dispatched _ now c.executionId control hcontrol)
    · split at h
      · refine htouched.trans (advance_dispatched _ db' epic control _ readiness _ token own ?_ hcontrol hall h)
        rintro s' hs'
        cases hs'
        exact Table.get_put_self _ _ _
      · next claim hclaim =>
        split at h
        · cases h
          exact htouched
        · have hcleared : ∀ blocker, Dispatched (db.putSetting c.executionId { s with checkedAt := some now })
              ((db.putSetting c.executionId { s with checkedAt := some now }).putSetting c.executionId
                { s with checkedAt := some now, claim := none, blockerCode := blocker }) :=
            fun blocker => eased_dispatched _ c.executionId _ _ (Table.get_put_self _ _ _) rfl (fun h => h)
              fun _ hc => by cases hc
          split at h
          · cases h
            exact htouched.trans (hcleared none)
          · refine (htouched.trans (hcleared s.blockerCode)).trans
              (advance_dispatched _ db' epic control _ readiness _ token own ?_ hcontrol hall h)
            rintro s' hs'
            cases hs'
            exact Table.get_put_self _ _ _

theorem progress_dispatched (db db' : Db) (readiness : List EpicItemEligibility) (token : UUID)
    (own : Option ClaimedLaunch)
    (hall : ∀ x b, db.attempts.get x = some b → b.executionId = c.executionId →
      (x, b) ∈ db.listAttempts c.epicId (some c.executionId))
    (h : progress now c db readiness token = .ok (own, db')) : Dispatched db db' := by
  simp only [progress, bind_eq_ok] at h
  obtain ⟨epic, -, h⟩ := h
  split at h
  · next control hsome =>
    exact progressActive_dispatched db db' epic control readiness token own (Option.filter_eq_some_iff.mp hsome).1 hall h
  · split at h
    · cases h
      exact Dispatched.refl db
    · next s hsome =>
      cases h
      refine eased_dispatched db c.executionId s _ (Option.filter_eq_some_iff.mp hsome).1 rfl ?_ fun _ hc => hc
      exact fun _ => (Option.filter_eq_some_iff.mp hsome).2

end progress

theorem blockedControl_dispatched (db : Db) (now : ℤ) (executionId : UUID) (blocker : Option BlockerCode) :
    Dispatched db (blockedControl db now executionId blocker) := by
  unfold blockedControl
  split
  · next control hsome =>
    split
    · exact putControl_dispatched db executionId control _ (Option.filter_eq_some_iff.mp hsome).1
        ⟨rfl, Nat.le_succ _, Or.inr (Or.inr (Or.inl rfl))⟩
    · exact Dispatched.refl db
  · exact Dispatched.refl db

theorem settleClaim_dispatched (db db' : Db) (now : ℤ) (l : ClaimedLaunch) (blocker : Option BlockerCode)
    (h : settleClaim db now l blocker = .ok db') : Dispatched db db' := by
  simp only [settleClaim, bind_eq_ok] at h
  obtain ⟨-, -, h⟩ := h
  split at h
  · cases h
    exact Dispatched.refl db
  · next s hsome =>
    rw [bind_eq_ok] at h
    obtain ⟨stands, -, h⟩ := h
    cases h
    have hsettled : ∀ blocker, Dispatched db (db.putSetting l.executionId (settledSetting s now blocker)) := by
      intro blocker
      refine eased_dispatched db l.executionId s _ (Option.filter_eq_some_iff.mp hsome).1 rfl ?_ fun _ hc => by cases hc
      intro henabled
      simp only [settledSetting, Bool.and_eq_true] at henabled
      exact henabled.1
    exact (hsettled _).trans (blockedControl_dispatched _ now l.executionId _)

/-! ### The system -/

/-- The candidate of a worker past its first look is one of the epic's executions. -/
def Worker.Bound (db : Db) : Worker → Prop
  | .inspected c _ | .proved c _ _ | .ready c _ =>
    ∃ x, db.executions.get c.executionId = some x ∧ x.epicId = c.epicId
  | _ => True

theorem Worker.Bound.mono {db db' : Db} (h : ∀ e x, db.executions.get e = some x → db'.executions.get e = some x)
    (w : Worker) (hw : w.Bound db) : w.Bound db' := by
  cases w with
  | inspected c seen =>
    obtain ⟨x, hx, he⟩ := hw
    exact ⟨x, h _ x hx, he⟩
  | proved c seen proof =>
    obtain ⟨x, hx, he⟩ := hw
    exact ⟨x, h _ x hx, he⟩
  | ready c items =>
    obtain ⟨x, hx, he⟩ := hw
    exact ⟨x, h _ x hx, he⟩
  | _ => trivial

/-- An attempt belongs to the epic of its execution. -/
def Owned (db : Db) : Prop :=
  ∀ x a, db.attempts.get x = some a → ∃ e, db.executions.get a.executionId = some e ∧ e.epicId = a.epicId

theorem frozenSource_bound (db : Db) (epicId executionId : UUID) (frozen : Frozen)
    (h : frozenSource db epicId executionId = .ok frozen) :
    ∃ x, db.executions.get executionId = some x ∧ x.epicId = epicId := by
  simp only [frozenSource, bind_eq_ok, orRaise_eq_ok, require_eq_ok] at h
  obtain ⟨execution, hget, -, hepic, -⟩ := h
  exact ⟨execution, hget, hepic⟩

theorem turn_bound (cfg : Config) (db : Db) (now : ℤ) (o : WorkerOutside) (w : Worker) (hw : w.Bound db) :
    (w.turn cfg db now o).1.Bound db := by
  have hidle : ∀ (result : Except Fault Db), (orIdle db result fun db => (Worker.idle, db)).1.Bound db := by
    intro result
    cases result with
    | ok db' => trivial
    | error e => trivial
  cases w with
  | idle =>
    simp only [Worker.turn]
    split
    · trivial
    · trivial
  | selected c =>
    simp only [Worker.turn]
    split
    · next seen hseen =>
      simp only [inspectBase, bind_eq_ok] at hseen
      obtain ⟨frozen, hfrozen, -⟩ := hseen
      exact frozenSource_bound db c.epicId c.executionId frozen hfrozen
    · trivial
  | inspected c seen =>
    simp only [Worker.turn]
    split
    · exact hw
    · trivial
  | proved c seen proof =>
    simp only [Worker.turn]
    split
    · exact hw
    · trivial
  | unavailable c => exact hidle _
  | ready c items =>
    simp only [Worker.turn, orIdle]
    split
    · next result _ =>
      obtain ⟨own, db'⟩ := result
      cases own with
      | none => trivial
      | some l => trivial
    · trivial
  | claimed l => simp only [Worker.turn, Worker.Bound]
  | launched l blocker => exact hidle _

theorem orIdle_eased {α : Type} (db : Db) (result : Except Fault α) (next : α → Worker × Db)
    (h : ∀ a, result = .ok a → Eased db (next a).2) : Eased db (orIdle db result next).2 := by
  cases result with
  | ok a => exact h a rfl
  | error e => exact Eased.refl db

theorem turn_eased (cfg : Config) (db : Db) (now : ℤ) (o : WorkerOutside) (w : Worker) (hw : w.Bound db)
    (howned : Owned db) (hl : ∀ l, w ≠ .claimed l) : Eased db (w.turn cfg db now o).2 := by
  cases w with
  | idle =>
    simp only [Worker.turn]
    split
    · exact Eased.refl db
    · exact Eased.refl db
  | selected c =>
    simp only [Worker.turn]
    split
    · exact Eased.refl db
    · exact Eased.refl db
  | inspected c seen =>
    simp only [Worker.turn]
    split
    · exact eased_of_same rfl rfl rfl rfl rfl rfl rfl
    · exact Eased.refl db
  | proved c seen proof =>
    simp only [Worker.turn]
    split
    · exact Eased.refl db
    · exact Eased.refl db
  | unavailable c =>
    exact orIdle_eased db _ _ fun db' h => (readinessUnavailable_dispatched db now c db' h).eased
  | ready c items =>
    refine orIdle_eased db _ _ ?_
    rintro ⟨own, db'⟩ h
    refine (progress_dispatched db db' items o.token own ?_ h).eased
    intro x b hx he
    obtain ⟨e, hget, hepic⟩ := hw
    obtain ⟨e', hget', hepic'⟩ := howned x b hx
    rw [he, hget] at hget'
    cases hget'
    rw [Db.mem_listAttempts]
    exact ⟨hx, hepic'.symm.trans hepic, fun e he' => by cases he'; exact he.symm⟩
  | claimed l => exact absurd rfl (hl l)
  | launched l blocker =>
    exact orIdle_eased db _ _ fun db' h => (settleClaim_dispatched db db' now l blocker h).eased

theorem childRun_eased (db : Db) (runId : UUID) (op : EngineOp) : Eased db (childRun db runId op) := by
  unfold childRun
  split
  · exact Eased.refl db
  · next run hrun =>
    split
    · next run' hop =>
      refine ⟨⟨rfl, fun e x h => h, fun hall => hall, fun e c h => Or.inl ⟨c, h, rfl⟩, ?_, fun k r h => h,
        fun e h => Or.inl h, fun e actorId claim h => Or.inl h⟩, (ControlsKept.refl db).eased, rfl⟩
      intro r old hold
      show ∃ new, (db.runs.put runId run').get r = some new ∧ _
      rw [Table.get_put]
      split
      · next hr =>
        rw [hr, hrun] at hold
        cases hold
        refine ⟨run', rfl, fun hterminal => ?_⟩
        rw [apply_not_terminal _ _ _ hop] at hterminal
        cases hterminal
      · exact ⟨old, hold, fun _ => rfl⟩
    · exact Eased.refl db

theorem reconcileHold_eased (db db' : Db) (attemptId : UUID) (h : reconcileHold db attemptId = .ok db') :
    Eased db db' := by
  unfold reconcileHold at h
  split at h
  · cases h
    exact Eased.refl db
  · split at h
    · cases h
      exact Eased.refl db
    · simp only [bind_eq_ok] at h
      obtain ⟨run, -, h⟩ := h
      cases h
      split
      · exact eased_of_same rfl rfl rfl rfl rfl rfl rfl
      · exact Eased.refl db

theorem Requested.quiet {db db' : Db} {actorId epicId executionId : UUID} {key : Str} {request : ControlRequest}
    {response : ControlReceipt} {control control' : Control}
    (h : Requested db db' actorId epicId executionId key request response control control') : Quiet db db' := by
  obtain ⟨holds, intents, hrows⟩ := h.rows
  rw [hrows]
  refine ⟨rfl, fun e x hx => hx, ?_, ?_, fun r run hr => ⟨run, hr, fun _ => rfl⟩,
    fun k r hr => get_put_fresh _ _ _ _ _ h.unused hr, fun e he => Or.inl he, fun e actorId claim hc => Or.inl hc⟩
  · exact fun hall e he => put_isSome _ _ _ _ (hall e he)
  · intro e c' hc
    simp only [Table.get_put] at hc
    split at hc
    · next he =>
      cases hc
      exact Or.inl ⟨control, he ▸ h.found, h.next.1.trans h.epic.symm⟩
    · exact Or.inl ⟨c', hc, rfl⟩

/- A reconciler leaves a control or moves it without a new version. -/
theorem Moved.control {db db' : Db} {id : UUID} {a b : ControlIntent} (h : Moved db db' id a b) :
    db'.controls = db.controls ∨ ∃ control c', db.controls.get a.executionId = some control ∧
      db'.controls = db.controls.put a.executionId c' ∧ c'.epicId = control.epicId ∧ c'.version = control.version := by
  cases h with
  | checked checkedAt hs hc hm => exact Or.inl hc
  | superseded control hs hget hne hc hm => exact Or.inl hc
  | enqueued control checkedAt commandId hs hget hv hc hm => exact Or.inl hc
  | refused control checkedAt refusal hs hget hc hm =>
    rcases hc with ⟨-, hc⟩ | ⟨-, c', hc, hepic, hversion, -⟩
    · exact Or.inl hc
    · exact Or.inr ⟨control, c', hget, hc, hepic, hversion⟩
  | settled control status hs hsettled hget hv hc hm =>
    cases hc with
    | pending j other hne hj he hversion hsettled hc => exact Or.inl hc
    | blocked c' hc hepic hversion hblocked => exact Or.inr ⟨control, c', hget, hc, hepic, hversion⟩
    | reached c' hc hepic hversion hreached hall => exact Or.inr ⟨control, c', hget, hc, hepic, hversion⟩

theorem Reconciled.quiet {db db' : Db} (h : Reconciled db db') : Quiet db db' := by
  have hcontrols : db'.controls = db.controls ∨ ∃ e control c', db.controls.get e = some control ∧
      db'.controls = db.controls.put e c' ∧ c'.epicId = control.epicId := by
    rcases h.moves with ⟨hc, -, -⟩ | ⟨id, a, b, -, -, hm⟩
    · exact Or.inl hc
    · rcases hm.control with hc | ⟨control, c', hget, hc, hepic, -⟩
      · exact Or.inl hc
      · exact Or.inr ⟨a.executionId, control, c', hget, hc, hepic⟩
  obtain ⟨holds, intents, controls, commands, hrows⟩ := h.rows
  rw [hrows] at hcontrols ⊢
  refine quiet_of_same rfl rfl ?_ ?_ rfl rfl rfl
  · intro e he
    rcases hcontrols with hc | ⟨e', control, c', -, hc, -⟩
    · exact hc ▸ he
    · exact hc ▸ put_isSome _ _ _ _ he
  · intro e c hc
    rcases hcontrols with hsame | ⟨e', control, c', hget, hput, hepic⟩
    · exact ⟨c, hsame ▸ hc, rfl⟩
    · rw [show ({ db with holds := holds, intents := intents, controls := controls, commands := commands } : Db).controls =
        db.controls.put e' c' from hput, Table.get_put] at hc
      split at hc
      · next he =>
        cases hc
        exact ⟨control, he ▸ hget, hepic⟩
      · exact ⟨c, hc, rfl⟩

theorem step_of_no_call (cfg : Config) (s : System) (i : Input) (howned : Owned s.db)
    (hbound : ∀ j, (s.workers j).Bound s.db) (h : callOf s i = none) :
    Eased s.db (step cfg s i).db ∨ (∃ actorId epicId executionId key request response control control',
      Requested s.db (step cfg s i).db actorId epicId executionId key request response control control') ∨
      Reconciled s.db (step cfg s i).db := by
  cases i with
  | tick elapsed => exact Or.inl (Eased.refl _)
  | environment env => exact Or.inl (eased_of_same rfl rfl rfl rfl rfl rfl rfl)
  | start actor epicId key request id =>
    refine Or.inl (eased_commit _ _ ?_)
    intro db' hstart
    rw [map_eq_ok] at hstart
    obtain ⟨⟨id', db''⟩, hstart, rfl⟩ := hstart
    exact start_eased _ _ _ _ _ _ _ _ _ hstart
  | launch actor epicId key request o => cases h
  | child runId op => exact Or.inl (childRun_eased _ runId op)
  | commands rows => exact Or.inl (eased_of_same rfl rfl rfl rfl rfl rfl rfl)
  | hold attemptId => exact Or.inl (eased_commit _ _ fun db' hhold => reconcileHold_eased _ db' attemptId hhold)
  | request actor epicId executionId key request o =>
    simp only [step]
    cases hresult : controlRequest s.db s.now actor epicId executionId key request o with
    | error e => exact Or.inl (Eased.refl _)
    | ok result =>
      obtain ⟨response, db'⟩ := result
      rcases controlRequest_spec _ _ _ _ _ _ _ _ _ _ hresult with ⟨rfl, -, -⟩ | ⟨control, control', hrequested⟩
      · exact Or.inl (Eased.refl _)
      · exact Or.inr (Or.inl ⟨_, _, _, _, _, _, control, control', hrequested⟩)
  | configure actor epicId executionId key request =>
    exact Or.inl (eased_commit _ _ fun db' hconfigure => configure_eased _ _ _ _ _ _ _ _ hconfigure)
  | worker j o =>
    refine Or.inl (turn_eased cfg s.db s.now o (s.workers j) (hbound j) howned ?_)
    intro l hl
    simp only [callOf, hl] at h
    cases h
  | reconcile j newId => exact Or.inr (Or.inr (turn_reconciled cfg.commands s.db s.now newId (s.reconcilers j)))
  | crash j => exact Or.inl (Eased.refl _)

theorem Created.executions_kept {db db' : Db} {now : ℤ} {actor : Actor} {epicId : UUID} {key : Str}
    {request : LaunchRequest} {token : Option UUID} {id : UUID} {a : Attempt}
    (h : Created db db' now actor epicId key request token id a) (e : UUID) (x : Execution)
    (hx : db.executions.get e = some x) : db'.executions.get e = some x := by
  rcases h.execution with ⟨-, hsame, -⟩ | ⟨-, hnone, hput⟩
  · rwa [hsame]
  · rw [hput]
    exact get_put_fresh _ _ _ _ _ hnone hx

theorem Created.execution_bound {db db' : Db} {now : ℤ} {actor : Actor} {epicId : UUID} {key : Str}
    {request : LaunchRequest} {token : Option UUID} {id : UUID} {a : Attempt}
    (h : Created db db' now actor epicId key request token id a) :
    db'.executions.get a.executionId = some (sourceOf epicId request) := by
  rcases h.execution with ⟨-, hsame, hget⟩ | ⟨-, -, hput⟩
  · rwa [hsame]
  · rw [hput]
    exact Table.get_put_self _ _ _

/-- What holds of every run: the foreign keys, and where the workers stand. -/
structure Placed (s : System) : Prop where
  owned : Owned s.db
  bound : ∀ j, (s.workers j).Bound s.db
  settings : ∀ e, (s.db.settings.get e).isSome = true → (s.db.executions.get e).isSome = true
  controls : ∀ e, (s.db.executions.get e).isSome = true → (s.db.controls.get e).isSome = true
  governs : ∀ e c, s.db.controls.get e = some c → ∃ x, s.db.executions.get e = some x ∧ x.epicId = c.epicId

theorem placed_init (env : Surroundings) (now : ℤ) : Placed (System.init env now) where
  owned x a h := by cases h
  bound j := trivial
  settings e h := by cases h
  controls e h := by cases h
  governs e c h := by cases h

/-- A step is eased, an accepted request, a reconciler's, or a launch that writes an attempt. -/
theorem step_kinds (cfg : Config) (s : System) (i : Input) (hs : Placed s) :
    (Eased s.db (step cfg s i).db ∨ (∃ actorId epicId executionId key request response control control',
      Requested s.db (step cfg s i).db actorId epicId executionId key request response control control') ∨
      Reconciled s.db (step cfg s i).db) ∨ ∃ call id a, callOf s i = some call ∧
      Created s.db (step cfg s i).db s.now call.actor call.epicId call.key call.request call.token id a ∧
      (call.request.ownerOverride = false → Admitted s.db (step cfg s i).db call.outside call.request a) := by
  cases hcall : callOf s i with
  | none => exact Or.inl (step_of_no_call cfg s i hs.owned hs.bound hcall)
  | some call =>
    rw [step_of_call cfg s i call hcall]
    rcases launch_cases cfg s.db s.now call.actor call.epicId call.key call.request call.token call.outside with
      ⟨handoffs, hsame, -⟩ | ⟨id, a, -, hcreated, hadmitted⟩
    · refine Or.inl (Or.inl ?_)
      unfold LaunchCall.launch
      rw [hsame]
      exact eased_of_same rfl rfl rfl rfl rfl rfl rfl
    · exact Or.inr ⟨call, id, a, rfl, hcreated, hadmitted⟩

/- A step is quiet, or it is a launch that writes an attempt. -/
theorem step_cases (cfg : Config) (s : System) (i : Input) (hs : Placed s) :
    Quiet s.db (step cfg s i).db ∨ ∃ call id a, callOf s i = some call ∧
      Created s.db (step cfg s i).db s.now call.actor call.epicId call.key call.request call.token id a ∧
      (call.request.ownerOverride = false → Admitted s.db (step cfg s i).db call.outside call.request a) := by
  rcases step_kinds cfg s i hs with (he | ⟨_, _, _, _, _, _, _, _, hr⟩ | hr) | hcreated
  · exact Or.inl he.toQuiet
  · exact Or.inl hr.quiet
  · exact Or.inl hr.quiet
  · exact Or.inr hcreated

theorem step_workers_bound (cfg : Config) (s : System) (i : Input) (hs : Placed s) (j : ℕ) :
    ((step cfg s i).workers j).Bound s.db := by
  cases i with
  | worker k o =>
    simp only [step, Function.update_apply]
    split
    · exact turn_bound cfg s.db s.now o (s.workers k) (hs.bound k)
    · exact hs.bound j
  | crash k =>
    simp only [step, Function.update_apply]
    split
    · trivial
    · exact hs.bound j
  | _ => exact hs.bound j

theorem Quiet.placed {db db' : Db} (h : Quiet db db') (howned : Owned db)
    (hg : ∀ e c, db.controls.get e = some c → ∃ x, db.executions.get e = some x ∧ x.epicId = c.epicId) :
    Owned db' ∧ ∀ e c, db'.controls.get e = some c → ∃ x, db'.executions.get e = some x ∧ x.epicId = c.epicId := by
  refine ⟨?_, ?_⟩
  · intro x b hx
    rw [h.attempts] at hx
    obtain ⟨e, he, hepic⟩ := howned x b hx
    exact ⟨e, h.executions _ e he, hepic⟩
  · intro e c' hc
    rcases h.governs e c' hc with ⟨c, hold, hepic⟩ | hx
    · obtain ⟨x, hx, hepic'⟩ := hg e c hold
      exact ⟨x, h.executions e x hx, hepic'.trans hepic.symm⟩
    · exact hx

theorem Created.placed {db db' : Db} {now : ℤ} {actor : Actor} {epicId : UUID} {key : Str}
    {request : LaunchRequest} {token : Option UUID} {id : UUID} {a : Attempt}
    (h : Created db db' now actor epicId key request token id a) (howned : Owned db)
    (hg : ∀ e c, db.controls.get e = some c → ∃ x, db.executions.get e = some x ∧ x.epicId = c.epicId) :
    Owned db' ∧ ∀ e c, db'.controls.get e = some c → ∃ x, db'.executions.get e = some x ∧ x.epicId = c.epicId := by
  refine ⟨?_, ?_⟩
  · intro x b hx
    rw [h.attempts, Table.get_put] at hx
    split at hx
    · cases hx
      exact ⟨_, h.execution_bound, h.epic.symm⟩
    · obtain ⟨e, he, hepic⟩ := howned x b hx
      exact ⟨e, h.executions_kept _ e he, hepic⟩
  · intro e c' hc
    rcases h.governs e c' hc with ⟨c, hold, hepic⟩ | ⟨rfl, hepic⟩
    · obtain ⟨x, hx, hepic'⟩ := hg e c hold
      exact ⟨x, h.executions_kept e x hx, hepic'.trans hepic.symm⟩
    · exact ⟨_, h.execution_bound, hepic.symm⟩

theorem step_placed (cfg : Config) (s : System) (i : Input) (hs : Placed s) : Placed (step cfg s i) := by
  have hbound := step_workers_bound cfg s i hs
  rcases step_cases cfg s i hs with hq | ⟨call, id, a, -, hc, -⟩
  · obtain ⟨howned, hg⟩ := hq.placed hs.owned hs.governs
    refine ⟨howned, fun j => Worker.Bound.mono hq.executions _ (hbound j), ?_, hq.controls hs.controls, hg⟩
    intro e he
    rcases hq.settings e he with hset | hexec
    · obtain ⟨x, hx⟩ := Option.isSome_iff_exists.mp (hs.settings e hset)
      exact (hq.executions e x hx) ▸ rfl
    · exact hexec
  · obtain ⟨howned, hg⟩ := hc.placed hs.owned hs.governs
    refine ⟨howned, fun j => Worker.Bound.mono hc.executions_kept _ (hbound j), ?_, ?_, hg⟩
    · intro e he
      rw [hc.settings] at he
      obtain ⟨x, hx⟩ := Option.isSome_iff_exists.mp (hs.settings e he)
      exact (hc.executions_kept e x hx) ▸ rfl
    · have hkept : ∀ e, (s.db.executions.get e).isSome = true → ((step cfg s i).db.controls.get e).isSome = true := by
        intro e he
        obtain ⟨c, hget⟩ := Option.isSome_iff_exists.mp (hs.controls e he)
        obtain ⟨c', hget'⟩ := hc.controls.kept e c hget
        exact hget' ▸ rfl
      intro e he
      rcases hc.execution with ⟨-, hsame, -⟩ | ⟨hnew, -, hput⟩
      · rw [hsame] at he
        exact hkept e he
      · rw [hput, Table.get_put] at he
        split at he
        · next heq =>
          rw [heq]
          obtain ⟨c, hget⟩ := hc.control hnew
          exact hget ▸ rfl
        · exact hkept e he

theorem run_placed (cfg : Config) (env : Surroundings) (now : ℤ) (l : List Input) :
    Placed (run (step cfg) (System.init env now) l) :=
  run_invariant (step cfg) Placed (step_placed cfg) _ l (placed_init env now)

/- Receipts and attempts stay. -/
theorem step_keeps (cfg : Config) (s : System) (i : Input) (hs : Placed s) :
    (∀ k r, s.db.receipts.get k = some r → (step cfg s i).db.receipts.get k = some r) ∧
    ∀ x a, s.db.attempts.get x = some a → (step cfg s i).db.attempts.get x = some a := by
  rcases step_cases cfg s i hs with hq | ⟨call, id, a, -, hc, -⟩
  · exact ⟨hq.receipts, fun x a hx => by rw [hq.attempts]; exact hx⟩
  · obtain ⟨receipt, hreceipts, -⟩ := hc.receipts
    refine ⟨fun k r hr => ?_, fun x b hx => ?_⟩
    · rw [hreceipts]
      exact get_put_fresh _ _ _ _ _ hc.unused hr
    · rw [hc.attempts]
      exact get_put_fresh _ _ _ _ _ hc.attempt_fresh hx

end ParallelForge.EpicRun
