import ParallelForge.EpicRun.Steps

/-!
# A dispatched launch and the attempts before it

The worker claims an item only while it has no attempt, and the receipt of its launch
stops a second one. What the launch does not look at is an attempt that the owner has
launched under the standing claim and that has completed since.
-/

namespace ParallelForge.EpicRun
open Base Brainstorm Budget Epic Run

/-- The dispatch setting of the execution holds a current claim on the item. -/
def claimStands (db : Db) (now : ℤ) (executionId : Option UUID) (itemId : UUID) : Bool :=
  (executionId.bind db.settings.get).any fun setting => setting.enabled &&
    setting.claim.any fun claim => claim.itemId == itemId && decide (now < claim.expiresAt)

/-- The owner does not launch an item under a standing claim. -/
def Undisturbed (s : System) : Input → Prop
  | .launch _ _ _ request _ => claimStands s.db s.now request.executionId request.itemId = false
  | _ => True

instance (s : System) (i : Input) : Decidable (Undisturbed s i) := by
  cases i <;> unfold Undisturbed <;> infer_instance

/-- A new attempt is the first of its item in its execution. -/
def FirstAttempts (db db' : Db) : Prop :=
  ∀ r ∈ db'.attempts.rows, db.attempts.get r.1 = none →
    ∀ x ∈ db.attempts.rows, ¬(x.2.executionId = r.2.executionId ∧ x.2.itemId = r.2.itemId)

instance (db db' : Db) : Decidable (FirstAttempts db db') := by
  unfold FirstAttempts
  infer_instance

/-- A launch on behalf of a dispatch claim attempts an item for the first time. -/
def LaunchesOnce (cfg : Config) (s : System) (i : Input) : Prop :=
  (callOf s i).all (fun call => call.token.isSome) = true → FirstAttempts s.db (step cfg s i).db

/-- A standing claim is on an item without an attempt, or its launch has left its receipt. -/
def Guarded (s : System) : Prop :=
  ∀ e actorId claim, Claims s.db e actorId claim → s.now < claim.expiresAt →
    Unattempted s.db e claim.itemId ∨ (s.db.receipts.get (actorId, .itemLaunch, dispatchKey e claim.itemId)).isSome = true

theorem guarded_init (env : Surroundings) (now : ℤ) : Guarded (System.init env now) := by
  rintro e actorId claim ⟨s, hget, -⟩
  cases hget

theorem step_clock (cfg : Config) (s : System) (i : Input) : s.now ≤ (step cfg s i).now := by
  cases i with
  | tick elapsed =>
    simp only [step]
    omega
  | _ => exact le_rfl

/- The claim behind a dispatched call. -/
theorem claimCurrent_spec (db : Db) (now : ℤ) (actor : Actor) (epicId : UUID) (request : LaunchRequest)
    (token : UUID) (h : claimCurrent db now actor epicId request token = true) :
    ∃ e claim, request.executionId = some e ∧ Claims db e actor.actorId claim ∧ claim.itemId = request.itemId ∧
      now < claim.expiresAt := by
  unfold claimCurrent at h
  rw [Option.any_eq_true] at h
  obtain ⟨setting, hsome, hall⟩ := h
  rw [Option.bind_eq_some_iff] at hsome
  obtain ⟨e, he, hget⟩ := hsome
  simp only [Bool.and_eq_true, beq_iff_eq, Option.any_eq_true, decide_eq_true_eq] at hall
  obtain ⟨⟨⟨⟨⟨henabled, -⟩, claim, hclaim, ⟨hitem, -⟩, hcurrent⟩, hactor⟩, -⟩, -⟩ := hall
  exact ⟨e, claim, he, ⟨setting, hget, henabled, hclaim, hactor⟩, hitem, hcurrent⟩

/- The key of a dispatched call is that of its claim. -/
theorem callOf_key (s : System) (i : Input) (call : LaunchCall) (h : callOf s i = some call)
    (ht : call.token.isSome = true) (e : UUID) (he : call.request.executionId = some e) :
    call.key = dispatchKey e call.request.itemId := by
  cases i with
  | launch actor epicId key request o =>
    cases h
    cases ht
  | worker j o =>
    simp only [callOf] at h
    split at h
    · cases h
      cases he
      rfl
    · cases h
  | _ => cases h

/- A call without a token is the owner's. -/
theorem callOf_manual (s : System) (i : Input) (call : LaunchCall) (h : callOf s i = some call)
    (ht : call.token = none) (hu : Undisturbed s i) :
    claimStands s.db s.now call.request.executionId call.request.itemId = false := by
  cases i with
  | launch actor epicId key request o =>
    cases h
    exact hu
  | worker j o =>
    simp only [callOf] at h
    split at h
    · cases h
      cases ht
    · cases h
  | _ => cases h

theorem claimStands_of_claims (db : Db) (now : ℤ) (e actorId itemId : UUID) (claim : Claim)
    (h : Claims db e actorId claim) (hitem : claim.itemId = itemId) (hnow : now < claim.expiresAt) :
    claimStands db now (some e) itemId = true := by
  obtain ⟨setting, hget, henabled, hclaim, -⟩ := h
  simp only [claimStands, Option.bind_some, hget, Option.any_some, henabled, hclaim, hitem, beq_self_eq_true,
    hnow, decide_true, Bool.and_self]

/- The attempt of a launch keeps the claims guarded. -/
theorem created_guarded (cfg : Config) (s : System) (i : Input) (call : LaunchCall) (id : UUID) (a : Attempt)
    (hs : Placed s) (hg : Guarded s) (hu : Undisturbed s i) (hcall : callOf s i = some call)
    (hc : Created s.db (step cfg s i).db s.now call.actor call.epicId call.key call.request call.token id a) :
    Guarded (step cfg s i) := by
  obtain ⟨receipt, hreceipts, -⟩ := hc.receipts
  rintro e actorId claim ⟨setting, hget, hfacts⟩ hnow
  rw [hc.settings] at hget
  have hold : Claims s.db e actorId claim := ⟨setting, hget, hfacts⟩
  have hcurrent : s.now < claim.expiresAt := lt_of_le_of_lt (step_clock cfg s i) hnow
  have hkept : ∀ k, (s.db.receipts.get k).isSome = true → ((step cfg s i).db.receipts.get k).isSome = true := by
    intro k hk
    rw [hreceipts]
    exact put_isSome _ _ _ _ hk
  by_cases hsame : a.executionId = e ∧ a.itemId = claim.itemId
  · obtain ⟨rfl, hitem⟩ := hsame
    rcases hc.execution with ⟨hrequest, -, -⟩ | ⟨-, hnone, -⟩
    · cases ht : call.token with
      | none =>
        have hfree := callOf_manual s i call hcall ht hu
        rw [hrequest, claimStands_of_claims s.db s.now a.executionId actorId _ claim hold (hitem.symm.trans hc.item)
          hcurrent] at hfree
        cases hfree
      | some token =>
        obtain ⟨e', claim', he', hclaim', -, -⟩ := claimCurrent_spec _ _ _ _ _ _ (hc.claim token ht)
        rw [hrequest] at he'
        cases he'
        obtain ⟨setting', hget', -, -, hactor⟩ := hclaim'
        rw [hget] at hget'
        cases hget'
        right
        rw [hreceipts, callOf_key s i call hcall (ht ▸ rfl) _ hrequest, ← hc.item, hitem, ← hfacts.2.2, ← hactor,
          Table.get_put_self]
        rfl
    · obtain ⟨x, hx⟩ := Option.isSome_iff_exists.mp (hs.settings a.executionId (hget ▸ rfl))
      rw [hnone] at hx
      cases hx
  · rcases hg e actorId claim hold hcurrent with hfree | hreceipt
    · left
      intro x b hx hb hbi
      rw [hc.attempts, Table.get_put] at hx
      split at hx
      · cases hx
        exact hsame ⟨hb, hbi⟩
      · exact hfree x b hx hb hbi
    · exact Or.inr (hkept _ hreceipt)

theorem step_guarded (cfg : Config) (s : System) (i : Input) (hs : Placed s) (hg : Guarded s)
    (hu : Undisturbed s i) : Guarded (step cfg s i) := by
  rcases step_cases cfg s i hs with hq | ⟨call, id, a, hcall, hc, -⟩
  · intro e actorId claim hclaim hnow
    have hattempts : ∀ itemId, Unattempted s.db e itemId → Unattempted (step cfg s i).db e itemId := by
      intro itemId hfree x b hx
      rw [hq.attempts] at hx
      exact hfree x b hx
    rcases hq.claims e actorId claim hclaim with hold | hfree
    · rcases hg e actorId claim hold (lt_of_le_of_lt (step_clock cfg s i) hnow) with hfree | hreceipt
      · exact Or.inl (hattempts _ hfree)
      · obtain ⟨r, hr⟩ := Option.isSome_iff_exists.mp hreceipt
        exact Or.inr (hq.receipts _ r hr ▸ rfl)
    · exact Or.inl (hattempts _ hfree)
  · exact created_guarded cfg s i call id a hs hg hu hcall hc

/- From a guarded state, whatever the owner does. -/
theorem guarded_launchesOnce (cfg : Config) (s : System) (i : Input) (hs : Placed s) (hg : Guarded s) :
    LaunchesOnce cfg s i := by
  intro htoken r hr hfresh x hx hsame
  rw [Table.mem_rows_iff] at hr hx
  rcases step_cases cfg s i hs with hq | ⟨call, id, a, hcall, hc, -⟩
  · rw [hq.attempts, hfresh] at hr
    cases hr
  · rw [hcall] at htoken
    have ht : call.token.isSome = true := htoken
    obtain ⟨token, htok⟩ := Option.isSome_iff_exists.mp ht
    rw [hc.attempts, Table.get_put] at hr
    split at hr
    · cases hr
      obtain ⟨e, claim, he, hclaim, hitem, hcurrent⟩ := claimCurrent_spec _ _ _ _ _ _ (hc.claim token htok)
      have hexec : r.2.executionId = e := by
        rcases hc.execution with ⟨hrequest, -, -⟩ | ⟨hrequest, -, -⟩
        · rw [he] at hrequest
          exact (Option.some.inj hrequest).symm
        · rw [he] at hrequest
          cases hrequest
      rcases hg e call.actor.actorId claim hclaim hcurrent with hfree | hreceipt
      · exact hfree x.1 x.2 hx (hsame.1.trans hexec) (hsame.2.trans (hc.item.trans hitem.symm))
      · rw [hitem, ← callOf_key s i call hcall ht e he, hc.unused] at hreceipt
        cases hreceipt
    · rw [hfresh] at hr
      cases hr

/-- In a run in which the owner launches no item under a standing claim, a dispatched
launch never attempts an item that has an attempt. -/
theorem dispatch_launches_once (cfg : Config) (env : Surroundings) (now : ℤ) (l : List Input)
    (h : Along (step cfg) Undisturbed (System.init env now) l) :
    Along (step cfg) (LaunchesOnce cfg) (System.init env now) l := by
  suffices hgen : ∀ (l : List Input) (s : System), Placed s → Guarded s → Along (step cfg) Undisturbed s l →
      Along (step cfg) (LaunchesOnce cfg) s l by
    exact hgen l _ (placed_init env now) (guarded_init env now) h
  intro l
  induction l with
  | nil => exact fun _ _ _ _ => trivial
  | cons i l ih =>
    rintro s hs hg ⟨hu, hrest⟩
    exact ⟨guarded_launchesOnce cfg s i hs hg, ih _ (step_placed cfg s i hs) (step_guarded cfg s i hs hg hu) hrest⟩

/-! ### A run -/

def sampleItem : ItemSnapshot where
  itemId := 5
  disposition := .required
  ordinal := 0
  title := codes "item"
  outcome := codes "outcome"
  acceptanceCriteria := [codes "done"]
  sourceRequirementIds := [6]
  dependencyItemIds := []
  criteriaCount := by decide
  sourceCount := by decide
  dependencyCount := Nat.zero_le _
  sourceUnique := List.nodup_singleton 6
  dependencyUnique := List.nodup_nil
  graphRevisionId := 4
  itemDigest := codes "digest"

/-- An epic whose accepted graph has one item, on a repository that does not move. -/
def sampleSurroundings : Surroundings where
  epics _ := some ⟨2, 5, some 3, some "b", some 4, some "g"⟩
  projects _ := some ⟨some 1, true, "owner/repo", "main"⟩
  briefs _ _ := some "b"
  graphs _ _ := some ⟨"g", 3, "b", [sampleItem]⟩
  profiles _ _ := true
  quiescence _ := ⟨0, 0, 0, 0, 0, 0⟩
  pulls _ := none
  intents _ := none
  events _ := []
  totals _ := ⟨fun _ => 0, fun _ => 0, false, none, []⟩

def sampleConfig : Config where
  epicCeiling := { maxProviderAttempts := 12, maxDurationSeconds := 3600, maxToolCalls := 300 }
  childHold := { maxProviderAttempts := 1, maxDurationSeconds := 300, maxToolCalls := 25 }
  commands := ⟨{ Command.plainEncoding with uuidText := toString }, Command.plainDurability⟩

def sampleInspection : Inspection := ⟨"main", "refs/heads/main", "aaaaaaaaaaaaaaaaaaaaaaaaaaaaaaaaaaaaaaaa"⟩

def sampleGit : Git := ⟨some sampleInspection, fun _ _ => false⟩

def sampleOutside (n : ℕ) : Outside where
  createdAt := 0
  base := some sampleInspection
  turns _ := ⟨sampleGit, fun _ => 0, some sampleInspection⟩
  durable _ := true
  contextDigest := some "c"
  admits := true
  executionId := n + 3
  taskId := n + 1
  runId := n + 2
  attemptId := n

def sampleTurn : Input := .worker 0 ⟨0, sampleGit, fun _ => 0, 15, sampleOutside 20⟩

/-- The owner starts the epic and enables its dispatch, and a worker claims the item. -/
def sampleClaim : List Input :=
  [.start ⟨7, 8⟩ 1 (codes "start") ⟨5, none, none, none, none, false, none⟩ 10,
    .configure ⟨7, 8⟩ 1 10 (codes "enable") ⟨0, true, none, none⟩,
    sampleTurn, sampleTurn, sampleTurn, sampleTurn, sampleTurn]

theorem dispatch_launches_once_sample :
    Along (step sampleConfig) (LaunchesOnce sampleConfig) (System.init sampleSurroundings 0)
      (sampleClaim ++ [sampleTurn, sampleTurn]) :=
  dispatch_launches_once _ _ _ _ (by decide +kernel)

def sampleRequest : LaunchRequest := ⟨5, some 10, 3, "b", 4, "g", 5, none, none, false, none⟩

def sampleCall : LaunchCall := ⟨⟨7, 8⟩, 1, codes "manual", sampleRequest, none, sampleOutside 30⟩

def sampleLaunch : Input := .launch ⟨7, 8⟩ 1 (codes "manual") sampleRequest (sampleOutside 30)

/-- The owner launches the item under the claim, and its run completes. -/
def sampleRace : List Input :=
  sampleLaunch ::
    ([.transition .planning, .transition .preparingWorktree, .transition .implementing, .transition .validating,
      .transition .monitoringPr,
      .awaitApproval .merge "bbbbbbbbbbbbbbbbbbbbbbbbbbbbbbbbbbbbbbbbbbbbbbbbbbbbbbbbbbbbbbbb",
      .transition .merging, .transition .completed] : List EngineOp).map (Input.child 32)

-- the claim still stands, so the worker attempts the item for a second time
example : ((run (step sampleConfig) (System.init sampleSurroundings 0)
    (sampleClaim ++ sampleRace ++ [sampleTurn])).db.attempts.rows.map fun r => (r.2.itemId, r.2.attemptNumber)) =
      [(5, 1), (5, 2)] := by decide +kernel

end ParallelForge.EpicRun
