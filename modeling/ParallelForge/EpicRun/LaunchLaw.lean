import ParallelForge.EpicRun.EvidenceLaw

/-!
# What a launch does

A launch writes an attempt, or it leaves the rows as they are but for the handoffs
of its evidence. Where it writes one without an override, everything that could
have blocked it has been checked on the rows it found.
-/

namespace ParallelForge.EpicRun
open Base Brainstorm Budget Epic Run

theorem reserve_eq_none (db : Db) (actorId : UUID) (action : MutationAction) (key : Str)
    (request : MutationRequest) (h : reserve db actorId action key request = .ok none) :
    db.receipts.get (actorId, action, key) = none := by
  simp only [reserve, bind_eq_ok, require_eq_ok] at h
  obtain ⟨-, -, h⟩ := h
  cases hget : db.receipts.get (actorId, action, key) with
  | none => rfl
  | some receipt =>
    simp only [hget, bind_eq_ok] at h
    obtain ⟨-, -, h⟩ := h
    cases h

theorem reserve_replay (db : Db) (actorId : UUID) (action : MutationAction) (key : Str)
    (request : MutationRequest) (receipt : Receipt) (hkey : validKey key = true)
    (hget : db.receipts.get (actorId, action, key) = some receipt) (hr : receipt.request = request) :
    reserve db actorId action key request = .ok (some receipt) := by
  simp only [reserve, bind_eq_ok, require_eq_ok, hget]
  exact ⟨(), hkey, (), hr, rfl⟩

theorem reserve_key (db : Db) (actorId : UUID) (action : MutationAction) (key : Str)
    (request : MutationRequest) (o : Option Receipt) (h : reserve db actorId action key request = .ok o) :
    validKey key = true := by
  simp only [reserve, bind_eq_ok, require_eq_ok] at h
  exact h.choose_spec.1

/-- The source that a launch request names. -/
def sourceOf (epicId : UUID) (request : LaunchRequest) : Execution :=
  ⟨epicId, request.briefRevisionId, request.briefDigest, request.graphRevisionId, request.graphDigest⟩

/-- What has been checked and written before the loop. -/
structure PreparedFrom (db : Db) (now : ℤ) (actor : Actor) (epicId : UUID) (request : LaunchRequest)
    (token : Option UUID) (p : Prepared) : Prop where
  claim : ∀ t, token = some t → claimCurrent db now actor epicId request t = true
  item : ∃ graph, db.env.graphs epicId request.graphRevisionId = some graph ∧ p.item ∈ graph.items ∧
    p.item.itemId = request.itemId
  rows : ∃ ledgers executions controls,
    p.db = { db with ledgers := ledgers, executions := executions, controls := controls }
  execution : (request.executionId = some p.executionId ∧ p.db.executions = db.executions ∧
      p.db.controls = db.controls ∧ db.executions.get p.executionId = some (sourceOf epicId request)) ∨
    (request.executionId = none ∧ db.executions.get p.executionId = none ∧ db.controls.get p.executionId = none ∧
      p.db.executions = db.executions.put p.executionId (sourceOf epicId request) ∧
      p.db.controls = db.controls.put p.executionId ⟨epicId, 1, .active, none, now⟩)
  fresh : p.fresh = request.executionId.isNone
  active : p.early = [] → (controlState p.db p.executionId).all (· == .active) = true

theorem executionOf_spec (db db' : Db) (now : ℤ) (epicId : UUID) (request : LaunchRequest) (newId id : UUID)
    (h : executionOf db now epicId request newId = .ok (id, db')) :
    (request.executionId = some id ∧ db' = db ∧ db.executions.get id = some (sourceOf epicId request)) ∨
      (request.executionId = none ∧ db.executions.get id = none ∧ db.controls.get id = none ∧ db' = { db with
        executions := db.executions.put id (sourceOf epicId request)
        controls := db.controls.put id ⟨epicId, 1, .active, none, now⟩ }) := by
  unfold executionOf at h
  cases hid : request.executionId with
  | none =>
    simp only [hid, createExecution, bind_eq_ok, require_eq_ok] at h
    obtain ⟨created, ⟨-, ⟨hnone, hfree⟩, hcreated⟩, h⟩ := h
    cases hcreated
    cases h
    exact Or.inr ⟨rfl, hnone, Option.isNone_iff_eq_none.mp hfree, rfl⟩
  | some e =>
    simp only [hid, bind_eq_ok, orRaise_eq_ok, require_eq_ok] at h
    obtain ⟨execution, hget, -, hsame, h⟩ := h
    cases h
    exact Or.inl ⟨rfl, rfl, hget.trans (congrArg some hsame)⟩

theorem childBudgetBlockers_rows (cfg : Config) (db db' : Db) (epicId projectId : UUID) (codes : List BlockerCode)
    (h : childBudgetBlockers cfg db epicId projectId = .ok (codes, db')) :
    ∃ ledgers, db' = { db with ledgers := ledgers } := by
  simp only [childBudgetBlockers, bind_eq_ok, require_eq_ok] at h
  obtain ⟨-, -, h⟩ := h
  cases h
  exact ⟨_, rfl⟩

theorem prepare_spec (cfg : Config) (db : Db) (now : ℤ) (actor : Actor) (epicId : UUID) (request : LaunchRequest)
    (token : Option UUID) (o : Outside) (p : Prepared)
    (h : prepare cfg db now actor epicId request token o = .ok p) :
    PreparedFrom db now actor epicId request token p := by
  simp only [prepare, bind_eq_ok, orRaise_eq_ok, require_eq_ok] at h
  obtain ⟨epic, -, -, hclaim, content, -, graph, hgraph, -, -, -, -, item, hitem, ⟨codes, db₁⟩, hbudget,
    project, -, inspection, -, ⟨executionId, db₂⟩, hexecution, h⟩ := h
  cases h
  obtain ⟨ledgers, rfl⟩ := childBudgetBlockers_rows cfg db db₁ epicId epic.projectId codes hbudget
  have hfound : item.itemId = request.itemId := by simpa using List.find?_some hitem
  refine ⟨?_, ⟨graph, hgraph, List.mem_of_find?_eq_some hitem, hfound⟩, ?_, ?_, rfl, ?_⟩
  · rintro t rfl
    simpa using hclaim
  · rcases executionOf_spec _ _ _ _ _ _ _ hexecution with ⟨-, rfl, -⟩ | ⟨-, -, -, rfl⟩
    · exact ⟨ledgers, db.executions, db.controls, rfl⟩
    · exact ⟨ledgers, _, _, rfl⟩
  · rcases executionOf_spec _ _ _ _ _ _ _ hexecution with ⟨hid, rfl, hget⟩ | ⟨hid, hnone, hfree, rfl⟩
    · exact Or.inl ⟨hid, rfl, rfl, hget⟩
    · exact Or.inr ⟨hid, hnone, hfree, rfl, rfl⟩
  · intro hearly
    simp only [List.append_eq_nil_iff] at hearly
    by_contra hno
    rw [if_neg hno] at hearly
    exact absurd hearly.2 (by simp)

/-! ### Controls -/

/-- Neither requested nor reached by a control request. -/
def Control.Free (c : Control) : Prop := c.state = .active ∨ c.state = .blocked ∨ c.state = .succeeded

/-- A change by anything but a control request and its reconciler. -/
def Control.Eased (c c' : Control) : Prop :=
  c'.epicId = c.epicId ∧ c.version ≤ c'.version ∧ ((c'.version = c.version ∧ c'.state = c.state) ∨ c'.Free)

theorem Control.Eased.refl (c : Control) : c.Eased c := ⟨rfl, le_rfl, Or.inl ⟨rfl, rfl⟩⟩

theorem Control.Free.eased {c c' : Control} (h : c.Free) (k : c.Eased c') : c'.Free := by
  obtain ⟨-, -, ⟨-, hsame⟩ | hfree⟩ := k
  · unfold Control.Free at h ⊢
    rwa [hsame]
  · exact hfree

theorem Control.Eased.trans {c c' c'' : Control} (h : c.Eased c') (k : c'.Eased c'') : c.Eased c'' := by
  refine ⟨k.1.trans h.1, h.2.1.trans k.2.1, ?_⟩
  rcases k.2.2 with ⟨hversion, hstate⟩ | hfree
  · rcases h.2.2 with ⟨hversion', hstate'⟩ | hfree'
    · exact Or.inl ⟨hversion.trans hversion', hstate.trans hstate'⟩
    · exact Or.inr (hfree'.eased k)
  · exact Or.inr hfree

/-- Every control is eased, and a new one is free. -/
abbrev ControlsEased (db db' : Db) : Prop := Table.Evolves Control.Eased Control.Free db.controls db'.controls

/-- No control is new. -/
abbrev ControlsKept (db db' : Db) : Prop := Table.Evolves Control.Eased (fun _ => False) db.controls db'.controls

theorem ControlsKept.refl (db : Db) : ControlsKept db db := Table.Evolves.refl Control.Eased.refl db.controls

theorem ControlsKept.trans {db db₁ db₂ : Db} (h : ControlsKept db db₁) (k : ControlsKept db₁ db₂) :
    ControlsKept db db₂ :=
  Table.Evolves.trans (fun _ _ _ hab hbc => hab.trans hbc) (fun _ _ hf _ => hf) h k

theorem ControlsEased.trans_kept {db db₁ db₂ : Db} (h : ControlsEased db db₁) (k : ControlsKept db₁ db₂) :
    ControlsEased db db₂ :=
  Table.Evolves.trans (fun _ _ _ hab hbc => hab.trans hbc) (fun _ _ hf hr => hf.eased hr) h
    fun e => (k e).mono (fun _ _ hr => hr) fun _ hf => hf.elim

theorem ControlsKept.eased {db db' : Db} (h : ControlsKept db db') : ControlsEased db db' :=
  fun e => (h e).mono (fun _ _ hr => hr) fun _ hf => hf.elim

theorem noted_eased (now : ℤ) (c : Control) : c.Eased (noted now c) := by
  unfold noted
  split
  · exact Control.Eased.refl c
  · exact ⟨rfl, Nat.le_succ _, Or.inr (Or.inr (Or.inl rfl))⟩

/- A child admitted late leaves no reached control. -/
theorem noted_late (now : ℤ) (c : Control) : (noted now c).state ≠ .paused ∧ (noted now c).state ≠ .cancelled := by
  unfold noted
  split
  · next h => rcases h with h | h | h | h <;> simp [h]
  · simp

/-- What has been checked after the loop. -/
structure Admission (epicId : UUID) (request : LaunchRequest) (o : Outside) (p : Prepared)
    (reported : Option (List DependencyEvidence)) (evidence : List DependencyEvidence)
    (blockers : List BlockerCode) : Prop where
  indexed : ∃ indexed, indexEvidence o.durable p.item.dependencyItemIds (reported.getD []) = .ok indexed ∧
    evidence = dependencyEvidence p.item.dependencyItemIds indexed
  collected : ∃ children failed, (p.db.listAttempts epicId none).mapM (childBlocker p.db) = .ok children ∧
    latestRequiredChildFailed p.db (p.db.listAttempts epicId none) p.executionId = .ok failed ∧
    blockers = allBlockers p failed reported.isNone children.flatten evidence
  allowed : blockers = [] ∨ request.ownerOverride = true

/-- The rows with the attempt, its run and its receipt. -/
structure Written (db : Db) (now : ℤ) (actorId : UUID) (key : Str) (override : Bool) (receipt : Receipt)
    (run : RunSnapshot) (id : UUID) (a : Attempt) (db' : Db) : Prop where
  attempt_fresh : db.attempts.get id = none
  run_fresh : db.runs.get a.runId = none
  attempts : db'.attempts = db.attempts.put id a
  runs : db'.runs = db.runs.put a.runId run
  receipts : db'.receipts = db.receipts.put (actorId, .itemLaunch, key) receipt
  executions : db'.executions = db.executions
  settings : db'.settings = db.settings
  env : db'.env = db.env
  intents : db'.intents = db.intents
  controls : db'.controls = if override = true ∧ (controlState db a.executionId).any (· != .active) = true then
    db.controls.modify a.executionId (noted now) else db.controls
  resource : receipt.resourceId = id

theorem admission_spec (now : ℤ) (actor : Actor) (epicId : UUID) (key : Str) (request : LaunchRequest) (o : Outside)
    (p : Prepared) (inspection : Inspection) (reported : Option (List DependencyEvidence)) (id : UUID)
    (a : Attempt) (db' : Db)
    (h : admission now actor epicId key request o p inspection reported = .ok ((id, a), db')) :
    ∃ evidence blockers contextDigest, Admission epicId request o p reported evidence blockers ∧
      a = attemptOf actor epicId request o p inspection (p.db.listAttempts epicId none) evidence blockers
        contextDigest ∧
      Written p.db now actor.actorId key request.ownerOverride ⟨.itemLaunch epicId request, id, none⟩
        (newRun o.runId p.epic.projectId o.taskId p.project.currentPolicyVersion inspection) id a db' := by
  simp only [admission, bind_eq_ok, require_eq_ok, orRaise_eq_ok] at h
  obtain ⟨indexed, hindexed, children, hchildren, failed, hfailed, -, hallowed, contextDigest, -, db₁, hrun,
    db₂, hattempt, h⟩ := h
  simp only [createRun, bind_eq_ok, require_eq_ok] at hrun
  obtain ⟨-, -, -, hfresh, -, -, hrun⟩ := hrun
  cases hrun
  simp only [createAttempt, bind_eq_ok, require_eq_ok] at hattempt
  obtain ⟨-, ⟨hnone, -⟩, hattempt⟩ := hattempt
  cases hattempt
  cases h
  refine ⟨_, _, contextDigest, ⟨⟨indexed, hindexed, rfl⟩, ⟨children, failed, hchildren, hfailed, rfl⟩, hallowed⟩,
    rfl, ?_⟩
  have hrun : p.db.runs.get o.runId = none := Option.isNone_iff_eq_none.mp hfresh
  by_cases hnote : request.ownerOverride = true ∧ (controlState p.db p.executionId).any (· != .active) = true
  · simp only [hnote, and_self, if_true]
    refine ⟨hnone, hrun, rfl, rfl, rfl, rfl, rfl, rfl, rfl, ?_, rfl⟩
    exact Eq.symm (if_pos ⟨rfl, hnote.2⟩)
  · simp only [hnote, if_false]
    refine ⟨hnone, hrun, rfl, rfl, rfl, rfl, rfl, rfl, rfl, ?_, rfl⟩
    exact Eq.symm (if_neg hnote)

/-! ### The whole launch -/

/-- The rows a launch found and those it left, with the attempt it wrote. -/
structure Created (db db' : Db) (now : ℤ) (actor : Actor) (epicId : UUID) (key : Str) (request : LaunchRequest)
    (token : Option UUID) (id : UUID) (a : Attempt) : Prop where
  valid : validKey key = true
  unused : db.receipts.get (actor.actorId, .itemLaunch, key) = none
  claim : ∀ t, token = some t → claimCurrent db now actor epicId request t = true
  attempt_fresh : db.attempts.get id = none
  run_fresh : db.runs.get a.runId = none
  attempts : db'.attempts = db.attempts.put id a
  runs : ∃ run, db'.runs = db.runs.put a.runId run ∧ run.state = .created ∧ run.baseRef = some a.baseRef ∧
    run.baseSha = some a.baseSha
  receipts : ∃ receipt, db'.receipts = db.receipts.put (actor.actorId, .itemLaunch, key) receipt ∧
    receipt.request = .itemLaunch epicId request ∧ receipt.resourceId = id
  execution : (request.executionId = some a.executionId ∧ db'.executions = db.executions ∧
      db.executions.get a.executionId = some (sourceOf epicId request)) ∨
    (request.executionId = none ∧ db.executions.get a.executionId = none ∧
      db'.executions = db.executions.put a.executionId (sourceOf epicId request))
  controls : ControlsEased db db'
  control : request.executionId = none → ∃ c, db'.controls.get a.executionId = some c
  governs : ∀ e c', db'.controls.get e = some c' → (∃ c, db.controls.get e = some c ∧ c'.epicId = c.epicId) ∨
    (e = a.executionId ∧ c'.epicId = epicId)
  late : ∀ c, db'.controls.get a.executionId = some c → c.state ≠ .paused ∧ c.state ≠ .cancelled
  intents : db'.intents = db.intents
  settings : db'.settings = db.settings
  epic : a.epicId = epicId
  item : a.itemId = request.itemId
  number : a.attemptNumber = nextNumber (db.listAttempts epicId none) a.executionId a.itemId

/-- What a launch without an override has found. -/
structure Admitted (db db' : Db) (o : Outside) (request : LaunchRequest) (a : Attempt) : Prop where
  children : ∀ x b, db.attempts.get x = some b → b.epicId = a.epicId →
    ∃ run, db.runs.get b.runId = some run ∧ isTerminalState run.state = true ∧ db.isQuiescent b.runId = true
  control : (controlState db' a.executionId).all (· == .active) = true
  control_before : ∀ e, request.executionId = some e → (controlState db e).all (· == .active) = true
  latest : ∀ x b, db.attempts.get x = some b → b.epicId = a.epicId → b.executionId = a.executionId →
    b.itemDisposition = .required → ∃ y c, db.attempts.get y = some c ∧ c.executionId = a.executionId ∧
      c.itemId = b.itemId ∧ c.itemDisposition = .required ∧ b.attemptNumber ≤ c.attemptNumber ∧
      ∃ run, db.runs.get c.runId = some run ∧ run.state ≠ .failed ∧ run.state ≠ .cancelled
  item : ∃ graph, db.env.graphs a.epicId request.graphRevisionId = some graph ∧ ∃ item ∈ graph.items,
    item.itemId = a.itemId ∧ item.disposition ≠ .deferred ∧ ∃ turn, ∀ d ∈ item.dependencyItemIds,
      VerifiedAt db (o.turns turn).git a.executionId d a.baseRef a.baseSha

theorem childBlocker_nil (db : Db) (x : UUID × Attempt) (h : childBlocker db x = .ok []) :
    ∃ run, db.runs.get x.2.runId = some run ∧ isTerminalState run.state = true ∧ db.isQuiescent x.2.runId = true := by
  simp only [childBlocker, bind_eq_ok, orRaise_eq_ok] at h
  obtain ⟨run, hrun, h⟩ := h
  refine ⟨run, hrun, ?_⟩
  have h := Except.ok.inj h
  split at h
  · cases h
  · next hterminal =>
    split at h
    · cases h
    · next hquiet => exact ⟨Bool.eq_true_of_not_eq_false hterminal, Bool.eq_true_of_not_eq_false hquiet⟩

/- No child stood in the way. -/
theorem children_settled (db : Db) (prior : List (UUID × Attempt)) (children : List (List BlockerCode))
    (h : prior.mapM (childBlocker db) = .ok children) (hnil : children.flatten = []) :
    ∀ x ∈ prior, childBlocker db x = .ok [] := by
  intro x hx
  obtain ⟨b, hb, hxb⟩ := forall₂_exists ((mapM_eq_ok _ _ _).mp h).flip x hx
  rwa [List.flatten_eq_nil_iff.mp hnil b hb] at hxb

theorem evidence_verified (evidence : List DependencyEvidence)
    (h : (if evidence.all (fun value => value.status == .verified) then []
      else [BlockerCode.predecessorUnverified]) = []) : ∀ v ∈ evidence, v.status = .verified := by
  split at h
  · next hall => simpa using hall
  · cases h

/- Every part of the list of blockers is empty. -/
theorem allBlockers_nil (p : Prepared) (failed moved : Bool) (children : List BlockerCode)
    (evidence : List DependencyEvidence) (h : allBlockers p failed moved children evidence = []) :
    p.early = [] ∧ failed = false ∧ p.item.disposition ≠ .deferred ∧ children = [] ∧ moved = false ∧
      ∀ v ∈ evidence, v.status = .verified := by
  simp only [allBlockers, List.append_eq_nil_iff] at h
  obtain ⟨⟨⟨⟨⟨hearly, hfailed⟩, hdeferred⟩, hchildren⟩, hmoved⟩, hevidence⟩ := h
  refine ⟨hearly, ?_, ?_, hchildren, ?_, evidence_verified evidence hevidence⟩
  · cases failed with
    | false => rfl
    | true => cases hfailed
  · intro hd
    rw [if_pos hd] at hdeferred
    cases hdeferred
  · cases moved with
    | false => rfl
    | true => cases hmoved

theorem Admission.early {epicId : UUID} {request : LaunchRequest} {o : Outside} {p : Prepared}
    {reported : Option (List DependencyEvidence)} {evidence : List DependencyEvidence} {blockers : List BlockerCode}
    (h : Admission epicId request o p reported evidence blockers) (hoverride : request.ownerOverride = false) :
    p.early = [] := by
  obtain ⟨children, failed, -, -, hall⟩ := h.collected
  rcases h.allowed with hnil | hover
  · rw [hnil] at hall
    exact (allBlockers_nil p _ _ _ _ hall.symm).1
  · rw [hoverride] at hover
    cases hover

/- An admission on the rows of the transaction is one on the rows it began with. -/
theorem admitted_of_admission (db db' : Db) (now : ℤ) (actor : Actor) (epicId : UUID) (request : LaunchRequest)
    (token : Option UUID) (o : Outside) (p : Prepared) (inspection : Inspection)
    (reported : Option (List DependencyEvidence)) (handoffs : Handoffs) (evidence : List DependencyEvidence)
    (blockers : List BlockerCode) (contextDigest : String)
    (hp : PreparedFrom db now actor epicId request token p)
    (hsettled : settleBase db epicId p (List.ofFn o.turns) p.inspection db.handoffs =
      (.ok (inspection, reported), handoffs))
    (ha : Admission epicId request o p reported evidence blockers)
    (hoverride : request.ownerOverride = false) (hcontrols : db'.controls = p.db.controls) :
    Admitted db db' o request (attemptOf actor epicId request o p inspection (p.db.listAttempts epicId none) evidence
      blockers contextDigest) := by
  obtain ⟨children, failed, hchildren, hfailed, hall⟩ := ha.collected
  have hnone : blockers = [] := by
    rcases ha.allowed with h | h
    · exact h
    · rw [hoverride] at h
      cases h
  rw [hnone] at hall
  obtain ⟨hearly, rfl, hdeferred, hflat, hmoved, hverified⟩ := allBlockers_nil p _ _ _ _ hall.symm
  obtain ⟨ledgers, executions, controls, hrows⟩ := hp.rows
  obtain ⟨graph, hgraph, hitem, hitemId⟩ := hp.item
  have hlist : p.db.listAttempts epicId none = db.listAttempts epicId none := by rw [hrows]; rfl
  have hactive := hp.active hearly
  refine ⟨?_, ?_, ?_, ?_, graph, hgraph, p.item, hitem, rfl, hdeferred, ?_⟩
  · intro x b hx hb
    have hmem : (x, b) ∈ p.db.listAttempts epicId none := by
      rw [hlist, Db.mem_listAttempts]
      exact ⟨hx, hb, fun e he => by cases he⟩
    have hchild := childBlocker_nil _ _ (children_settled p.db _ children hchildren hflat (x, b) hmem)
    rw [hrows] at hchild
    exact hchild
  · unfold controlState at hactive ⊢
    rw [hcontrols]
    exact hactive
  · intro e he
    rcases hp.execution with ⟨hid, -, hsame, -⟩ | ⟨hid, -⟩
    · rw [he] at hid
      cases hid
      unfold controlState at hactive ⊢
      rwa [← hsame]
    · rw [he] at hid
      cases hid
  · intro x b hx hb he hr
    have hmem : (x, b) ∈ p.db.listAttempts epicId none := by
      rw [hlist, Db.mem_listAttempts]
      exact ⟨hx, hb, fun e he => by cases he⟩
    obtain ⟨⟨y, c⟩, hy, hye, hitem, hyr, hle, hrun⟩ := latestRequired_spec p.db _ _ hfailed (x, b) hmem he hr
    rw [hlist, Db.mem_listAttempts] at hy
    rw [hrows] at hrun
    exact ⟨y, c, hy.1, hye, hitem, hyr, hle, hrun⟩
  · obtain ⟨indexed, hindexed, hevidence⟩ := ha.indexed
    cases hreported : reported with
    | none =>
      rw [hreported] at hmoved
      cases hmoved
    | some found =>
      rw [hreported] at hsettled hindexed
      rw [hevidence] at hverified
      exact dependencies_verified db epicId o p inspection found handoffs indexed hsettled hindexed hverified

section controls
variable {db db' : Db} {now : ℤ} {actor : Actor} {epicId : UUID} {key : Str} {request : LaunchRequest}
  {token : Option UUID} {p : Prepared} {receipt : Receipt} {run : RunSnapshot} {id : UUID} {a : Attempt}

theorem PreparedFrom.controls (h : PreparedFrom db now actor epicId request token p) : ControlsEased db p.db := by
  rcases h.execution with ⟨-, -, hsame, -⟩ | ⟨-, -, hnone, -, hput⟩
  · unfold ControlsEased
    rw [hsame]
    exact Table.Evolves.refl Control.Eased.refl db.controls
  · unfold ControlsEased
    rw [hput]
    exact Table.evolves_insert Control.Eased.refl db.controls _ _ hnone (Or.inl rfl)

theorem Written.with_handoffs (h : Written db now actor.actorId key request.ownerOverride receipt run id a db')
    (handoffs : Handoffs) : Written db now actor.actorId key request.ownerOverride receipt run id a
      { db' with handoffs := handoffs } :=
  ⟨h.attempt_fresh, h.run_fresh, h.attempts, h.runs, h.receipts, h.executions, h.settings, h.env, h.intents,
    h.controls, h.resource⟩

theorem Written.controls_kept (h : Written db now actor.actorId key request.ownerOverride receipt run id a db') :
    ControlsKept db db' := by
  unfold ControlsKept
  rw [h.controls]
  split
  · exact Table.evolves_modify Control.Eased.refl db.controls _ _ fun c _ => noted_eased now c
  · exact Table.Evolves.refl Control.Eased.refl db.controls

theorem PreparedFrom.governs (h : PreparedFrom db now actor epicId request token p)
    (hw : Written p.db now actor.actorId key request.ownerOverride receipt run id a db')
    (ha : a.executionId = p.executionId) (e : UUID) (c' : Control) (hc : db'.controls.get e = some c') :
    (∃ c, db.controls.get e = some c ∧ c'.epicId = c.epicId) ∨ (e = a.executionId ∧ c'.epicId = epicId) := by
  obtain ⟨c₁, hc₁, heased⟩ := hw.controls_kept.origin e c' hc
  rcases h.execution with ⟨-, -, hsame, -⟩ | ⟨-, -, -, -, hput⟩
  · rw [hsame] at hc₁
    exact Or.inl ⟨c₁, hc₁, heased.1⟩
  · rw [hput, Table.get_put] at hc₁
    split at hc₁
    · next he =>
      cases hc₁
      exact Or.inr ⟨he.trans ha.symm, heased.1⟩
    · exact Or.inl ⟨c₁, hc₁, heased.1⟩

/- A launch leaves no reached control behind. -/
theorem PreparedFrom.late (h : PreparedFrom db now actor epicId request token p)
    (hw : Written p.db now actor.actorId key request.ownerOverride receipt run id a db')
    (ha : a.executionId = p.executionId) (hallowed : request.ownerOverride = false → p.early = []) (c : Control)
    (hc : db'.controls.get a.executionId = some c) : c.state ≠ .paused ∧ c.state ≠ .cancelled := by
  rw [hw.controls] at hc
  split at hc
  · rw [Table.get_modify, if_pos rfl, Option.map_eq_some_iff] at hc
    obtain ⟨old, -, rfl⟩ := hc
    exact noted_late now old
  · next hno =>
    have hactive : (controlState p.db p.executionId).all (· == .active) = true := by
      cases hoverride : request.ownerOverride with
      | false => exact h.active (hallowed hoverride)
      | true =>
        have hall : (controlState p.db a.executionId).any (· != .active) = false :=
          Bool.eq_false_iff.mpr fun hany => hno ⟨hoverride, hany⟩
        rw [ha] at hall
        cases hstate : controlState p.db p.executionId with
        | none => rfl
        | some state =>
          rw [hstate] at hall
          simpa using hall
    rw [ha] at hc
    simp only [controlState, hc, Option.map_some, Option.all_some, beq_iff_eq] at hactive
    simp [hactive]

end controls

/-- The call whose receipt is there is answered from it. -/
structure Recorded (db : Db) (actorId epicId : UUID) (key : Str) (request : LaunchRequest) (id : UUID) (a : Attempt) :
    Prop where
  valid : validKey key = true
  receipt : ∃ receipt, db.receipts.get (actorId, .itemLaunch, key) = some receipt ∧
    receipt.request = .itemLaunch epicId request ∧ receipt.resourceId = id
  attempt : db.attempts.get id = some a
  epic : a.epicId = epicId

theorem reserve_eq_some (db : Db) (actorId : UUID) (action : MutationAction) (key : Str)
    (request : MutationRequest) (receipt : Receipt) (h : reserve db actorId action key request = .ok (some receipt)) :
    db.receipts.get (actorId, action, key) = some receipt ∧ receipt.request = request := by
  simp only [reserve, bind_eq_ok, require_eq_ok] at h
  obtain ⟨-, -, h⟩ := h
  cases hget : db.receipts.get (actorId, action, key) with
  | none =>
    rw [hget] at h
    cases h
  | some found =>
    simp only [hget, bind_eq_ok, require_eq_ok] at h
    obtain ⟨-, hsame, h⟩ := h
    cases h
    exact ⟨rfl, hsame⟩

theorem recorded_of_replay (db : Db) (actorId epicId : UUID) (key : Str) (request : LaunchRequest) (receipt : Receipt)
    (id : UUID) (a : Attempt) (hr : reserve db actorId .itemLaunch key (.itemLaunch epicId request) = .ok (some receipt))
    (h : getAttempt db epicId receipt.resourceId = .ok (id, a)) : Recorded db actorId epicId key request id a := by
  obtain ⟨hget, hsame⟩ := reserve_eq_some _ _ _ _ _ _ hr
  simp only [getAttempt, bind_eq_ok, orRaise_eq_ok, require_eq_ok] at h
  obtain ⟨found, hfound, -, hepic, h⟩ := h
  cases h
  exact ⟨reserve_key _ _ _ _ _ _ hr, ⟨receipt, hget, hsame, rfl⟩, hfound, hepic⟩

/-- A launch writes an attempt or leaves everything but the handoffs; then its answer is
that of an earlier call, and the handoffs stay too. -/
theorem launch_cases (cfg : Config) (db : Db) (now : ℤ) (actor : Actor) (epicId : UUID) (key : Str)
    (request : LaunchRequest) (token : Option UUID) (o : Outside) :
    (∃ handoffs, (launch cfg db now actor epicId key request token o).2 = { db with handoffs := handoffs } ∧
      ∀ id a, (launch cfg db now actor epicId key request token o).1 = .ok (id, a) →
        Recorded db actor.actorId epicId key request id a ∧
        (launch cfg db now actor epicId key request token o).2 = db) ∨
    ∃ id a, (launch cfg db now actor epicId key request token o).1 = .ok (id, a) ∧
      Created db (launch cfg db now actor epicId key request token o).2 now actor epicId key request token id a ∧
      (request.ownerOverride = false →
        Admitted db (launch cfg db now actor epicId key request token o).2 o request a) := by
  unfold launch
  split
  · exact Or.inl ⟨db.handoffs, rfl, fun id a h => by cases h⟩
  · next receipt hreserve =>
    exact Or.inl ⟨db.handoffs, rfl, fun id a h => ⟨recorded_of_replay db _ _ _ _ receipt id a hreserve h, rfl⟩⟩
  · next hreserve =>
    split
    · exact Or.inl ⟨db.handoffs, rfl, fun id a h => by cases h⟩
    · next p hprepare =>
      split
      · next handoffs _ => exact Or.inl ⟨handoffs, rfl, fun id a h => by cases h⟩
      · next inspection reported handoffs hsettled =>
        split
        · exact Or.inl ⟨handoffs, rfl, fun id a h => by cases h⟩
        · next created db' hadmit =>
          obtain ⟨id, a⟩ := created
          have hp := prepare_spec cfg db now actor epicId request token o p hprepare
          obtain ⟨evidence, blockers, contextDigest, hadmission, rfl, hw⟩ :=
            admission_spec now actor epicId key request o p inspection reported id a db' hadmit
          have hw := hw.with_handoffs handoffs
          obtain ⟨ledgers, executions, controls, hrows⟩ := hp.rows
          have hattempts : p.db.attempts = db.attempts := by rw [hrows]
          have hruns : p.db.runs = db.runs := by rw [hrows]
          have hreceipts : p.db.receipts = db.receipts := by rw [hrows]
          have hsettings : p.db.settings = db.settings := by rw [hrows]
          have hintents : p.db.intents = db.intents := by rw [hrows]
          have hlist : p.db.listAttempts epicId none = db.listAttempts epicId none := by rw [hrows]; rfl
          have hallowed : request.ownerOverride = false → p.early = [] := hadmission.early
          refine Or.inr ⟨id, _, rfl, ?_, ?_⟩
          · refine ⟨reserve_key _ _ _ _ _ _ hreserve, reserve_eq_none _ _ _ _ _ hreserve, hp.claim,
              hattempts ▸ hw.attempt_fresh, hruns ▸ hw.run_fresh, hattempts ▸ hw.attempts,
              ⟨_, hruns ▸ hw.runs, rfl, rfl, rfl⟩, ⟨_, hreceipts ▸ hw.receipts, rfl, hw.resource⟩, ?_,
              hp.controls.trans_kept hw.controls_kept, ?_, hp.governs hw rfl, hp.late hw rfl hallowed,
              hw.intents.trans hintents, hw.settings.trans hsettings, rfl, hp.item.choose_spec.2.2,
              congrArg (fun l => nextNumber l _ _) hlist⟩
            · rcases hp.execution with ⟨hid, hexec, -, hget⟩ | ⟨hid, hnone, -, hexec, -⟩
              · exact Or.inl ⟨hid, hw.executions.trans hexec, hget⟩
              · exact Or.inr ⟨hid, hnone, hw.executions.trans hexec⟩
            · intro hid
              rcases hp.execution with ⟨hsome, -⟩ | ⟨-, -, -, -, hctl⟩
              · rw [hid] at hsome
                cases hsome
              · exact hw.controls_kept.kept _ _ (hctl ▸ Table.get_put_self _ _ _)
          · intro hoverride
            refine admitted_of_admission db _ now actor epicId request token o p inspection reported handoffs evidence
              blockers contextDigest hp hsettled hadmission hoverride ?_
            exact hw.controls.trans (if_neg fun h => by rw [hoverride] at h; exact Bool.false_ne_true h.1)

end ParallelForge.EpicRun
