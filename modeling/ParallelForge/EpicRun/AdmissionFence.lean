import ParallelForge.EpicRun.DispatchOnce

/-!
# The admission fence of an epic

Whatever the order of launches, the attempts of an item are numbered from one
without a gap, and a call that is repeated gets its first answer. As long as no
launch overrides, an epic has one unfinished child at most.
-/

namespace ParallelForge.EpicRun
open Base Brainstorm Budget Epic Run

/-! ### Numbers -/

/-- The numbers of an item's attempts in an execution, oldest first. -/
def numbersOf (db : Db) (executionId itemId : UUID) : List ℕ :=
  (db.attempts.select fun _ a => a.executionId == executionId && a.itemId == itemId).map fun r => r.2.attemptNumber

def Numbered (db : Db) : Prop :=
  ∀ executionId itemId, numbersOf db executionId itemId =
    List.range' 1 (numbersOf db executionId itemId).length

theorem foldl_max_range' (n : ℕ) : (List.range' 1 n).foldl max 0 = n := by
  induction n with
  | zero => rfl
  | succ n ih =>
    rw [List.range'_1_concat, List.foldl_append, ih]
    simp only [List.foldl_cons, List.foldl_nil]
    omega

/- The launch looks at all attempts of the epic; those of the execution are among them. -/
theorem nextNumber_eq (db : Db) (epicId executionId itemId : UUID)
    (h : ∀ x b, db.attempts.get x = some b → b.executionId = executionId → b.epicId = epicId) :
    nextNumber (db.listAttempts epicId none) executionId itemId =
      1 + (numbersOf db executionId itemId).foldl max 0 := by
  have hperm : ((db.listAttempts epicId none).filter fun a =>
      a.2.executionId == executionId && a.2.itemId == itemId).Perm
        (db.attempts.select fun _ a => a.executionId == executionId && a.itemId == itemId) := by
    refine ((List.perm_insertionSort attemptLe _).filter _).trans (List.Perm.of_eq ?_)
    simp only [Table.select, List.filter_filter]
    refine List.filter_congr ?_
    intro r hr
    cases he : (r.2.executionId == executionId && r.2.itemId == itemId) with
    | false => rfl
    | true =>
      simp only [Bool.and_eq_true, beq_iff_eq] at he
      simp [h r.1 r.2 ((Table.mem_rows_iff _ _ _).mp hr) he.1]
  unfold nextNumber numbersOf
  exact congrArg (1 + ·) (List.Perm.foldl_eq (hperm.map fun a => a.2.attemptNumber) 0)

/- Two attempts of an item with one number are one. -/
theorem Numbered.unique {db : Db} (h : Numbered db) {x y : UUID} {a b : Attempt} (hx : db.attempts.get x = some a)
    (hy : db.attempts.get y = some b) (he : a.executionId = b.executionId) (hi : a.itemId = b.itemId)
    (hn : a.attemptNumber = b.attemptNumber) : x = y ∧ a = b := by
  have hnodup : (numbersOf db b.executionId b.itemId).Nodup := by
    rw [h b.executionId b.itemId]
    exact List.nodup_range'
  have hmem : ∀ z c, db.attempts.get z = some c → c.executionId = b.executionId → c.itemId = b.itemId →
      (z, c) ∈ db.attempts.select fun _ a => a.executionId == b.executionId && a.itemId == b.itemId := by
    intro z c hz hce hci
    rw [Table.mem_select_iff]
    exact ⟨hz, by simp [hce, hci]⟩
  have hsame := List.inj_on_of_nodup_map hnodup (hmem x a hx he hi) (hmem y b hy rfl rfl) hn
  cases hsame
  exact ⟨rfl, rfl⟩

/-! ### Children -/

/-- The attempts and their runs, as every run keeps them. -/
structure Children (db : Db) : Prop where
  present : ∀ x a, db.attempts.get x = some a → (db.runs.get a.runId).isSome = true
  distinct : ∀ x y a b, db.attempts.get x = some a → db.attempts.get y = some b → a.runId = b.runId → x = y
  numbered : Numbered db

theorem children_init (env : Surroundings) : Children (Db.init env) where
  present x a h := by cases h
  distinct x y a b h := by cases h
  numbered executionId itemId := rfl

theorem Quiet.present {db db' : Db} (h : Quiet db db') (r : UUID) (hr : (db.runs.get r).isSome = true) :
    (db'.runs.get r).isSome = true := by
  obtain ⟨run, hrun⟩ := Option.isSome_iff_exists.mp hr
  obtain ⟨run', hrun', -⟩ := h.runs r run hrun
  exact hrun' ▸ rfl

theorem Quiet.children {db db' : Db} (h : Quiet db db') (hc : Children db) : Children db' := by
  refine ⟨?_, ?_, ?_⟩
  · intro x a hx
    rw [h.attempts] at hx
    exact h.present _ (hc.present x a hx)
  · rw [h.attempts]
    exact hc.distinct
  · unfold Numbered numbersOf
    rw [h.attempts]
    exact hc.numbered

section created
variable {db db' : Db} {now : ℤ} {actor : Actor} {epicId : UUID} {key : Str} {request : LaunchRequest}
  {token : Option UUID} {id : UUID} {a : Attempt}

/- An attempt is the one that the launch writes or one that was there. -/
theorem Created.attempt_cases (h : Created db db' now actor epicId key request token id a) (x : UUID) (b : Attempt)
    (hx : db'.attempts.get x = some b) : (x = id ∧ b = a) ∨ db.attempts.get x = some b := by
  rw [h.attempts, Table.get_put] at hx
  split at hx
  · next he =>
    cases hx
    exact Or.inl ⟨he, rfl⟩
  · exact Or.inr hx

/- The run of an older attempt is not the new one. -/
theorem Created.run_ne (h : Created db db' now actor epicId key request token id a) (hc : Children db) (x : UUID)
    (b : Attempt) (hx : db.attempts.get x = some b) : b.runId ≠ a.runId := by
  intro he
  have hpresent := hc.present x b hx
  rw [he, h.run_fresh] at hpresent
  cases hpresent

theorem Created.numbered (h : Created db db' now actor epicId key request token id a) (howned : Owned db)
    (hn : Numbered db) : Numbered db' := by
  have hbound : ∀ x b, db.attempts.get x = some b → b.executionId = a.executionId → b.epicId = epicId := by
    intro x b hx hb
    obtain ⟨e, he, hepic⟩ := howned x b hx
    rw [hb] at he
    rcases h.execution with ⟨-, -, hget⟩ | ⟨-, hnone, -⟩
    · rw [hget] at he
      cases he
      exact hepic.symm
    · rw [hnone] at he
      cases he
  intro e i
  have hold := hn e i
  unfold numbersOf
  rw [h.attempts, Table.select_put_absent _ _ _ _ h.attempt_fresh]
  by_cases hmatch : (a.executionId == e && a.itemId == i) = true
  · have hfacts := hmatch
    simp only [Bool.and_eq_true, beq_iff_eq] at hfacts
    obtain ⟨rfl, rfl⟩ := hfacts
    have hnumber : a.attemptNumber = 1 + (numbersOf db a.executionId a.itemId).length := by
      rw [h.number, nextNumber_eq db epicId a.executionId a.itemId hbound, hold, foldl_max_range', List.length_range']
    simp only [hmatch, if_true, List.map_append, List.map_cons, List.map_nil, List.length_append, List.length_map,
      List.length_cons, List.length_nil, Nat.zero_add]
    rw [List.range'_1_concat, hnumber]
    unfold numbersOf at hold ⊢
    rw [List.length_map] at hold ⊢
    rw [hold]
  · simp only [hmatch, Bool.false_eq_true, if_false, List.append_nil]
    exact hold

theorem Created.children (h : Created db db' now actor epicId key request token id a) (howned : Owned db)
    (hc : Children db) : Children db' := by
  obtain ⟨run, hruns, -⟩ := h.runs
  refine ⟨?_, ?_, h.numbered howned hc.numbered⟩
  · intro x b hx
    rw [hruns]
    rcases h.attempt_cases x b hx with ⟨-, rfl⟩ | hold
    · rw [Table.get_put_self]
      rfl
    · exact put_isSome _ _ _ _ (hc.present x b hold)
  · intro x y b c hx hy hsame
    rcases h.attempt_cases x b hx with ⟨rfl, rfl⟩ | hxold
    · rcases h.attempt_cases y c hy with ⟨rfl, -⟩ | hyold
      · rfl
      · exact absurd hsame.symm (h.run_ne hc y c hyold)
    · rcases h.attempt_cases y c hy with ⟨rfl, rfl⟩ | hyold
      · exact absurd hsame (h.run_ne hc x b hxold)
      · exact hc.distinct x y b c hxold hyold hsame

end created

theorem step_children (cfg : Config) (s : System) (i : Input) (hs : Placed s) (hc : Children s.db) :
    Children (step cfg s i).db := by
  rcases step_cases cfg s i hs with hq | ⟨call, id, a, -, hcreated, -⟩
  · exact hq.children hc
  · exact hcreated.children hs.owned hc

theorem run_children (cfg : Config) (env : Surroundings) (now : ℤ) (l : List Input) :
    Children (run (step cfg) (System.init env now) l).db :=
  (run_invariant (step cfg) (fun s => Placed s ∧ Children s.db)
    (fun s i h => ⟨step_placed cfg s i h.1, step_children cfg s i h.1 h.2⟩) _ l
    ⟨placed_init env now, children_init env⟩).2

/-- In every run, with overrides or without, the attempts of an item in an execution are
numbered one, two, three in the order in which they were launched. -/
theorem attempts_numbered (cfg : Config) (env : Surroundings) (now : ℤ) (l : List Input) (executionId itemId : UUID) :
    numbersOf (run (step cfg) (System.init env now) l).db executionId itemId =
      List.range' 1 (numbersOf (run (step cfg) (System.init env now) l).db executionId itemId).length :=
  (run_children cfg env now l).numbered executionId itemId

/-! ### Launches without an override -/

/-- The input makes no launch that overrides. -/
def Fenced (s : System) (i : Input) : Prop :=
  (callOf s i).all (fun call => !call.request.ownerOverride) = true

instance (s : System) (i : Input) : Decidable (Fenced s i) := by
  unfold Fenced
  infer_instance

/-- The run of the attempt has not ended. -/
def Unfinished (db : Db) (a : Attempt) : Prop :=
  ∃ run, db.runs.get a.runId = some run ∧ isTerminalState run.state = false

/-- An epic has one unfinished child at most. -/
def Alone (db : Db) : Prop :=
  ∀ x y a b, db.attempts.get x = some a → db.attempts.get y = some b → a.epicId = b.epicId →
    Unfinished db a → Unfinished db b → x = y

/- No transaction takes an ended run up again. -/
theorem Quiet.unfinished {db db' : Db} (h : Quiet db db') (hc : Children db) (x : UUID) (a : Attempt)
    (hx : db.attempts.get x = some a) (hu : Unfinished db' a) : Unfinished db a := by
  obtain ⟨run', hrun', hopen⟩ := hu
  obtain ⟨run, hrun⟩ := Option.isSome_iff_exists.mp (hc.present x a hx)
  refine ⟨run, hrun, ?_⟩
  obtain ⟨run'', hrun'', hkept⟩ := h.runs _ run hrun
  rw [hrun'] at hrun''
  cases hrun''
  cases hended : isTerminalState run.state with
  | false => rfl
  | true =>
    rw [hkept hended, hended] at hopen
    cases hopen

/- The run of an older attempt is as it was. -/
theorem Created.unfinished {db db' : Db} {now : ℤ} {actor : Actor} {epicId : UUID} {key : Str}
    {request : LaunchRequest} {token : Option UUID} {id : UUID} {a : Attempt}
    (h : Created db db' now actor epicId key request token id a) (hc : Children db) (x : UUID) (b : Attempt)
    (hx : db.attempts.get x = some b) (hu : Unfinished db' b) : Unfinished db b := by
  obtain ⟨run, hrun, hopen⟩ := hu
  obtain ⟨new, hruns, -⟩ := h.runs
  rw [hruns, Table.get_put_ne _ _ (h.run_ne hc x b hx)] at hrun
  exact ⟨run, hrun, hopen⟩

theorem Admitted.finished {db db' : Db} {o : Outside} {request : LaunchRequest} {a : Attempt}
    (h : Admitted db db' o request a) (x : UUID) (b : Attempt) (hx : db.attempts.get x = some b)
    (hepic : b.epicId = a.epicId) : ¬Unfinished db b := by
  rintro ⟨run, hrun, hopen⟩
  obtain ⟨run', hrun', hended, -⟩ := h.children x b hx hepic
  rw [hrun] at hrun'
  cases hrun'
  rw [hended] at hopen
  cases hopen

theorem step_alone (cfg : Config) (s : System) (i : Input) (hs : Placed s) (hc : Children s.db) (ha : Alone s.db)
    (hf : Fenced s i) : Alone (step cfg s i).db := by
  rcases step_cases cfg s i hs with hq | ⟨call, id, new, hcall, hcreated, hadmitted⟩
  · intro x y a b hx hy hepic hua hub
    rw [hq.attempts] at hx hy
    exact ha x y a b hx hy hepic (hq.unfinished hc x a hx hua) (hq.unfinished hc y b hy hub)
  · have hoverride : call.request.ownerOverride = false := by
      simpa [Fenced, hcall] using hf
    have hended := (hadmitted hoverride).finished
    have hbefore := hcreated.unfinished hc
    intro x y a b hx hy hepic hua hub
    rcases hcreated.attempt_cases x a hx with ⟨rfl, rfl⟩ | hxold
    · rcases hcreated.attempt_cases y b hy with ⟨rfl, -⟩ | hyold
      · rfl
      · exact absurd (hbefore y b hyold hub) (hended y b hyold hepic.symm)
    · rcases hcreated.attempt_cases y b hy with ⟨rfl, rfl⟩ | hyold
      · exact absurd (hbefore x a hxold hua) (hended x a hxold hepic)
      · exact ha x y a b hxold hyold hepic (hbefore x a hxold hua) (hbefore y b hyold hub)

/-- In a run in which no launch overrides, at most one child of an epic is unfinished. -/
theorem one_child_at_a_time (cfg : Config) (env : Surroundings) (now : ℤ) (l : List Input)
    (h : Along (step cfg) Fenced (System.init env now) l) :
    Alone (run (step cfg) (System.init env now) l).db := by
  refine (run_invariant_along (step cfg) Fenced (fun s => (Placed s ∧ Children s.db) ∧ Alone s.db) ?_ _ l
    ⟨⟨placed_init env now, children_init env⟩, ?_⟩ h).2
  · rintro s i ⟨⟨hs, hc⟩, ha⟩ hf
    exact ⟨⟨step_placed cfg s i hs, step_children cfg s i hs hc⟩, step_alone cfg s i hs hc ha hf⟩
  · intro x y a b hx
    cases hx

theorem one_child_at_a_time_sample :
    Alone (run (step sampleConfig) (System.init sampleSurroundings 0) (sampleClaim ++ sampleRace)).db :=
  one_child_at_a_time _ _ _ _ (by decide +kernel)

/-! ### What an admission has checked -/

/-- The rows that a launch without an override found, and the run it made. -/
structure PassedFence (db db' : Db) (o : Outside) (request : LaunchRequest) (id : UUID) (a : Attempt) : Prop where
  new : db.attempts.get id = none ∧ db'.attempts.get id = some a
  children : ∀ x b, db.attempts.get x = some b → b.epicId = a.epicId →
    ∃ run, db.runs.get b.runId = some run ∧ isTerminalState run.state = true ∧ db.isQuiescent b.runId = true
  control : controlState db' a.executionId = some .active ∧
    ∀ e, request.executionId = some e → e = a.executionId ∧ controlState db e = some .active
  latest : ∀ x b, db.attempts.get x = some b → b.executionId = a.executionId → b.itemDisposition = .required →
    (∀ y c, db.attempts.get y = some c → c.executionId = a.executionId → c.itemId = b.itemId →
      c.itemDisposition = .required → c.attemptNumber ≤ b.attemptNumber) →
    ∃ run, db.runs.get b.runId = some run ∧ run.state ≠ .failed ∧ run.state ≠ .cancelled
  item : ∃ graph, db.env.graphs a.epicId request.graphRevisionId = some graph ∧ ∃ item ∈ graph.items,
    item.itemId = request.itemId ∧ item.disposition ≠ .deferred ∧ ∃ turn, ∀ d ∈ item.dependencyItemIds,
      VerifiedAt db (o.turns turn).git a.executionId d a.baseRef a.baseSha
  run : ∃ run, db'.runs.get a.runId = some run ∧ run.state = .created ∧ run.baseRef = some a.baseRef ∧
    run.baseSha = some a.baseSha

theorem controlState_eq (db : Db) (e : UUID) (hsome : (db.controls.get e).isSome = true)
    (hall : (controlState db e).all (· == .active) = true) : controlState db e = some .active := by
  obtain ⟨control, hget⟩ := Option.isSome_iff_exists.mp hsome
  simpa [controlState, hget] using hall

theorem passedFence (db db' : Db) (now : ℤ) (actor : Actor) (epicId : UUID) (key : Str) (request : LaunchRequest)
    (token : Option UUID) (o : Outside) (id : UUID) (a : Attempt) (howned : Owned db) (hn : Numbered db)
    (hcontrols : ∀ e, (db.executions.get e).isSome = true → (db.controls.get e).isSome = true)
    (h : Created db db' now actor epicId key request token id a) (ha : Admitted db db' o request a) :
    PassedFence db db' o request id a := by
  have hattempt : db'.attempts.get id = some a := by
    rw [h.attempts, Table.get_put_self]
  refine ⟨⟨h.attempt_fresh, hattempt⟩, ha.children, ⟨?_, ?_⟩, ?_, ?_, ?_⟩
  · refine controlState_eq db' _ ?_ ha.control
    rcases h.execution with ⟨-, -, hget⟩ | ⟨hnew, -, -⟩
    · have hexists : (db.executions.get a.executionId).isSome = true := hget ▸ rfl
      obtain ⟨c, hold⟩ := Option.isSome_iff_exists.mp (hcontrols _ hexists)
      obtain ⟨c', hnew⟩ := h.controls.kept _ c hold
      exact hnew ▸ rfl
    · obtain ⟨c, hget⟩ := h.control hnew
      exact hget ▸ rfl
  · intro e he
    rcases h.execution with ⟨hsome, -, hget⟩ | ⟨hnew, -, -⟩
    · rw [he] at hsome
      cases hsome
      exact ⟨rfl, controlState_eq db _ (hcontrols _ (hget ▸ rfl)) (ha.control_before _ he)⟩
    · rw [he] at hnew
      cases hnew
  · intro x b hx hb hr hmax
    have hepic : b.epicId = a.epicId := by
      obtain ⟨e, he, hepic⟩ := howned x b hx
      rw [hb] at he
      rcases h.execution with ⟨-, -, hget⟩ | ⟨-, hnone, -⟩
      · rw [hget] at he
        cases he
        exact hepic.symm.trans h.epic.symm
      · rw [hnone] at he
        cases he
    obtain ⟨y, c, hy, hc, hitem, hcr, hle, hrun⟩ := ha.latest x b hx hepic hb hr
    obtain ⟨-, rfl⟩ := hn.unique hx hy (hb.trans hc.symm) hitem.symm (le_antisymm hle (hmax y c hy hc hitem hcr))
    exact hrun
  · obtain ⟨graph, hgraph, item, hmem, hid, hdeferred, hverified⟩ := ha.item
    exact ⟨graph, hgraph, item, hmem, hid.trans h.item, hdeferred, hverified⟩
  · obtain ⟨run, hruns, hrun⟩ := h.runs
    exact ⟨run, by rw [hruns, Table.get_put_self], hrun⟩

/-- At the end of every run, a launch without an override that succeeds is the answer of
an earlier one, which changes nothing, or has passed the fence. -/
theorem launch_admitted (cfg : Config) (env : Surroundings) (now : ℤ) (l : List Input) (actor : Actor)
    (epicId : UUID) (key : Str) (request : LaunchRequest) (token : Option UUID) (o : Outside) (id : UUID)
    (a : Attempt) (db' : Db) (hoverride : request.ownerOverride = false)
    (h : launch cfg (run (step cfg) (System.init env now) l).db (run (step cfg) (System.init env now) l).now
      actor epicId key request token o = (.ok (id, a), db')) :
    ((run (step cfg) (System.init env now) l).db.attempts.get id = some a ∧
        db' = (run (step cfg) (System.init env now) l).db) ∨
      PassedFence (run (step cfg) (System.init env now) l).db db' o request id a := by
  have hs := run_placed cfg env now l
  have hc := run_children cfg env now l
  rcases launch_cases cfg (run (step cfg) (System.init env now) l).db (run (step cfg) (System.init env now) l).now
    actor epicId key request token o with ⟨handoffs, -, hreplay⟩ | ⟨id', a', hok, hcreated, hadmitted⟩
  · rw [h] at hreplay
    obtain ⟨hrecorded, hsame⟩ := hreplay id a rfl
    exact Or.inl ⟨hrecorded.attempt, hsame⟩
  · rw [h] at hok hcreated hadmitted
    cases hok
    exact Or.inr (passedFence _ _ _ _ _ _ _ _ _ _ _ hs.owned hc.numbered hs.controls hcreated (hadmitted hoverride))

theorem ok_of_isOk {ε α : Type} (r : Except ε α) (h : r.isOk = true) : ∃ a, r = .ok a := by
  cases r with
  | ok a => exact ⟨a, rfl⟩
  | error e => cases h

theorem pair_of_isOk {ε α β : Type} (r : Except ε α × β) (h : r.1.isOk = true) : ∃ a b, r = (.ok a, b) := by
  obtain ⟨a, ha⟩ := ok_of_isOk r.1 h
  exact ⟨a, r.2, Prod.ext ha rfl⟩

theorem launch_admitted_sample :
    ∃ id a db', sampleCall.launch sampleConfig (run (step sampleConfig) (System.init sampleSurroundings 0)
        sampleClaim) = (.ok (id, a), db') ∧
      (((run (step sampleConfig) (System.init sampleSurroundings 0) sampleClaim).db.attempts.get id = some a ∧
          db' = (run (step sampleConfig) (System.init sampleSurroundings 0) sampleClaim).db) ∨
        PassedFence (run (step sampleConfig) (System.init sampleSurroundings 0) sampleClaim).db db'
          (sampleOutside 30) sampleRequest id a) := by
  obtain ⟨⟨id, a⟩, db', h⟩ := pair_of_isOk (sampleCall.launch sampleConfig (run (step sampleConfig)
    (System.init sampleSurroundings 0) sampleClaim)) (by decide +kernel)
  exact ⟨id, a, db', h, launch_admitted _ _ _ _ _ _ _ _ _ _ _ _ _ rfl h⟩

/-! ### Repeated calls -/

theorem launch_of_recorded (cfg : Config) (db : Db) (now : ℤ) (actor : Actor) (epicId : UUID) (key : Str)
    (request : LaunchRequest) (token : Option UUID) (o : Outside) (id : UUID) (a : Attempt)
    (h : Recorded db actor.actorId epicId key request id a) :
    launch cfg db now actor epicId key request token o = (.ok (id, a), db) := by
  obtain ⟨receipt, hget, hrequest, hid⟩ := h.receipt
  have hattempt : getAttempt db epicId receipt.resourceId = .ok (id, a) := by
    simp only [getAttempt, bind_eq_ok, orRaise_eq_ok, require_eq_ok, hid]
    exact ⟨a, h.attempt, (), h.epic, rfl⟩
  unfold launch
  rw [reserve_replay db actor.actorId .itemLaunch key _ receipt h.valid hget hrequest]
  exact congrArg (·, db) hattempt

theorem recorded_of_launch (cfg : Config) (db db' : Db) (now : ℤ) (actor : Actor) (epicId : UUID) (key : Str)
    (request : LaunchRequest) (token : Option UUID) (o : Outside) (id : UUID) (a : Attempt)
    (h : launch cfg db now actor epicId key request token o = (.ok (id, a), db')) :
    Recorded db' actor.actorId epicId key request id a := by
  rcases launch_cases cfg db now actor epicId key request token o with
    ⟨handoffs, -, hreplay⟩ | ⟨id', a', hok, hcreated, -⟩
  · rw [h] at hreplay
    obtain ⟨hrecorded, rfl⟩ := hreplay id a rfl
    exact hrecorded
  · rw [h] at hok hcreated
    cases hok
    obtain ⟨receipt, hreceipts, hfacts⟩ := hcreated.receipts
    refine ⟨hcreated.valid, ⟨receipt, ?_, hfacts⟩, ?_, hcreated.epic⟩
    · rw [hreceipts, Table.get_put_self]
    · rw [hcreated.attempts, Table.get_put_self]

theorem step_recorded (cfg : Config) (s : System) (i : Input) (hs : Placed s) (actorId epicId : UUID) (key : Str)
    (request : LaunchRequest) (id : UUID) (a : Attempt) (h : Recorded s.db actorId epicId key request id a) :
    Recorded (step cfg s i).db actorId epicId key request id a := by
  obtain ⟨hreceipts, hattempts⟩ := step_keeps cfg s i hs
  obtain ⟨receipt, hget, hfacts⟩ := h.receipt
  exact ⟨h.valid, ⟨receipt, hreceipts _ _ hget, hfacts⟩, hattempts _ _ h.attempt, h.epic⟩

/-- A call that has once succeeded is answered by its attempt ever after, whoever of the
owner's sessions repeats it and whatever has happened since, and changes nothing. -/
theorem launch_replayed (cfg cfg' : Config) (env : Surroundings) (now : ℤ) (l m : List Input) (i : Input)
    (call : LaunchCall) (id : UUID) (a : Attempt) (actor : Actor) (token : Option UUID) (o : Outside)
    (hcall : callOf (run (step cfg) (System.init env now) l) i = some call)
    (hok : (call.launch cfg (run (step cfg) (System.init env now) l)).1 = .ok (id, a))
    (hactor : actor.actorId = call.actor.actorId) :
    launch cfg' (run (step cfg) (System.init env now) (l ++ i :: m)).db
        (run (step cfg) (System.init env now) (l ++ i :: m)).now actor call.epicId call.key call.request token o =
      (.ok (id, a), (run (step cfg) (System.init env now) (l ++ i :: m)).db) := by
  have hs := run_placed cfg env now l
  have hfirst : Recorded (step cfg (run (step cfg) (System.init env now) l) i).db call.actor.actorId call.epicId
      call.key call.request id a := by
    rw [step_of_call cfg _ i call hcall]
    exact recorded_of_launch cfg _ _ _ _ _ _ _ _ _ _ _ (Prod.ext hok rfl)
  have hlast : Recorded (run (step cfg) (System.init env now) (l ++ i :: m)).db call.actor.actorId call.epicId
      call.key call.request id a := by
    rw [show run (step cfg) (System.init env now) (l ++ i :: m) =
      run (step cfg) (step cfg (run (step cfg) (System.init env now) l) i) m from List.foldl_append]
    exact (run_invariant (step cfg) (fun s => Placed s ∧ Recorded s.db call.actor.actorId call.epicId call.key
        call.request id a) (fun s j h => ⟨step_placed cfg s j h.1, step_recorded cfg s j h.1 _ _ _ _ _ _ h.2⟩) _ m
      ⟨step_placed cfg _ i hs, hfirst⟩).2
  exact launch_of_recorded cfg' _ _ actor _ _ _ token o id a (hactor ▸ hlast)

theorem launch_replayed_sample :
    ∃ id a, launch sampleConfig (run (step sampleConfig) (System.init sampleSurroundings 0)
        (sampleClaim ++ sampleRace)).db 0 ⟨7, 9⟩ 1 (codes "manual") sampleRequest none (sampleOutside 50) =
      (.ok (id, a), (run (step sampleConfig) (System.init sampleSurroundings 0) (sampleClaim ++ sampleRace)).db) := by
  obtain ⟨⟨id, a⟩, db', h⟩ := pair_of_isOk (sampleCall.launch sampleConfig (run (step sampleConfig)
    (System.init sampleSurroundings 0) sampleClaim)) (by decide +kernel)
  exact ⟨id, a, launch_replayed sampleConfig sampleConfig sampleSurroundings 0 sampleClaim sampleRace.tail
    sampleLaunch sampleCall id a ⟨7, 9⟩ none (sampleOutside 50) rfl (congrArg Prod.fst h) rfl⟩

end ParallelForge.EpicRun
