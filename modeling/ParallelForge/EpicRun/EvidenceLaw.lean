import ParallelForge.EpicRun.Launch

/-!
# What verified evidence rests on

A dependency reported as verified has a completed attempt at rest, on the branch of
the base, whose merge Git found in that very base. The loop of a launch ends with a
report on the base it goes on with, and its index keeps only what was reported.
-/

namespace ParallelForge.EpicRun
open Base Epic Run

/-- An attempt of the item is merged into the base. -/
structure MergedInto (db : Db) (git : Git) (executionId itemId : UUID) (baseRef baseSha : String) (b : Attempt)
    (run : RunSnapshot) (pull : PullRow) (mergeSha : String) : Prop where
  attempt : ∃ x, db.attempts.get x = some b
  execution : b.executionId = executionId
  item : b.itemId = itemId
  branch : b.baseRef = baseRef
  loaded : db.runs.get b.runId = some run
  completed : run.state = .completed
  quiescent : db.isQuiescent b.runId = true
  opened : db.env.pulls b.runId = some pull
  merged : pull.merged = true ∧ pull.mergeSha = some mergeSha
  head : git.inspect.any (·.baseSha == baseSha) = true
  integrated : git.provesIntegration baseSha mergeSha = true

def VerifiedAt (db : Db) (git : Git) (executionId itemId : UUID) (baseRef baseSha : String) : Prop :=
  ∃ b run pull mergeSha, MergedInto db git executionId itemId baseRef baseSha b run pull mergeSha

section evidence
variable {db : Db} {git : Git} {projectId : UUID} {project : Project}

theorem completedRun_spec (attempt : Attempt) (run : RunSnapshot)
    (h : completedRun db projectId project attempt = some run) :
    db.runs.get attempt.runId = some run ∧ run.state = .completed ∧ attempt.baseRef = project.integrationRef ∧
      db.isQuiescent attempt.runId = true := by
  simp only [completedRun, Option.bind_eq_bind, Option.bind_eq_some_iff, Option.guard_eq_some', Option.pure_def,
    Option.some.injEq] at h
  obtain ⟨r, hrun, -, hstate, -, href, -, hquiet, rfl⟩ := h
  exact ⟨hrun, hstate.1, href, hquiet⟩

theorem proofOf_spec (baseSha : String) (attempt : Attempt) (proof : MergeProof)
    (h : proofOf db git projectId project baseSha attempt = some proof) :
    ∃ run pull mergeSha, completedRun db projectId project attempt = some run ∧
      db.env.pulls attempt.runId = some pull ∧ (pull.merged = true ∧ pull.mergeSha = some mergeSha) ∧
      git.provesIntegration baseSha mergeSha = true := by
  simp only [proofOf, Option.bind_eq_bind, Option.bind_eq_some_iff, Option.guard_eq_some'] at h
  obtain ⟨run, hrun, pull, hpull, -, hmerged, intentId, -, mergeSha, hsha, intent, -, -, -, event, -, -, -, h⟩ := h
  split at h
  · split at h
    · next hproves => exact ⟨run, pull, mergeSha, hrun, hpull, ⟨hmerged, hsha⟩, hproves⟩
    · cases h
  · cases h

theorem scanAttempts_some (executionId itemId handoffId : UUID) (baseSha : String)
    (attempts : List (UUID × Attempt)) : ∀ (handoffs : Handoffs) (handoff : Option Handoff) (v : DependencyEvidence),
    (scanAttempts db git projectId project executionId itemId handoffId baseSha handoffs handoff attempts).1 = some v →
    v.itemId = itemId ∧ ∃ x ∈ attempts, ∃ proof, proofOf db git projectId project baseSha x.2 = some proof := by
  induction attempts with
  | nil =>
    intro handoffs handoff v h
    cases h
  | cons first attempts ih =>
    intro handoffs handoff v h
    obtain ⟨attemptId, attempt⟩ := first
    have hrest : (v.itemId = itemId ∧ ∃ x ∈ attempts, ∃ proof, proofOf db git projectId project baseSha x.2 = some proof) →
        v.itemId = itemId ∧ ∃ x ∈ (attemptId, attempt) :: attempts, ∃ proof,
          proofOf db git projectId project baseSha x.2 = some proof := by
      rintro ⟨hitem, x, hx, hproof⟩
      exact ⟨hitem, x, List.mem_cons_of_mem _ hx, hproof⟩
    simp only [scanAttempts] at h
    split at h
    · exact hrest (ih _ _ v h)
    · next proof hproof =>
      split at h
      · exact hrest (ih _ _ v h)
      · split at h
        · cases h
          exact ⟨rfl, (attemptId, attempt), List.mem_cons_self, proof, hproof⟩
        · exact hrest (ih _ _ v h)

theorem mem_itemAttempts (executionId itemId : UUID) (x : UUID × Attempt)
    (h : x ∈ itemAttempts db executionId itemId) :
    db.attempts.get x.1 = some x.2 ∧ x.2.executionId = executionId ∧ x.2.itemId = itemId := by
  have hmem := List.mem_of_mem_take h
  rw [List.mem_insertionSort, Table.mem_select_iff, Bool.and_eq_true, beq_iff_eq, beq_iff_eq] at hmem
  exact hmem

/- Evidence of one item names it, and is verified on the strength of a merged attempt. -/
theorem one_spec (executionId itemId handoffId : UUID) (baseRef baseSha : String) (handoffs : Handoffs)
    (hv : (one db git projectId project executionId itemId handoffId baseSha (refOk git project baseRef baseSha)
      handoffs).1.status = .verified) :
    VerifiedAt db git executionId itemId baseRef baseSha := by
  unfold one at hv
  split at hv
  · cases hv
  · next newest older hattempts =>
    split at hv
    · cases hv
    · next hok =>
      simp only [Bool.not_eq_false, refOk, Bool.and_eq_true, beq_iff_eq] at hok
      split at hv
      · next v handoffs' hscan =>
        obtain ⟨-, x, hx, proof, hproof⟩ := scanAttempts_some executionId itemId handoffId baseSha _ _ _ v
          (congrArg Prod.fst hscan)
        rw [← hattempts] at hx
        obtain ⟨hget, hexecution, hitem⟩ := mem_itemAttempts executionId itemId x hx
        obtain ⟨run, pull, mergeSha, hcompleted, hpull, hmerged, hproves⟩ := proofOf_spec baseSha x.2 proof hproof
        obtain ⟨hrun, hstate, href, hquiet⟩ := completedRun_spec x.2 run hcompleted
        exact ⟨x.2, run, pull, mergeSha, ⟨x.1, hget⟩, hexecution, hitem, href.trans hok.1.1.symm, hrun, hstate,
          hquiet, hpull, hmerged, hok.2, hproves⟩
      · cases hv

theorem one_itemId (executionId itemId handoffId : UUID) (baseSha : String) (ok : Bool) (handoffs : Handoffs) :
    (one db git projectId project executionId itemId handoffId baseSha ok handoffs).1.itemId = itemId := by
  unfold one
  split
  · rfl
  · split
    · rfl
    · split
      · next v handoffs' hscan =>
        exact (scanAttempts_some executionId itemId handoffId baseSha _ _ _ v (congrArg Prod.fst hscan)).1
      · rfl

theorem evidenceOf_spec (executionId : UUID) (handoffId : UUID → UUID) (baseRef baseSha : String)
    (itemIds : List UUID) : ∀ (handoffs : Handoffs), ∀ v ∈ (evidenceOf db git projectId project executionId handoffId
      baseSha (refOk git project baseRef baseSha) itemIds handoffs).1, v.status = .verified →
    VerifiedAt db git executionId v.itemId baseRef baseSha := by
  induction itemIds with
  | nil =>
    intro handoffs v hv
    cases hv
  | cons itemId itemIds ih =>
    intro handoffs v hv hstatus
    simp only [evidenceOf] at hv
    rcases List.mem_cons.mp hv with rfl | hv
    · rw [one_itemId]
      exact one_spec executionId itemId (handoffId itemId) baseRef baseSha handoffs hstatus
    · exact ih _ v hv hstatus

end evidence

theorem evidence_spec (db : Db) (git : Git) (handoffId : UUID → UUID) (handoffs handoffs' : Handoffs)
    (epicId executionId : UUID) (itemIds : List UUID) (baseRef baseSha : String) (reported : List DependencyEvidence)
    (h : evidence db git handoffId handoffs epicId executionId itemIds baseRef baseSha = .ok (reported, handoffs')) :
    ∀ v ∈ reported, v.status = .verified → VerifiedAt db git executionId v.itemId baseRef baseSha := by
  simp only [evidence, bind_eq_ok, require_eq_ok] at h
  obtain ⟨-, -, frozen, -, -, -, h⟩ := h
  intro v hv hstatus
  have hlist : reported = (evidenceOf db git frozen.projectId frozen.project executionId handoffId baseSha
      (refOk git frozen.project baseRef baseSha) itemIds handoffs).1 := congrArg Prod.fst (Except.ok.inj h).symm
  rw [hlist] at hv
  exact evidenceOf_spec executionId handoffId baseRef baseSha itemIds handoffs v hv hstatus

/- The loop ends with the report of a turn on the base it ends with. -/
theorem settleBase_spec (db : Db) (epicId : UUID) (p : Prepared) (turns : List Turn) :
    ∀ (first inspection : Inspection) (handoffs handoffs' : Handoffs) (reported : List DependencyEvidence),
    settleBase db epicId p turns first handoffs = (.ok (inspection, some reported), handoffs') →
    ∃ turn ∈ turns, ∃ h h', report db epicId p inspection turn h = .ok (reported, h') := by
  induction turns with
  | nil =>
    intro first inspection handoffs handoffs' reported h
    cases h
  | cons turn turns ih =>
    intro first inspection handoffs handoffs' reported h
    rw [settleBase] at h
    split at h
    · cases h
    · next found handoffs₁ hreport =>
      split at h
      · cases h
      · split at h
        · cases h
          exact ⟨turn, List.mem_cons_self, handoffs, handoffs', hreport⟩
        · obtain ⟨later, hlater, hr⟩ := ih _ inspection _ handoffs' reported h
          exact ⟨later, List.mem_cons_of_mem _ hlater, hr⟩

theorem indexNext_spec (durable : DependencyEvidence → Bool) (dependencies : List UUID)
    (indexed indexed' : Table UUID DependencyEvidence) (w : DependencyEvidence)
    (h : indexNext durable dependencies indexed w = .ok indexed') (id : UUID) (v : DependencyEvidence)
    (hv : indexed'.get id = some v) : indexed.get id = some v ∨ (v = w ∧ v.itemId = id) := by
  simp only [indexNext, bind_eq_ok, require_eq_ok] at h
  obtain ⟨-, -, h⟩ := h
  split at h
  · simp only [bind_eq_ok, require_eq_ok] at h
    obtain ⟨-, -, h⟩ := h
    cases h
    rw [Table.get_put] at hv
    split at hv
    · next hid =>
      cases hv
      exact Or.inr ⟨rfl, hid.symm⟩
    · exact Or.inl hv
  · cases h
    exact Or.inl hv

/- What the index holds was reported. -/
theorem indexFold_spec (durable : DependencyEvidence → Bool) (dependencies : List UUID)
    (reported : List DependencyEvidence) : ∀ (start indexed : Table UUID DependencyEvidence),
    reported.foldlM (indexNext durable dependencies) start = .ok indexed → ∀ id v, indexed.get id = some v →
    start.get id = some v ∨ (v ∈ reported ∧ v.itemId = id) := by
  induction reported with
  | nil =>
    intro start indexed h id v hv
    cases h
    exact Or.inl hv
  | cons w reported ih =>
    intro start indexed h id v hv
    rw [List.foldlM_cons, bind_eq_ok] at h
    obtain ⟨next, hnext, h⟩ := h
    rcases ih next indexed h id v hv with hlater | ⟨hmem, hid⟩
    · rcases indexNext_spec durable dependencies start next w hnext id v hlater with hstart | ⟨rfl, hid⟩
      · exact Or.inl hstart
      · exact Or.inr ⟨List.mem_cons_self, hid⟩
    · exact Or.inr ⟨List.mem_cons_of_mem _ hmem, hid⟩

theorem indexEvidence_spec (durable : DependencyEvidence → Bool) (dependencies : List UUID)
    (reported : List DependencyEvidence) (indexed : Table UUID DependencyEvidence)
    (h : indexEvidence durable dependencies reported = .ok indexed) (id : UUID) (v : DependencyEvidence)
    (hv : indexed.get id = some v) : v ∈ reported ∧ v.itemId = id := by
  rcases indexFold_spec durable dependencies reported Table.empty indexed h id v hv with hempty | hfound
  · cases hempty
  · exact hfound

/-- Evidence that is verified throughout has a verified dependency behind each of its entries. -/
theorem dependencies_verified (db : Db) (epicId : UUID) (o : Outside) (p : Prepared) (inspection : Inspection)
    (reported : List DependencyEvidence) (handoffs : Handoffs) (indexed : Table UUID DependencyEvidence)
    (hsettled : settleBase db epicId p (List.ofFn o.turns) p.inspection db.handoffs =
      (.ok (inspection, some reported), handoffs))
    (hindexed : indexEvidence o.durable p.item.dependencyItemIds reported = .ok indexed)
    (hall : ∀ v ∈ dependencyEvidence p.item.dependencyItemIds indexed, v.status = .verified) :
    ∃ turn, ∀ d ∈ p.item.dependencyItemIds,
      VerifiedAt db (o.turns turn).git p.executionId d inspection.baseRef inspection.baseSha := by
  obtain ⟨turn, hturn, h₁, h₂, hreport⟩ := settleBase_spec db epicId p _ _ _ _ _ _ hsettled
  obtain ⟨i, rfl⟩ := List.mem_ofFn.mp hturn
  refine ⟨i, fun d hd => ?_⟩
  have hmem := hall _ (List.mem_map_of_mem hd)
  cases hget : indexed.get d with
  | none =>
    rw [hget] at hmem
    cases hmem
  | some v =>
    rw [hget] at hmem
    obtain ⟨hv, hitem⟩ := indexEvidence_spec _ _ _ _ hindexed d v hget
    unfold report at hreport
    split at hreport
    · cases hreport
      cases hv
    · rw [← hitem]
      exact evidence_spec db _ _ _ _ epicId p.executionId _ _ _ reported hreport v hv hmem

end ParallelForge.EpicRun
