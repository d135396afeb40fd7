import ParallelForge.Release.Writes
import ParallelForge.Operation.Recovery

/-!
# What a merge outcome says

Against every conversation with GitHub: at most one write, FAILED only where
that write was not sent or was refused for certain, SUCCEEDED only with the
approved pull request shown merged, or with a receipt bound to it. Everything
else raises, and the executor leaves the intent unresolved.
-/

namespace ParallelForge.Release
open Base Operation
open Value hiding none

section operations
variable (red : Durability) (codec : Codec) (wire : Wire)

theorem getBase_within (repository branch : String) :
    Talking.Within Silent Anything (getBase repository branch) :=
  Talking.within_bind _ _ (Talking.within_ask _ fun _ => rfl) fun _ =>
    Talking.within_lift _ (raises_anything _)

theorem getChecks_within (repository ref : String) :
    Talking.Within Silent Anything (getChecks repository ref) :=
  Talking.within_bind _ _ (Talking.within_ask _ fun _ => rfl) fun _ =>
    Talking.within_lift _ (raises_anything _)

theorem getReviews_within (repository : String) (n : ℤ) :
    Talking.Within Silent Anything (getReviews repository n) :=
  Talking.within_bind _ _ (Talking.within_ask _ fun _ => rfl) fun _ =>
    Talking.within_lift _ (raises_anything _)

theorem getMergeProtection_within (repository branch : String) :
    Talking.Within Silent Anything (getMergeProtection repository branch) :=
  Talking.within_bind _ _ (Talking.within_ask _ fun _ => rfl) fun _ =>
    Talking.within_lift _ (raises_anything _)

theorem currentEvidence_within : Talking.Within Silent Anything currentEvidence :=
  Talking.within_bind _ _ (Talking.within_ask _ fun _ => rfl) fun _ =>
    Talking.within_lift _ (raises_anything _)

theorem within_anything {α : Type} (p : Client α) (h : Talking.Within Silent FromAdapter p) :
    Talking.Within Silent Anything p :=
  fun c tr r c' hr => ⟨(h c tr r c' hr).1, raises_anything r⟩

/- The preflight only reads. -/
theorem preflight_within (record : ReleaseRecord) (approved current : MergePublicationEvidence) :
    Talking.Within Silent Anything (preflight codec wire record approved current) := by
  have check : ∀ x : Except Raised Unit,
      Talking.Within Silent Anything (Talking.lift x : Client Unit) :=
    fun x => Talking.within_lift x (raises_anything x)
  refine Talking.within_bind _ _ (check _) fun _ => ?_
  refine Talking.within_bind _ _ (within_anything _ (getPullRequest_within wire _ _)) fun pull => ?_
  refine Talking.within_bind _ _ (check _) fun _ => ?_
  refine Talking.within_bind _ _ (check _) fun _ => ?_
  refine Talking.within_bind _ _ (within_anything _ (getBranchSha_within wire _ _)) fun head => ?_
  refine Talking.within_bind _ _ (check _) fun _ => ?_
  refine Talking.within_bind _ _ (getBase_within _ _) fun baseSha => ?_
  refine Talking.within_bind _ _ (check _) fun _ => ?_
  refine Talking.within_bind _ _ (getChecks_within _ _) fun checks => ?_
  refine Talking.within_bind _ _ (getReviews_within _ _) fun reviews => ?_
  refine Talking.within_bind _ _ (check _) fun _ => ?_
  refine Talking.within_bind _ _ (getMergeProtection_within _ _) fun protection => ?_
  exact Talking.within_bind _ _ (check _) fun _ => Talking.within_pure pull

theorem queueRequired_within (approved : MergePublicationEvidence) :
    Talking.Within Silent Anything (queueRequired codec approved) := by
  refine Talking.within_bind _ _ (getMergeProtection_within _ _) fun protection => ?_
  refine Talking.within_bind _ _ (Talking.within_lift _ (raises_anything _)) fun _ => ?_
  exact Talking.within_pure _

theorem observePull_within (record : ReleaseRecord) (approved : MergePublicationEvidence) :
    Talking.Within Silent Anything (observePull wire record approved) := by
  refine Talking.within_bind _ _ (within_anything _ (getPullRequest_within wire _ _)) fun pull => ?_
  refine Talking.within_bind _ _ (Talking.within_lift _ (raises_anything _)) fun _ => ?_
  exact Talking.within_pure _

/-- The merge request of an operation. -/
def MergeOperation.sends (op : MergeOperation) (token : String) : Request :=
  mergeRequest op.approved.repository op.approved.pullRequestNumber op.approved.headSha
    op.approved.mergeMethod token

/-- The pull request is the approved one, merged and closed with a commit. -/
structure ApprovedMerge (op : MergeOperation) (pull : GitHubPullRequest) : Prop where
  number : pull.number = op.approved.pullRequestNumber
  headSha : pull.headSha = op.approved.headSha
  baseRepository : pull.baseRepository = op.approved.repository
  headRepository : pull.headRepository = op.approved.repository
  baseRef : pull.baseRef = branchOf op.approved.baseRef
  recorded : pull.number = op.record.pullRequest.number ∧
    pull.nodeId = op.record.pullRequest.nodeId ∧ pull.url = op.record.pullRequest.url ∧
    pull.headRepository = op.record.pullRequest.headRepository ∧
    pull.baseRepository = op.record.pullRequest.baseRepository ∧
    pull.headRef = op.record.pullRequest.headRef ∧ pull.baseRef = op.record.pullRequest.baseRef
  merged : pull.merged = true
  closed : pull.state = "closed"
  mergeSha : ∃ s, pull.mergeSha = some s ∧ isHexOfLength 40 s = true

/-- A success with this payload. -/
def Succeeds (o : OperationOutcome red) (remote : String) (payload : Dict) : Prop :=
  o.status = .succeeded ∧ o.remoteResourceId = some remote ∧ wire.write payload = some o.payload

theorem makeOutcome_ok (remote : Option String) (payload : Dict) (status : OperationStatus)
    (error : Option String) (o : OperationOutcome red)
    (h : makeOutcome red wire remote payload status error = .ok o) :
    o.status = status ∧ o.remoteResourceId = remote ∧ wire.write payload = some o.payload := by
  simp only [makeOutcome, bind_eq_ok, orRaise_eq_ok] at h
  obtain ⟨stored, hs, h⟩ := h
  split at h
  · cases h
    exact ⟨rfl, rfl, hs⟩
  · cases h

theorem failedOutcome_status (error : String) (o : OperationOutcome red)
    (h : failedOutcome red wire error = .ok o) : o.status = .failed :=
  (makeOutcome_ok red wire _ _ _ _ o h).1

theorem outcome_ok (op : MergeOperation) (pull : GitHubPullRequest) (o : OperationOutcome red)
    (h : outcome red wire op.record op.approved pull = .ok o) :
    ApprovedMerge op pull ∧ Succeeds red wire o pull.nodeId pull.asdict := by
  simp only [outcome, requireIdentity, requireMerged, bind_eq_ok, require_eq_ok] at h
  obtain ⟨_, hid, _, ⟨hmerged, hclosed, hsha⟩, hmake⟩ := h
  simp only [sameIdentity, Bool.and_eq_true, decide_eq_true_eq] at hid
  obtain ⟨⟨⟨⟨⟨⟨⟨⟨⟨⟨⟨h₁, h₂⟩, h₃⟩, h₄⟩, h₅⟩, h₆⟩, h₇⟩, h₈⟩, h₉⟩, h₁₀⟩, h₁₁⟩, h₁₂⟩ := hid
  refine ⟨⟨h₁, h₁₀, h₇, h₅, h₁₁, ⟨h₂, h₃, h₄, h₆, h₈, h₉, h₁₂⟩, hmerged, hclosed, ?_⟩,
    makeOutcome_ok red wire _ _ _ _ o hmake⟩
  cases hs : pull.mergeSha with
  | none => simp [hs] at hsha
  | some s => exact ⟨s, rfl, by simpa [hs] using hsha⟩

/-- What one call of the merge operation came to. -/
def MergeEnds (op : MergeOperation) (tr : Spoken) (r : Except Raised (OperationOutcome red)) : Prop :=
  (writes tr = [] ∧ ∀ o, r = .ok o → o.status = .failed) ∨
  ∃ tr₁ tr₂ token reply, tr = tr₁ ++ tr₂ ∧ writes tr₁ = [(op.sends token, reply)] ∧
    writes tr₂ = [] ∧ ∀ o, r = .ok o →
      (o.status = .failed ∧ MergeRefused reply) ∨
      (MergeAcknowledged reply ∧ ∃ v pull, pullRequest wire v op.approved.repository = .ok pull ∧
        (∃ x ∈ tr₂, Answered (pullPath op.approved.repository op.approved.pullRequestNumber) v x) ∧
        ApprovedMerge op pull ∧ Succeeds red wire o pull.nodeId pull.asdict)

/- Silent talk before it changes nothing. -/
theorem mergeEnds_after (op : MergeOperation) (tr₀ tr : Spoken)
    (r : Except Raised (OperationOutcome red)) (h₀ : writes tr₀ = [])
    (h : MergeEnds red wire op tr r) : MergeEnds red wire op (tr₀ ++ tr) r := by
  rcases h with ⟨hw, ho⟩ | ⟨tr₁, tr₂, token, reply, rfl, hw₁, hw₂, ho⟩
  · exact .inl ⟨by rw [writes_append, h₀, hw, List.nil_append], ho⟩
  · refine .inr ⟨tr₀ ++ tr₁, tr₂, token, reply, (List.append_assoc ..).symm, ?_, hw₂, ho⟩
    rw [writes_append, h₀, hw₁, List.nil_append]

/- A call that failed without a write. -/
theorem mergeEnds_failed (op : MergeOperation) (tr : Spoken) (error : String)
    (hw : writes tr = []) : MergeEnds red wire op tr (failedOutcome red wire error) :=
  .inl ⟨hw, fun o ho => failedOutcome_status red wire error o ho⟩

theorem mergeEnds_raised (op : MergeOperation) (tr : Spoken) (e : Raised)
    (h : writes tr = [] ∨ ∃ tr₁ tr₂ token reply, tr = tr₁ ++ tr₂ ∧
      writes tr₁ = [(op.sends token, reply)] ∧ writes tr₂ = []) :
    MergeEnds red wire op tr (.error e) := by
  rcases h with hw | ⟨tr₁, tr₂, token, reply, rfl, hw₁, hw₂⟩
  · exact .inl ⟨hw, by rintro o ⟨⟩⟩
  · exact .inr ⟨tr₁, tr₂, token, reply, rfl, hw₁, hw₂, by rintro o ⟨⟩⟩

/- The controller's `merge`: the protection is read first. -/
theorem merge_runs (op : MergeOperation) (c c' : Cache) (tr : Spoken)
    (r : Except Raised GitHubPullRequest)
    (h : Talking.Runs (merge codec wire op.approved) c tr r c') :
    (writes tr = [] ∧ ∃ e, r = .error e) ∨
      ∃ tr₁ tr₂ token reply, tr = tr₁ ++ tr₂ ∧ writes tr₁ = [(op.sends token, reply)] ∧
        writes tr₂ = [] ∧ Raises FromAdapter r ∧
        (∀ category, r = .error (.write category) → definite category = true →
          MergeRefused reply) ∧
        ∀ pull, r = .ok pull → MergeAcknowledged reply ∧
          ∃ v, pullRequest wire v op.approved.repository = .ok pull ∧ ∃ x ∈ tr₂,
            Answered (pullPath op.approved.repository op.approved.pullRequestNumber) v x := by
  rcases (Talking.runs_bind _ _ r).mp h with ⟨e, hq, rfl⟩ | ⟨queued, c₁, tr₀, tr', hq, hn, rfl⟩
  · exact .inl ⟨writes_silent tr (queueRequired_within codec _ _ _ _ _ hq).1, e, rfl⟩
  have h₀ : writes tr₀ = [] := writes_silent tr₀ (queueRequired_within codec _ _ _ _ _ hq).1
  rw [Talking.runs_lift_bind] at hn
  rcases hn with ⟨e, -, rfl, rfl, -⟩ | ⟨_, -, hn⟩
  · exact .inl ⟨by simpa using h₀, e, rfl⟩
  obtain ⟨hr, ⟨hw, e, he, -⟩ | ⟨tr₁, tr₂, token, reply, rfl, hw₁, hw₂, hdef, hok⟩⟩ :=
    mergePullRequest_runs wire _ _ _ _ _ _ _ _ hn
  · exact .inl ⟨by rw [writes_append, h₀, hw, List.nil_append], e, he⟩
  · refine .inr ⟨tr₀ ++ tr₁, tr₂, token, reply, (List.append_assoc ..).symm, ?_, hw₂, hr, hdef, hok⟩
    rw [writes_append, h₀, hw₁, List.nil_append]
    rfl

/- Whatever is caught becomes a failed outcome. -/
theorem mergeHandler_failed (e : Raised) (q : Client (OperationOutcome red))
    (h : mergeHandler red wire e = some q) :
    ∃ error, q = Talking.lift (failedOutcome red wire error) := by
  unfold mergeHandler at h
  split at h
  · cases h
    exact ⟨_, rfl⟩
  · cases h
    exact ⟨_, rfl⟩
  · split at h
    · cases h
      exact ⟨_, rfl⟩
    · cases h
  · cases h

/- Of what the adapter raises, only a definite rejection is caught. -/
theorem mergeHandler_definite (e : Raised) (q : Client (OperationOutcome red))
    (h : mergeHandler red wire e = some q) (he : FromAdapter e) :
    ∃ category, e = .write category ∧ definite category = true := by
  cases e with
  | write category =>
    simp only [mergeHandler] at h
    split at h
    · exact ⟨category, rfl, by assumption⟩
    · cases h
  | client => cases he
  | staleEvidence => cases he
  | reconciliation => cases h
  | validation => cases h
  | cancelled => cases h
  | other => cases h

/- From the merge on: what its exception or the pull request it returned becomes. -/
theorem mergeStage_runs (op : MergeOperation) (c c' : Cache) (tr : Spoken)
    (r : Except Raised (OperationOutcome red))
    (h : Talking.Runs (mergeStage red codec wire op) c tr r c') : MergeEnds red wire op tr r := by
  rcases (Talking.runs_tryElse _ _ _ _).mp h with
    ⟨e, hp, -, rfl⟩ | ⟨e, q, c₁, tr', tr'', hp, hq, hn, rfl⟩ | ⟨pull, c₁, tr', tr'', hp, hn, rfl⟩
  · refine mergeEnds_raised red wire op tr e ?_
    rcases merge_runs codec wire op _ _ _ _ hp with
      ⟨hw, -⟩ | ⟨tr₁, tr₂, token, reply, htr, hw₁, hw₂, -⟩
    · exact .inl hw
    · exact .inr ⟨tr₁, tr₂, token, reply, htr, hw₁, hw₂⟩
  · obtain ⟨error, rfl⟩ : ∃ error, q = Talking.lift (failedOutcome red wire error) :=
      mergeHandler_failed red wire e q hq
    obtain ⟨rfl, rfl, -⟩ := (Talking.runs_lift _ _).mp hn
    rw [List.append_nil]
    rcases merge_runs codec wire op _ _ _ _ hp with
      ⟨hw, -⟩ | ⟨tr₁, tr₂, token, reply, rfl, hw₁, hw₂, hr, hdef, -⟩
    · exact mergeEnds_failed red wire op tr' error hw
    · refine .inr ⟨tr₁, tr₂, token, reply, rfl, hw₁, hw₂, fun o ho => .inl
        ⟨failedOutcome_status red wire error o ho, ?_⟩⟩
      obtain ⟨category, rfl, hd⟩ := mergeHandler_definite red wire e _ hq (hr e rfl)
      exact hdef category rfl hd
  · obtain ⟨rfl, rfl, -⟩ := (Talking.runs_lift _ _).mp hn
    rw [List.append_nil]
    rcases merge_runs codec wire op _ _ _ _ hp with
      ⟨-, e, he⟩ | ⟨tr₁, tr₂, token, reply, rfl, hw₁, hw₂, -, -, hok⟩
    · cases he
    · obtain ⟨hack, v, hv, hx⟩ := hok pull rfl
      refine .inr ⟨tr₁, tr₂, token, reply, rfl, hw₁, hw₂, fun o ho => .inr ⟨hack, v, pull, hv, hx, ?_⟩⟩
      exact outcome_ok red wire op pull o ho

/-- `MergeOperation.invoke` against any conversation. -/
theorem mergeInvoke_runs (op : MergeOperation) (intent : OperationIntent red) (c c' : Cache)
    (tr : Spoken) (r : Except Raised (OperationOutcome red))
    (h : Talking.Runs (op.invoke red codec wire intent) c tr r c') : MergeEnds red wire op tr r := by
  simp only [MergeOperation.invoke] at h
  rw [Talking.runs_lift_bind] at h
  rcases h with ⟨e, -, rfl, rfl, -⟩ | ⟨_, -, h⟩
  · exact mergeEnds_raised red wire op [] e (.inl rfl)
  have hpre : Talking.Within Silent Anything (do
      let current ← currentEvidence
      preflight codec wire op.record op.approved current) :=
    Talking.within_bind _ _ currentEvidence_within fun current => preflight_within codec wire _ _ _
  rcases (Talking.runs_tryElse _ _ _ _).mp h with
    ⟨e, hp, -, rfl⟩ | ⟨e, q, c₁, tr₁, tr₂, hp, hq, hn, rfl⟩ | ⟨_, c₁, tr₁, tr₂, hp, hn, rfl⟩
  · exact mergeEnds_raised red wire op tr e (.inl (writes_silent tr (hpre _ _ _ _ hp).1))
  · have h₁ := writes_silent tr₁ (hpre _ _ _ _ hp).1
    split at hq
    · cases hq
      obtain ⟨rfl, rfl, -⟩ := (Talking.runs_lift _ _).mp hn
      exact mergeEnds_failed red wire op _ _ (by simpa using h₁)
    · cases hq
  · have h₁ := writes_silent tr₁ (hpre _ _ _ _ hp).1
    refine mergeEnds_after red wire op tr₁ tr₂ r h₁ ?_
    exact mergeStage_runs red codec wire op _ _ _ _ hn

theorem observePull_ok (record : ReleaseRecord) (approved : MergePublicationEvidence) (c c' : Cache)
    (tr : Spoken) (pull : GitHubPullRequest)
    (h : Talking.Runs (observePull wire record approved) c tr (.ok pull) c') :
    ∃ v, pullRequest wire v approved.repository = .ok pull ∧
      Shown c (pullPath approved.repository approved.pullRequestNumber) v tr := by
  simp only [observePull, Talking.runs_bind_ok, Talking.runs_lift] at h
  obtain ⟨pull', c₁, tr₁, tr₂, hget, ⟨_, c₂, tr₃, tr₄, ⟨rfl, -, rfl⟩, hpure, rfl⟩, rfl⟩ := h
  obtain ⟨rfl, hp, rfl⟩ := (Talking.runs_pure _ _).mp hpure
  cases hp
  obtain ⟨v, hv, hs⟩ := getPullRequest_ok wire _ _ _ _ _ _ hget
  exact ⟨v, hv, by simpa using hs⟩

theorem reconcileMerge_within (op : MergeOperation) :
    Talking.Within Silent Anything (reconcileMerge red wire op.record op.approved) :=
  Talking.within_bind _ _ (observePull_within wire _ _) fun _ =>
    Talking.within_lift _ (raises_anything _)

/-- `MergeOperation.reconcile` against any conversation. -/
theorem mergeReconcile_runs (op : MergeOperation) (intent : OperationIntent red) (c c' : Cache)
    (tr : Spoken) (r : Except Raised (OperationOutcome red))
    (h : Talking.Runs (op.reconcile red codec wire intent) c tr r c') :
    writes tr = [] ∧ ∀ o, r = .ok o → ∃ v pull,
      pullRequest wire v op.approved.repository = .ok pull ∧
      Shown c (pullPath op.approved.repository op.approved.pullRequestNumber) v tr ∧
      ApprovedMerge op pull ∧ Succeeds red wire o pull.nodeId pull.asdict := by
  have hw : Talking.Within Silent Anything (op.reconcile red codec wire intent) :=
    Talking.within_bind _ _ (Talking.within_lift _ (raises_anything _)) fun _ =>
      reconcileMerge_within red wire op
  refine ⟨writes_silent tr (hw _ _ _ _ h).1, ?_⟩
  rintro o rfl
  simp only [MergeOperation.reconcile, reconcileMerge, Talking.runs_bind_ok, Talking.runs_lift] at h
  obtain ⟨_, c₁, tr₁, tr₂, ⟨rfl, -, rfl⟩, ⟨pull, c₂, tr₃, tr₄, hpull, ⟨rfl, ho, rfl⟩, rfl⟩, rfl⟩ := h
  obtain ⟨v, hv, hs⟩ := observePull_ok wire _ _ _ _ _ _ hpull
  exact ⟨v, pull, hv, by simpa using hs, outcome_ok red wire op pull o ho.symm⟩

end operations

end ParallelForge.Release
