import ParallelForge.Release.MergeOutcome

/-!
# What a queue outcome says

The insertion is one GraphQL mutation. It counts as rejected only where the
response is a request error, which has no data and whose errors have no path.
-/

namespace ParallelForge.Release
open Base Operation
open Value hiding none

theorem keysWithin_hasKey (d : Dict) (keys : List String) (k : String)
    (h : keysWithin d keys = true) (hk : k ∉ keys) : hasKey d k = false := by
  rw [Bool.eq_false_iff]
  intro hd
  obtain ⟨v, hv⟩ := Option.isSome_iff_exists.mp hd
  have hmem := List.all_eq_true.mp h (k, v) (lookup_mem d k v hv)
  exact hk (List.contains_iff_mem.mp hmem)

/-- A well-formed GraphQL request error: no data, and no error with a path. -/
def MutationRefused (reply : Reply) : Prop :=
  ∃ status etag d errors, reply = .answer status false etag (.json (.dict d)) ∧ status < 400 ∧
    hasKey d "data" = false ∧ hasKey d "path" = false ∧ get d "errors" = .list errors ∧
    errors ≠ [] ∧ ∀ e ∈ errors, ∃ m, e = .dict m ∧ hasKey m "path" = false ∧
      ∃ message, get m "message" = .str message ∧ strip message ≠ ""

theorem errorValid_path (e : Value) (h : errorValid e = true) :
    ∃ m, e = .dict m ∧ hasKey m "path" = false ∧
      ∃ message, get m "message" = .str message ∧ strip message ≠ "" := by
  unfold errorValid at h
  split at h
  · rename_i m
    simp only [Bool.and_eq_true] at h
    obtain ⟨⟨⟨hkeys, hmessage⟩, -⟩, -⟩ := h
    refine ⟨m, rfl, keysWithin_hasKey m _ _ hkeys (by decide), ?_⟩
    unfold messageValid at hmessage
    split at hmessage
    · rename_i s hs
      exact ⟨s, hs, by simpa using hmessage⟩
    · cases hmessage
  · cases h

theorem requestError_refused (status : ℕ) (etag : Option String) (d : Dict) (hlt : status < 400)
    (h : requestError d = true) : MutationRefused (.answer status false etag (.json (.dict d))) := by
  simp only [requestError, Bool.and_eq_true] at h
  obtain ⟨⟨hkeys, -⟩, herrors⟩ := h
  split at herrors
  · rename_i errors he
    simp only [Bool.and_eq_true, Bool.not_eq_eq_eq_not, Bool.not_true, List.isEmpty_eq_false_iff,
      List.all_eq_true] at herrors
    exact ⟨status, etag, d, errors, rfl, hlt, keysWithin_hasKey d _ _ hkeys (by decide),
      keysWithin_hasKey d _ _ hkeys (by decide), he, herrors.1,
      fun e hmem => errorValid_path e (herrors.2 e hmem)⟩
  · cases herrors

/-- The two GraphQL requests. -/
def mutationRequest (nodeId headSha correlationId token : String) : Request where
  method := .post
  path := graphql
  token := token
  ifNoneMatch := none
  json := some (enqueueBody nodeId headSha correlationId)

def queryRequest (nodeId token : String) : Request where
  method := .post
  path := graphql
  token := token
  ifNoneMatch := none
  json := some (observeBody nodeId)

/- The query is no mutation. -/
theorem observeText_ne : observeText ≠ enqueueText := by decide

section operations
variable (red : Durability) (codec : Codec) (wire : Wire)

/- The mutation was sent once, and its reply is what the rest goes by. -/
theorem postMutation_runs (nodeId headSha correlationId : String) (c c' : Cache) (tr : Spoken)
    (r : Except Raised Dict)
    (h : Talking.Runs (postMutation wire nodeId headSha correlationId) c tr r c') :
    (writes tr = [] ∧ ∃ e, r = .error e) ∨ ∃ token reply,
      writes tr = [(mutationRequest nodeId headSha correlationId token, reply)] ∧
      ∀ d, r = .ok d → ∃ status etag, reply = .answer status false etag (.json (.dict d)) ∧
        status < 400 := by
  rcases (Talking.runs_bind _ _ r).mp h with ⟨e, hp, rfl⟩ | ⟨v, c₁, tr₁, tr₂, hp, hn, rfl⟩
  · rcases json_write_runs wire _ rfl _ _ _ _ _ _ hp with ⟨hw, -⟩ | ⟨token, reply, hw, -, -⟩
    · exact .inl ⟨hw, e, rfl⟩
    · exact .inr ⟨token, reply, hw, by rintro d ⟨⟩⟩
  · obtain ⟨rfl, rfl, -⟩ := (Talking.runs_lift _ _).mp hn
    rcases json_write_runs wire _ rfl _ _ _ _ _ _ hp with ⟨-, e, he, -⟩ | ⟨token, reply, hw, hv, -⟩
    · cases he
    refine .inr ⟨token, reply, by rw [List.append_nil]; exact hw, fun d hd => ?_⟩
    rcases receive_ok _ _ _ _ _ hv.symm with
      ⟨status, etag, rfl, -, hlt⟩ | ⟨e, isRedirect, etag, body, hnone, -⟩
    · unfold mapping at hd
      split at hd
      · cases hd
        exact ⟨status, etag, rfl, hlt⟩
      · cases hd
    · cases hnone

/- What is caught around the mutation is uncertain, never a rejection. -/
theorem uncertainWrite_definite {α : Type} (e : Raised) (q : Client α)
    (h : uncertainWrite e = some q) : q = Talking.raise (.write .uncertain) := by
  unfold uncertainWrite at h
  split at h
  · cases h
    rfl
  · cases h

theorem uncertainAdmission_definite {α : Type} (e : Raised) (q : Client α)
    (h : uncertainAdmission e = some q) : q = Talking.raise (.write .uncertain) := by
  unfold uncertainAdmission at h
  split at h
  · cases h
    rfl
  · cases h
    rfl
  · cases h

/- The response is a request error, or it does not lead to a rejection. -/
theorem admission_runs (expected : MergeQueueReceipt) (mergeMethod correlationId : String) (d : Dict)
    (c c' : Cache) (tr : Spoken) (r : Except Raised MergeQueueReceipt)
    (h : Talking.Runs (admission expected mergeMethod correlationId d) c tr r c') :
    tr = [] ∧ (∀ category, r = .error (.write category) → definite category = true →
      requestError d = true) ∧
    ∀ receipt, r = .ok receipt → admitted d expected mergeMethod correlationId = .ok receipt := by
  simp only [admission] at h
  rw [Talking.runs_lift_bind] at h
  rcases h with ⟨e, he, rfl, rfl, -⟩ | ⟨_, -, h⟩
  · refine ⟨rfl, fun category _ _ => ?_, by rintro receipt ⟨⟩⟩
    by_contra hreq
    rw [Bool.not_eq_true] at hreq
    rw [hreq] at he
    cases he
  rcases (Talking.runs_tryElse _ _ _ _).mp h with
    ⟨e, hp, hpass, rfl⟩ | ⟨e, q, c₁, tr₁, tr₂, hp, hq, hn, rfl⟩ | ⟨receipt, c₁, tr₁, tr₂, hp, hn, rfl⟩
  · obtain ⟨rfl, he, -⟩ := (Talking.runs_lift _ _).mp hp
    refine ⟨rfl, fun category hcat _ => ?_, by rintro receipt ⟨⟩⟩
    cases hcat
    cases hpass
  · obtain ⟨rfl, -, -⟩ := (Talking.runs_lift _ _).mp hp
    obtain rfl := uncertainAdmission_definite e q hq
    obtain ⟨rfl, rfl, -⟩ := (Talking.runs_raise _ _).mp hn
    refine ⟨rfl, fun category hcat hd => ?_, by rintro receipt ⟨⟩⟩
    cases hcat
    cases hd
  · obtain ⟨rfl, hr, -⟩ := (Talking.runs_lift _ _).mp hp
    obtain ⟨rfl, rfl, -⟩ := (Talking.runs_pure _ _).mp hn
    refine ⟨rfl, by rintro category ⟨⟩, fun receipt' hr' => ?_⟩
    cases hr'
    exact hr.symm

/-- The insertion: nothing was sent, or the one mutation. -/
theorem enqueue_runs (repository : String) (n : ℤ) (nodeId headSha mergeMethod correlationId : String)
    (c c' : Cache) (tr : Spoken) (r : Except Raised MergeQueueReceipt)
    (h : Talking.Runs (enqueue wire repository n nodeId headSha mergeMethod correlationId) c tr r c') :
    (writes tr = [] ∧ ∃ e, r = .error e) ∨ ∃ token reply,
      writes tr = [(mutationRequest nodeId headSha correlationId token, reply)] ∧
      (∀ category, r = .error (.write category) → definite category = true →
        MutationRefused reply) ∧
      ∀ receipt, r = .ok receipt → ∃ status etag d expected,
        reply = .answer status false etag (.json (.dict d)) ∧ status < 400 ∧
        expectedReceipt repository n nodeId headSha mergeMethod = .ok expected ∧
        admitted d expected mergeMethod correlationId = .ok receipt := by
  simp only [enqueue] at h
  rw [Talking.runs_lift_bind] at h
  rcases h with ⟨e, -, rfl, rfl, -⟩ | ⟨expected, hexpected, h⟩
  · exact .inl ⟨rfl, e, rfl⟩
  rw [Talking.runs_lift_bind] at h
  rcases h with ⟨e, -, rfl, rfl, -⟩ | ⟨_, -, h⟩
  · exact .inl ⟨rfl, e, rfl⟩
  rcases (Talking.runs_bind _ _ r).mp h with ⟨e, hget, rfl⟩ | ⟨pull, c₁, tr₀, tr', hget, hn, rfl⟩
  · exact .inl ⟨writes_silent tr (getPullRequest_within wire _ _ _ _ _ _ hget).1, e, rfl⟩
  have h₀ : writes tr₀ = [] := writes_silent tr₀ (getPullRequest_within wire _ _ _ _ _ _ hget).1
  rw [writes_append, h₀, List.nil_append]
  rw [Talking.runs_lift_bind] at hn
  rcases hn with ⟨e, -, rfl, rfl, -⟩ | ⟨_, -, hn⟩
  · exact .inl ⟨rfl, e, rfl⟩
  rcases (Talking.runs_tryElse _ _ _ _).mp hn with
    ⟨e, hp, hpass, rfl⟩ | ⟨e, q, c₂, tr₁, tr₂, hp, hq, hm, rfl⟩ | ⟨d, c₂, tr₁, tr₂, hp, hm, rfl⟩
  · rcases postMutation_runs wire _ _ _ _ _ _ _ hp with ⟨hw, -⟩ | ⟨token, reply, hw, -⟩
    · exact .inl ⟨hw, e, rfl⟩
    · refine .inr ⟨token, reply, hw, fun category hcat _ => ?_, by rintro receipt ⟨⟩⟩
      cases hcat
      cases hpass
  · obtain rfl := uncertainWrite_definite e q hq
    obtain ⟨rfl, rfl, -⟩ := (Talking.runs_raise _ _).mp hm
    rw [List.append_nil]
    rcases postMutation_runs wire _ _ _ _ _ _ _ hp with ⟨hw, -⟩ | ⟨token, reply, hw, -⟩
    · exact .inl ⟨hw, _, rfl⟩
    · refine .inr ⟨token, reply, hw, fun category hcat hd => ?_, by rintro receipt ⟨⟩⟩
      cases hcat
      cases hd
  · obtain ⟨rfl, hdef, hok⟩ := admission_runs expected mergeMethod correlationId d _ _ _ _ hm
    rw [List.append_nil]
    rcases postMutation_runs wire _ _ _ _ _ _ _ hp with ⟨-, e, he⟩ | ⟨token, reply, hw, hd⟩
    · cases he
    obtain ⟨status, etag, rfl, hlt⟩ := hd d rfl
    refine .inr ⟨token, _, hw, fun category hcat hcd => ?_, fun receipt hr => ?_⟩
    · exact requestError_refused status etag d hlt (hdef category hcat hcd)
    · exact ⟨status, etag, d, expected, rfl, hlt, hexpected, hok receipt hr⟩

/-- The receipt is bound to what was approved. -/
structure BoundReceipt (op : MergeOperation) (receipt : MergeQueueReceipt) : Prop where
  repository : receipt.repository = op.approved.repository
  number : receipt.pullRequestNumber = op.approved.pullRequestNumber
  nodeId : receipt.pullRequestNodeId = op.record.pullRequest.nodeId
  headSha : receipt.headSha = op.approved.headSha
  mergeMethod : receipt.mergeMethod = op.approved.mergeMethod

theorem queueOutcome_ok (op : MergeOperation) (receipt : MergeQueueReceipt)
    (o : OperationOutcome red) (h : queueOutcome red wire op receipt = .ok o) :
    BoundReceipt op receipt ∧ Succeeds red wire o receipt.entryId receipt.modelDump := by
  simp only [queueOutcome, receiptBound, bind_eq_ok, require_eq_ok, Bool.and_eq_true,
    decide_eq_true_eq] at h
  obtain ⟨_, ⟨⟨⟨⟨h₁, h₂⟩, h₃⟩, h₄⟩, h₅⟩, hmake⟩ := h
  exact ⟨⟨h₁, h₂, h₃, h₄, h₅⟩, makeOutcome_ok red wire _ _ _ _ o hmake⟩

/-- The receipt the mutation's response was read as. -/
def Admitted (op : MergeOperation) (correlationId : String) (reply : Reply)
    (receipt : MergeQueueReceipt) : Prop :=
  ∃ status etag d expected, reply = .answer status false etag (.json (.dict d)) ∧ status < 400 ∧
    expectedReceipt op.approved.repository op.approved.pullRequestNumber
      op.record.pullRequest.nodeId op.approved.headSha op.approved.mergeMethod = .ok expected ∧
    admitted d expected op.approved.mergeMethod correlationId = .ok receipt

/-- What one call of the enqueue operation came to. -/
def EnqueueEnds (op : MergeOperation) (correlationId : String) (tr : Spoken)
    (r : Except Raised (OperationOutcome red)) : Prop :=
  (writes tr = [] ∧ ∀ o, r = .ok o → o.status = .failed) ∨
  ∃ token reply, writes tr = [(mutationRequest op.record.pullRequest.nodeId op.approved.headSha
      correlationId token, reply)] ∧ ∀ o, r = .ok o →
    (o.status = .failed ∧ MutationRefused reply) ∨
    ∃ receipt, Admitted op correlationId reply receipt ∧ BoundReceipt op receipt ∧
      Succeeds red wire o receipt.entryId receipt.modelDump

theorem enqueueHandler_definite (e : Raised) (q : Client (OperationOutcome red))
    (h : enqueueHandler red wire e = some q) :
    (∃ error, q = Talking.lift (failedOutcome red wire error)) ∧
      ∃ category, e = .write category ∧ definite category = true := by
  unfold enqueueHandler at h
  split at h
  · rename_i category
    split at h
    · cases h
      exact ⟨⟨_, rfl⟩, category, rfl, by assumption⟩
    · cases h
  · cases h

theorem enqueueStage_runs (op : MergeOperation) (correlationId : String) (c c' : Cache) (tr : Spoken)
    (r : Except Raised (OperationOutcome red))
    (h : Talking.Runs (enqueueStage red wire op correlationId) c tr r c') :
    EnqueueEnds red wire op correlationId tr r := by
  rcases (Talking.runs_tryElse _ _ _ _).mp h with
    ⟨e, hp, -, rfl⟩ | ⟨e, q, c₁, tr₁, tr₂, hp, hq, hn, rfl⟩ | ⟨receipt, c₁, tr₁, tr₂, hp, hn, rfl⟩
  · rcases enqueue_runs wire _ _ _ _ _ _ _ _ _ _ hp with ⟨hw, -⟩ | ⟨token, reply, hw, -⟩
    · exact .inl ⟨hw, by rintro o ⟨⟩⟩
    · exact .inr ⟨token, reply, hw, by rintro o ⟨⟩⟩
  · obtain ⟨⟨error, rfl⟩, category, rfl, hd⟩ := enqueueHandler_definite red wire e q hq
    obtain ⟨rfl, rfl, -⟩ := (Talking.runs_lift _ _).mp hn
    rw [List.append_nil]
    rcases enqueue_runs wire _ _ _ _ _ _ _ _ _ _ hp with ⟨hw, -⟩ | ⟨token, reply, hw, hdef, -⟩
    · exact .inl ⟨hw, fun o ho => failedOutcome_status red wire error o ho⟩
    · exact .inr ⟨token, reply, hw, fun o ho => .inl
        ⟨failedOutcome_status red wire error o ho, hdef category rfl hd⟩⟩
  · obtain ⟨rfl, rfl, -⟩ := (Talking.runs_lift _ _).mp hn
    rw [List.append_nil]
    rcases enqueue_runs wire _ _ _ _ _ _ _ _ _ _ hp with ⟨-, e, he⟩ | ⟨token, reply, hw, -, hok⟩
    · cases he
    · exact .inr ⟨token, reply, hw, fun o ho => .inr
        ⟨receipt, hok receipt rfl, queueOutcome_ok red wire op receipt o ho⟩⟩

/-- `EnqueueOperation.invoke` against any conversation. -/
theorem enqueueInvoke_runs (op : MergeOperation) (intent : OperationIntent red) (c c' : Cache)
    (tr : Spoken) (r : Except Raised (OperationOutcome red))
    (h : Talking.Runs (enqueueInvoke red codec wire op intent) c tr r c') :
    EnqueueEnds red wire op (codec.uuidText intent.row.id) tr r := by
  simp only [enqueueInvoke] at h
  rw [Talking.runs_lift_bind] at h
  rcases h with ⟨e, -, rfl, rfl, -⟩ | ⟨_, -, h⟩
  · exact .inl ⟨rfl, by rintro o ⟨⟩⟩
  have hpre : Talking.Within Silent Anything (do
      let current ← currentEvidence
      let _ ← preflight codec wire op.record op.approved current
      let queued ← queueRequired codec op.approved
      Talking.lift (require (queued = true) .staleEvidence)) := by
    refine Talking.within_bind _ _ currentEvidence_within fun current => ?_
    refine Talking.within_bind _ _ (preflight_within codec wire _ _ _) fun _ => ?_
    refine Talking.within_bind _ _ (queueRequired_within codec _) fun queued => ?_
    exact Talking.within_lift _ (raises_anything _)
  rcases (Talking.runs_tryElse _ _ _ _).mp h with
    ⟨e, hp, -, rfl⟩ | ⟨e, q, c₁, tr₁, tr₂, hp, hq, hn, rfl⟩ | ⟨_, c₁, tr₁, tr₂, hp, hn, rfl⟩
  · exact .inl ⟨writes_silent tr (hpre _ _ _ _ hp).1, by rintro o ⟨⟩⟩
  · have h₁ := writes_silent tr₁ (hpre _ _ _ _ hp).1
    split at hq
    · cases hq
      obtain ⟨rfl, rfl, -⟩ := (Talking.runs_lift _ _).mp hn
      exact .inl ⟨by simpa using h₁, fun o ho => failedOutcome_status red wire _ o ho⟩
    · cases hq
  · have h₁ := writes_silent tr₁ (hpre _ _ _ _ hp).1
    have hstage := enqueueStage_runs red wire op _ _ _ _ _ hn
    unfold EnqueueEnds at hstage ⊢
    rwa [writes_append, h₁, List.nil_append]

/- Observation sends nothing but the query. -/
theorem postQuery_runs (nodeId : String) (expected : MergeQueueReceipt) (c c' : Cache) (tr : Spoken)
    (r : Except Raised (Option MergeQueueReceipt))
    (h : Talking.Runs (postQuery wire nodeId expected) c tr r c') :
    (writes tr = [] ∧ ∃ e, r = .error e) ∨ ∃ token reply,
      writes tr = [(queryRequest nodeId token, reply)] ∧ ∀ seen, r = .ok seen → c' = [] ∧
        ∃ status etag v, reply = .answer status false etag (.json v) ∧ status < 400 ∧
          observed v expected = .ok seen := by
  rcases (Talking.runs_bind _ _ r).mp h with ⟨e, hp, rfl⟩ | ⟨v, c₁, tr₁, tr₂, hp, hn, rfl⟩
  · rcases json_write_runs wire _ rfl _ _ _ _ _ _ hp with ⟨hw, -⟩ | ⟨token, reply, hw, -, -⟩
    · exact .inl ⟨hw, e, rfl⟩
    · exact .inr ⟨token, reply, hw, by rintro seen ⟨⟩⟩
  · obtain ⟨rfl, rfl, rfl⟩ := (Talking.runs_lift _ _).mp hn
    rcases json_write_runs wire _ rfl _ _ _ _ _ _ hp with ⟨-, e, he, -⟩ | ⟨token, reply, hw, hv, rfl⟩
    · cases he
    refine .inr ⟨token, reply, by rw [List.append_nil]; exact hw, fun seen hseen => ⟨rfl, ?_⟩⟩
    rcases receive_ok _ _ _ _ _ hv.symm with
      ⟨status, etag, rfl, -, hlt⟩ | ⟨e, isRedirect, etag, body, hnone, -⟩
    · exact ⟨status, etag, v, rfl, hlt, hseen⟩
    · cases hnone

/-- What the query's response was read as: an entry, or none. -/
def Observed (op : MergeOperation) (reply : Reply) (seen : Option MergeQueueReceipt) : Prop :=
  ∃ status etag v expected, reply = .answer status false etag (.json v) ∧ status < 400 ∧
    expectedReceipt op.approved.repository op.approved.pullRequestNumber
      op.record.pullRequest.nodeId op.approved.headSha "merge" = .ok expected ∧
    observed v expected = .ok seen

theorem queryHandler_raises {α : Type} (e : Raised) (q : Client α) (h : queryHandler e = some q) :
    ∃ e', q = Talking.raise e' := by
  unfold queryHandler at h
  split at h
  · cases h
    exact ⟨_, rfl⟩
  · cases h
    exact ⟨_, rfl⟩
  · cases h

theorem observe_runs (op : MergeOperation) (c c' : Cache) (tr : Spoken)
    (r : Except Raised (Option MergeQueueReceipt))
    (h : Talking.Runs (observe wire op.approved.repository op.approved.pullRequestNumber
      op.record.pullRequest.nodeId op.approved.headSha) c tr r c') :
    (writes tr = [] ∧ ∃ e, r = .error e) ∨ ∃ token reply,
      writes tr = [(queryRequest op.record.pullRequest.nodeId token, reply)] ∧
      ∀ seen, r = .ok seen → c' = [] ∧ Observed op reply seen := by
  simp only [observe] at h
  rw [Talking.runs_lift_bind] at h
  rcases h with ⟨e, -, rfl, rfl, -⟩ | ⟨expected, hexpected, h⟩
  · exact .inl ⟨rfl, e, rfl⟩
  rcases (Talking.runs_tryElse _ _ _ _).mp h with
    ⟨e, hp, -, rfl⟩ | ⟨e, q, c₁, tr₁, tr₂, hp, hq, hn, rfl⟩ | ⟨seen, c₁, tr₁, tr₂, hp, hn, rfl⟩
  · rcases postQuery_runs wire _ _ _ _ _ _ hp with ⟨hw, -⟩ | ⟨token, reply, hw, -⟩
    · exact .inl ⟨hw, e, rfl⟩
    · exact .inr ⟨token, reply, hw, by rintro seen ⟨⟩⟩
  · obtain ⟨e', rfl⟩ := queryHandler_raises e q hq
    obtain ⟨rfl, rfl, -⟩ := (Talking.runs_raise _ _).mp hn
    rw [List.append_nil]
    rcases postQuery_runs wire _ _ _ _ _ _ hp with ⟨hw, -⟩ | ⟨token, reply, hw, -⟩
    · exact .inl ⟨hw, e', rfl⟩
    · exact .inr ⟨token, reply, hw, by rintro seen ⟨⟩⟩
  · obtain ⟨rfl, rfl, rfl⟩ := (Talking.runs_pure _ _).mp hn
    rw [List.append_nil]
    rcases postQuery_runs wire _ _ _ _ _ _ hp with ⟨-, e, he⟩ | ⟨token, reply, hw, hok⟩
    · cases he
    refine .inr ⟨token, reply, hw, fun seen' hseen => ?_⟩
    cases hseen
    obtain ⟨hc, status, etag, v, hreply, hlt, hv⟩ := hok seen rfl
    exact ⟨hc, status, etag, v, expected, hreply, hlt, hexpected, hv⟩

/-- What one reconciliation of the queue came to: a bound receipt, or no entry
and the approved pull request shown merged. -/
def QueueReconciled (op : MergeOperation) (tr : Spoken) (o : OperationOutcome red) : Prop :=
  ∃ token reply, writes tr = [(queryRequest op.record.pullRequest.nodeId token, reply)] ∧
    ((∃ receipt, Observed op reply (some receipt) ∧ BoundReceipt op receipt ∧
        Succeeds red wire o receipt.entryId receipt.modelDump) ∨
      Observed op reply none ∧ ∃ v pull, pullRequest wire v op.approved.repository = .ok pull ∧
        (∃ x ∈ tr, Answered (pullPath op.approved.repository op.approved.pullRequestNumber) v x) ∧
        ApprovedMerge op pull ∧
        Succeeds red wire o pull.nodeId [("merged_pull_request", .dict pull.asdict)])

theorem afterObserve_within (op : MergeOperation) (seen : Option MergeQueueReceipt) :
    Talking.Within Silent Anything (afterObserve red wire op seen) := by
  cases seen with
  | some receipt => exact Talking.within_lift _ (raises_anything _)
  | none =>
    refine Talking.within_bind _ _ (observePull_within wire _ _) fun pull => ?_
    refine Talking.within_bind _ _ (Talking.within_lift _ (raises_anything _)) fun merged => ?_
    exact Talking.within_lift _ (raises_anything _)

theorem afterObserve_absent (op : MergeOperation) (c c' : Cache) (tr : Spoken)
    (o : OperationOutcome red) (h : Talking.Runs (afterObserve red wire op none) c tr (.ok o) c') :
    ∃ v pull, pullRequest wire v op.approved.repository = .ok pull ∧
      Shown c (pullPath op.approved.repository op.approved.pullRequestNumber) v tr ∧
      ApprovedMerge op pull ∧
      Succeeds red wire o pull.nodeId [("merged_pull_request", .dict pull.asdict)] := by
  simp only [afterObserve, Talking.runs_bind_ok, Talking.runs_lift] at h
  obtain ⟨pull, c₁, tr₁, tr₂, hpull, ⟨merged, c₂, tr₃, tr₄, ⟨rfl, hm, rfl⟩, ⟨rfl, ho, rfl⟩, rfl⟩,
    rfl⟩ := h
  obtain ⟨v, hv, hs⟩ := observePull_ok wire _ _ _ _ _ _ hpull
  obtain ⟨hmerge, hsucc⟩ := outcome_ok red wire op pull merged hm.symm
  have hmake := makeOutcome_ok red wire _ _ _ _ o ho.symm
  rw [hsucc.2.1] at hmake
  exact ⟨v, pull, hv, by simpa using hs, hmerge, hmake⟩

/-- `EnqueueOperation.reconcile` against any conversation. -/
theorem enqueueReconcile_runs (op : MergeOperation) (intent : OperationIntent red) (c c' : Cache)
    (tr : Spoken) (r : Except Raised (OperationOutcome red))
    (h : Talking.Runs (enqueueReconcile red codec wire op intent) c tr r c') :
    (∀ w ∈ writes tr, ∃ token, w.1 = queryRequest op.record.pullRequest.nodeId token) ∧
      ∀ o, r = .ok o → QueueReconciled red wire op tr o := by
  simp only [enqueueReconcile] at h
  rw [Talking.runs_lift_bind] at h
  rcases h with ⟨e, -, rfl, rfl, -⟩ | ⟨_, -, h⟩
  · exact ⟨by simp, by rintro o ⟨⟩⟩
  have query : ∀ (tr₁ : Spoken) token reply,
      writes tr₁ = [(queryRequest op.record.pullRequest.nodeId token, reply)] →
      ∀ w ∈ writes tr₁, ∃ token, w.1 = queryRequest op.record.pullRequest.nodeId token := by
    intro tr₁ token reply htr w hw
    rw [htr, List.mem_singleton] at hw
    exact ⟨token, by rw [hw]⟩
  rcases (Talking.runs_bind _ _ r).mp h with ⟨e, hp, rfl⟩ | ⟨seen, c₁, tr₁, tr₂, hp, hn, rfl⟩
  · refine ⟨?_, by rintro o ⟨⟩⟩
    rcases observe_runs wire op _ _ _ _ hp with ⟨hw, -⟩ | ⟨token, reply, hw, -⟩
    · rw [hw]
      exact fun w hw => absurd hw List.not_mem_nil
    · exact query tr token reply hw
  · rcases observe_runs wire op _ _ _ _ hp with ⟨-, e, he⟩ | ⟨token, reply, hw, hok⟩
    · cases he
    obtain ⟨rfl, hseen⟩ := hok seen rfl
    have h₂ : writes tr₂ = [] := writes_silent tr₂ (afterObserve_within red wire op seen _ _ _ _ hn).1
    have hall : writes (tr₁ ++ tr₂) = [(queryRequest op.record.pullRequest.nodeId token, reply)] := by
      rw [writes_append, h₂, hw, List.append_nil]
    refine ⟨query _ token reply hall, ?_⟩
    rintro o rfl
    refine ⟨token, reply, hall, ?_⟩
    cases seen with
    | some receipt =>
      obtain ⟨-, ho, -⟩ := (Talking.runs_lift _ _).mp hn
      obtain ⟨hb, hs⟩ := queueOutcome_ok red wire op receipt o ho.symm
      exact .inl ⟨receipt, hseen, hb, hs⟩
    | none =>
      obtain ⟨v, pull, hv, hs, hmerge, hsucc⟩ := afterObserve_absent red wire op _ _ _ _ hn
      obtain ⟨x, hx, ha⟩ := shown_fresh _ _ _ hs
      exact .inr ⟨hseen, v, pull, hv, ⟨x, List.mem_append_right _ hx, ha⟩, hmerge, hsucc⟩

end operations

end ParallelForge.Release
