import ParallelForge.Release.QueueOutcome

/-!
# The merge law

All of it in one statement, with what the executor makes of an exception: the
intent stays unresolved.
-/

namespace ParallelForge.Release
open Base Operation
open Value hiding none

section law
variable (red : Durability)

/-- What an executor sees of a call; an exception only by its text. -/
def adapterReply (describe : Raised → String) :
    Except Raised (OperationOutcome red) → AdapterReply red
  | .ok o => .outcome o
  | .error e => .exception (describe e)

/-- The row was there before, or it is unresolved. -/
def Unresolved (before after : Store) : Prop :=
  ∀ id r, after.get id = some r → r.status.terminal = true → before.get id = some r

theorem unresolved_refl (store : Store) : Unresolved store store := fun _ _ h _ => h

/- A failure that asks for reconciliation resolves nothing. -/
theorem fail_unresolved (store store' : Store) (id : UUID) (error : String) (owner : Option String)
    (checkedAt now : ℤ) (intent : OperationIntent red)
    (h : fail red store id error true owner checkedAt now = .ok (store', intent)) :
    Unresolved store store' := by
  simp only [fail, bind_eq_ok] at h
  obtain ⟨r, -, h⟩ := h
  split at h
  · rename_i hc
    exact absurd hc.2 (by decide)
  · split at h
    · cases h
    · simp only [bind_eq_ok] at h
      obtain ⟨_, -, intent', -, hout⟩ := h
      cases hout
      intro id' r' hget hterm
      by_cases hid : id' = id
      · subst hid
        rw [Table.get_put_self, Option.some.injEq] at hget
        subst hget
        exact absurd hterm (by simp [failedRow, OperationStatus.terminal])
      · rwa [Table.get_put_ne store _ hid] at hget

/- Marking an outcome as unknown resolves nothing. -/
theorem markUnknown_unresolved (lease : ℤ) (store : Store) (id : UUID) (error owner : String)
    (service : Bool) (tick : Tick red) :
    Unresolved store (procStep red lease store (.markUnknown id error owner service) tick).1 := by
  simp only [procStep]
  cases hf : fail red store id error true (some owner) tick.checkedAt tick.now with
  | error e => exact unresolved_refl store
  | ok p => exact fail_unresolved red store p.1 id error _ _ _ p.2 hf

/-- A call ends by raising, or by marking its outcome unknown. -/
def LeavesOpen (pc : Pc red) : Prop :=
  pc = .raised ∨ ∃ id error owner service, pc = .markUnknown id error owner service

/-- The outcomes of the two operations, over every conversation with GitHub,
every initial cache and every intent. -/
structure MergeLaw (codec : Codec) (wire : Wire) : Prop where
  mergeEnds : ∀ (op : MergeOperation) (intent : OperationIntent red)
    (world : List (Exchange Ask Answer) → (q : Ask) → Answer q) (c : Cache),
    let ended := (op.invoke red codec wire intent c).play world []
    Talking.Runs (op.invoke red codec wire intent) c ended.1 ended.2.1 ended.2.2
  mergeSendsOnce : ∀ (op : MergeOperation) (intent : OperationIntent red) c tr r c',
    Talking.Runs (op.invoke red codec wire intent) c tr r c' →
    writes tr = [] ∨ ∃ token reply, writes tr = [(op.sends token, reply)]
  mergeResolves : ∀ (op : MergeOperation) (intent : OperationIntent red) c tr o c',
    Talking.Runs (op.invoke red codec wire intent) c tr (.ok o) c' →
    o.status = .failed ∨ o.status = .succeeded
  mergeFailed : ∀ (op : MergeOperation) (intent : OperationIntent red) c tr o c',
    Talking.Runs (op.invoke red codec wire intent) c tr (.ok o) c' → o.status = .failed →
    ∀ w ∈ writes tr, MergeRefused w.2
  mergeSucceeded : ∀ (op : MergeOperation) (intent : OperationIntent red) c tr o c',
    Talking.Runs (op.invoke red codec wire intent) c tr (.ok o) c' → o.status = .succeeded →
    ∃ tr₁ tr₂ token reply v pull, tr = tr₁ ++ tr₂ ∧ writes tr₁ = [(op.sends token, reply)] ∧
      MergeAcknowledged reply ∧
      (∃ x ∈ tr₂, Answered (pullPath op.approved.repository op.approved.pullRequestNumber) v x) ∧
      pullRequest wire v op.approved.repository = .ok pull ∧ ApprovedMerge op pull ∧
      Succeeds red wire o pull.nodeId pull.asdict
  mergeReconciles : ∀ (op : MergeOperation) (intent : OperationIntent red) c tr r c',
    Talking.Runs (op.reconcile red codec wire intent) c tr r c' →
    writes tr = [] ∧ ∀ o, r = .ok o → ∃ v pull,
      Shown c (pullPath op.approved.repository op.approved.pullRequestNumber) v tr ∧
      pullRequest wire v op.approved.repository = .ok pull ∧ ApprovedMerge op pull ∧
      Succeeds red wire o pull.nodeId pull.asdict
  queueEnds : ∀ (op : MergeOperation) (intent : OperationIntent red)
    (world : List (Exchange Ask Answer) → (q : Ask) → Answer q) (c : Cache),
    let ended := (enqueueInvoke red codec wire op intent c).play world []
    Talking.Runs (enqueueInvoke red codec wire op intent) c ended.1 ended.2.1 ended.2.2
  queueSendsOnce : ∀ (op : MergeOperation) (intent : OperationIntent red) c tr r c',
    Talking.Runs (enqueueInvoke red codec wire op intent) c tr r c' →
    writes tr = [] ∨ ∃ token reply, writes tr = [(mutationRequest op.record.pullRequest.nodeId
      op.approved.headSha (codec.uuidText intent.row.id) token, reply)]
  queueResolves : ∀ (op : MergeOperation) (intent : OperationIntent red) c tr o c',
    Talking.Runs (enqueueInvoke red codec wire op intent) c tr (.ok o) c' →
    o.status = .failed ∨ o.status = .succeeded
  queueFailed : ∀ (op : MergeOperation) (intent : OperationIntent red) c tr o c',
    Talking.Runs (enqueueInvoke red codec wire op intent) c tr (.ok o) c' → o.status = .failed →
    ∀ w ∈ writes tr, MutationRefused w.2
  queueSucceeded : ∀ (op : MergeOperation) (intent : OperationIntent red) c tr o c',
    Talking.Runs (enqueueInvoke red codec wire op intent) c tr (.ok o) c' → o.status = .succeeded →
    ∃ token reply receipt, writes tr = [(mutationRequest op.record.pullRequest.nodeId
        op.approved.headSha (codec.uuidText intent.row.id) token, reply)] ∧
      Admitted op (codec.uuidText intent.row.id) reply receipt ∧ BoundReceipt op receipt ∧
      Succeeds red wire o receipt.entryId receipt.modelDump
  queueReconciles : ∀ (op : MergeOperation) (intent : OperationIntent red) c tr r c',
    Talking.Runs (enqueueReconcile red codec wire op intent) c tr r c' →
    (∀ w ∈ writes tr, ∃ token, w.1 = queryRequest op.record.pullRequest.nodeId token) ∧
      ∀ o, r = .ok o → QueueReconciled red wire op tr o
  queryOnly : observeText ≠ enqueueText
  raisedUnresolved : ∀ (describe : Raised → String) (e : Raised) (lease : ℤ) (store : Store)
    (intent : OperationIntent red) (owner : String) (flag renewing : Bool) (tick : Tick red),
    tick.reply = adapterReply red describe (.error e) →
    (∀ pc ∈ [Pc.invoking intent owner flag renewing, Pc.querying intent owner flag renewing],
      (procStep red lease store pc tick).1 = store ∧
      LeavesOpen red (procStep red lease store pc tick).2.1) ∧
    ∀ (pc : Pc red) tick', LeavesOpen red pc →
      Unresolved store (procStep red lease store pc tick').1

/-- Merge outcomes are sound. -/
theorem merge_outcomes (codec : Codec) (wire : Wire) : MergeLaw red codec wire where
  mergeEnds op intent world c := Talking.runs_play _ world c
  mergeSendsOnce op intent c tr r c' h := by
    rcases mergeInvoke_runs red codec wire op intent c c' tr r h with
      ⟨hw, -⟩ | ⟨tr₁, tr₂, token, reply, rfl, hw₁, hw₂, -⟩
    · exact .inl hw
    · exact .inr ⟨token, reply, by rw [writes_append, hw₁, hw₂, List.append_nil]⟩
  mergeResolves op intent c tr o c' h := by
    rcases mergeInvoke_runs red codec wire op intent c c' tr _ h with
      ⟨-, ho⟩ | ⟨tr₁, tr₂, token, reply, rfl, -, -, ho⟩
    · exact .inl (ho o rfl)
    · rcases ho o rfl with ⟨hf, -⟩ | ⟨-, v, pull, -, -, -, hs⟩
      · exact .inl hf
      · exact .inr hs.1
  mergeFailed op intent c tr o c' h hf := by
    rcases mergeInvoke_runs red codec wire op intent c c' tr _ h with
      ⟨hw, -⟩ | ⟨tr₁, tr₂, token, reply, rfl, hw₁, hw₂, ho⟩
    · rw [hw]
      exact fun w hw => absurd hw List.not_mem_nil
    · rcases ho o rfl with ⟨-, hr⟩ | ⟨-, v, pull, -, -, -, hs⟩
      · intro w hw
        rw [writes_append, hw₁, hw₂, List.append_nil, List.mem_singleton] at hw
        rwa [hw]
      · rw [hs.1] at hf
        cases hf
  mergeSucceeded op intent c tr o c' h hs := by
    rcases mergeInvoke_runs red codec wire op intent c c' tr _ h with
      ⟨-, ho⟩ | ⟨tr₁, tr₂, token, reply, htr, hw₁, -, ho⟩
    · rw [ho o rfl] at hs
      cases hs
    · rcases ho o rfl with ⟨hf, -⟩ | ⟨hack, v, pull, hv, hx, hmerge, hsucc⟩
      · rw [hf] at hs
        cases hs
      · exact ⟨tr₁, tr₂, token, reply, v, pull, htr, hw₁, hack, hx, hv, hmerge, hsucc⟩
  mergeReconciles op intent c tr r c' h := by
    obtain ⟨hw, ho⟩ := mergeReconcile_runs red codec wire op intent c c' tr r h
    refine ⟨hw, fun o hr => ?_⟩
    obtain ⟨v, pull, hv, hs, hmerge, hsucc⟩ := ho o hr
    exact ⟨v, pull, hs, hv, hmerge, hsucc⟩
  queueEnds op intent world c := Talking.runs_play _ world c
  queueSendsOnce op intent c tr r c' h := by
    rcases enqueueInvoke_runs red codec wire op intent c c' tr r h with
      ⟨hw, -⟩ | ⟨token, reply, hw, -⟩
    · exact .inl hw
    · exact .inr ⟨token, reply, hw⟩
  queueResolves op intent c tr o c' h := by
    rcases enqueueInvoke_runs red codec wire op intent c c' tr _ h with
      ⟨-, ho⟩ | ⟨token, reply, -, ho⟩
    · exact .inl (ho o rfl)
    · rcases ho o rfl with ⟨hf, -⟩ | ⟨receipt, -, -, hs⟩
      · exact .inl hf
      · exact .inr hs.1
  queueFailed op intent c tr o c' h hf := by
    rcases enqueueInvoke_runs red codec wire op intent c c' tr _ h with
      ⟨hw, -⟩ | ⟨token, reply, hw, ho⟩
    · rw [hw]
      exact fun w hw => absurd hw List.not_mem_nil
    · rcases ho o rfl with ⟨-, hr⟩ | ⟨receipt, -, -, hs⟩
      · intro w hmem
        rw [hw, List.mem_singleton] at hmem
        rwa [hmem]
      · rw [hs.1] at hf
        cases hf
  queueSucceeded op intent c tr o c' h hs := by
    rcases enqueueInvoke_runs red codec wire op intent c c' tr _ h with
      ⟨-, ho⟩ | ⟨token, reply, hw, ho⟩
    · rw [ho o rfl] at hs
      cases hs
    · rcases ho o rfl with ⟨hf, -⟩ | ⟨receipt, hadm, hb, hsucc⟩
      · rw [hf] at hs
        cases hs
      · exact ⟨token, reply, receipt, hw, hadm, hb, hsucc⟩
  queueReconciles op intent c tr r c' h :=
    enqueueReconcile_runs red codec wire op intent c c' tr r h
  queryOnly := observeText_ne
  raisedUnresolved describe e lease store intent owner flag renewing tick ht := by
    refine ⟨fun pc hpc => ?_, fun pc tick' hpc => ?_⟩
    · simp only [List.mem_cons, List.not_mem_nil, or_false] at hpc
      rcases hpc with rfl | rfl
      · simp only [procStep, ht, adapterReply]
        split
        · exact ⟨rfl, .inr ⟨_, _, _, _, rfl⟩⟩
        · exact ⟨rfl, .inl rfl⟩
      · simp only [procStep, ht, adapterReply]
        exact ⟨trivial, .inr ⟨_, _, _, _, rfl⟩⟩
    · rcases hpc with rfl | ⟨id, error, owner, service, rfl⟩
      · exact unresolved_refl store
      · exact markUnknown_unresolved red lease store id error owner service tick'

end law

end ParallelForge.Release
