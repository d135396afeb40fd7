import ParallelForge.Operation.Contract
import ParallelForge.Release.Record

/-!
# What an applied release call establishes

For each method: the row it writes, the intents it consumed with their roles
and outcomes, and the head it follows. The same call made again at once finds
its own receipt and writes nothing.
-/

namespace ParallelForge.Release
open Base Operation
open Value hiding none

variable {red : Durability} (codec : Codec) (runId : UUID)

/-- A member of the outcome of an intent. -/
def outcomeOf (store : Store) (i : UUID) (key : String) : Value :=
  match store.get i with
  | some op => get (codec.read (op.outcome.getD "")) key
  | none => .none

def headOf (store : Store) (i : UUID) : Value := outcomeOf codec store i "head_sha"

/-- The head a push or an update of the branch starts from. -/
def previousHead (store : Store) (i : UUID) : Value :=
  match store.get i with
  | some op =>
    if op.kind = "push_branch" then get (request codec op) "previous_head_sha"
    else get (request codec op) "head_sha"
  | none => .none

/-- What an intent can be used for: its kind, and whether its outcome names a
pull request. -/
abbrev Role := String × Bool

def roleOf (op : OperationRow) : Role :=
  (op.kind, hasKey (codec.read (op.outcome.getD "")) "number")

def Effect.tagged : Effect → List (UUID × Role)
  | .published push publication =>
    [(push, "push_branch", false), (publication, "create_pr", true)]
  | .reviewed push => [(push, "push_branch", true)]
  | .based update adoption => [(update, "update_branch", true), (adoption, "adopt_base", true)]
  | .merged intent => [(intent, "merge_pr", true)]

def Effect.intents (e : Effect) : List UUID := e.tagged.map Prod.fst

/-- The intents whose outcome is the pull request. -/
def Effect.settled : Effect → List UUID
  | .published _ publication => [publication]
  | .reviewed push => [push]
  | .based update adoption => [update, adoption]
  | .merged intent => [intent]

/-- The intent that stands for the effect. -/
def Effect.primary : Effect → UUID
  | .published _ publication => publication
  | .reviewed push => push
  | .based update _ => update
  | .merged intent => intent

def HasRole (store : Store) (i : UUID) (role : Role) : Prop :=
  ∃ op, store.get i = some op ∧ op.status = .succeeded ∧ roleOf codec op = role

/-- The intents of an effect: succeeded, in their roles, of one outcome. -/
structure Sound (store : Store) (e : Effect) : Prop where
  roles : ∀ t ∈ e.tagged, HasRole codec store t.1 t.2
  heads : ∀ i ∈ e.settled, headOf codec store i = headOf codec store e.primary

/-- The head and base of the row are those of each settled intent. -/
def RowIs (store : Store) (e : Effect) (row : PullRequest) : Prop :=
  ∀ i ∈ e.settled, outcomeOf codec store i "head_sha" = .str row.headSha ∧
    outcomeOf codec store i "base_sha" = .str row.baseSha

/-- What an applied call says about the row before it. -/
def Follows (store : Store) (before : Option PullRequest) : Effect → Prop
  | .published _ _ => before = none
  | .reviewed push => ∃ row, before = some row ∧ row.state ≠ .merged ∧
      previousHead codec store push = .str row.headSha
  | .based update _ => ∃ row, before = some row ∧ row.state ≠ .merged ∧
      previousHead codec store update = .str row.headSha
  | .merged _ => ∃ row, before = some row ∧ row.state ≠ .merged

/-- The columns beside head and base. -/
def Columns (before : Option PullRequest) (row : PullRequest) : Effect → Prop
  | .published _ _ => row.state = .open ∧ row.mergeIntentId = none ∧
      row.candidateEvidenceDigest = none ∧ row.reviewedPushIntentId = none ∧
      row.checks = [] ∧ row.reviewState = []
  | .reviewed push => (∃ old, before = some old ∧ row.state = old.state ∧
      row.mergeIntentId = old.mergeIntentId) ∧ row.candidateEvidenceDigest.isSome ∧
      row.reviewedPushIntentId = some push ∧ row.checks = [] ∧ row.reviewState = []
  | .based _ _ => (∃ old, before = some old ∧ row.state = old.state ∧
      row.mergeIntentId = old.mergeIntentId) ∧ row.candidateEvidenceDigest = none ∧
      row.reviewedPushIntentId = none ∧ row.checks = [] ∧ row.reviewState = []
  | .merged intent => row.state = .merged ∧ row.mergeIntentId = some intent ∧
      ∃ old, before = some old ∧ old.mergeIntentId = none ∧ row.headSha = old.headSha ∧
        row.candidateEvidenceDigest = old.candidateEvidenceDigest ∧
        row.reviewedPushIntentId = old.reviewedPushIntentId

structure Applied (store : Store) (before : Option PullRequest) (row : PullRequest) (e : Effect) :
    Prop where
  sound : Sound codec store e
  rowIs : RowIs codec store e row
  follows : Follows codec store before e
  columns : Columns before row e

section reading
variable {codec} {runId}

theorem operation_eq_ok (db : Surroundings) (i : UUID) (op : OperationRow) :
    operation red db i = .ok op ↔ db.operations.get i = some op ∧ wellFormed red op = true := by
  unfold operation getIntent locked
  cases h : db.operations.get i with
  | none => simp [bind, Except.bind]
  | some r =>
    by_cases hw : wellFormed red r = true
    · simp only [bind, Except.bind, intentFromRecord, hw, dite_true, Except.ok.injEq,
        Option.some.injEq]
      constructor
      · intro he
        exact ⟨he, he ▸ hw⟩
      · intro he
        exact he.1
    · simp only [bind, Except.bind, intentFromRecord, hw, dite_false, reduceCtorEq, false_iff,
        Option.some.injEq, not_and]
      intro he
      exact he ▸ hw

@[simp] theorem check_eq_ok (c : Prop) [Decidable c] (u : Unit) : check c = .ok u ↔ c :=
  require_eq_ok c _ u

/- An outcome that equals a pull request. -/
theorem outcomeIs_eq_true (op : OperationRow) (d : Dict) (h : outcomeIs codec op d = true) :
    ∃ text, op.outcome = some text ∧ sameDict (codec.read text) d = true := by
  unfold outcomeIs at h
  cases ho : op.outcome with
  | none => simp [ho] at h
  | some text => exact ⟨text, rfl, by simpa [ho] using h⟩

theorem outcome_str (store : Store) (i : UUID) (op : OperationRow) (d : Dict)
    (hop : store.get i = some op) (h : outcomeIs codec op d = true) (key s : String)
    (hs : lookup d key = some (.str s)) : outcomeOf codec store i key = .str s := by
  obtain ⟨text, ho, hd⟩ := outcomeIs_eq_true op d h
  simp only [outcomeOf, hop, ho, Option.getD_some]
  exact sameDict_str _ _ hd key s hs

theorem outcome_head (store : Store) (i : UUID) (op : OperationRow) (pull : GitHubPullRequest)
    (hop : store.get i = some op) (h : outcomeIs codec op pull.asdict = true) :
    outcomeOf codec store i "head_sha" = .str pull.headSha :=
  outcome_str store i op _ hop h _ _ (by simp [GitHubPullRequest.asdict, lookup])

theorem outcome_base (store : Store) (i : UUID) (op : OperationRow) (pull : GitHubPullRequest)
    (hop : store.get i = some op) (h : outcomeIs codec op pull.asdict = true) :
    outcomeOf codec store i "base_sha" = .str pull.baseSha :=
  outcome_str store i op _ hop h _ _ (by simp [GitHubPullRequest.asdict, lookup])

/- The outcome of a plain push has no pull-request number. -/
theorem hasRole_of (store : Store) (i : UUID) (op : OperationRow) (d : Dict) (kind : String)
    (hop : store.get i = some op) (hs : op.status = .succeeded) (hk : op.kind = kind)
    (h : outcomeIs codec op d = true) : HasRole codec store i (kind, hasKey d "number") := by
  obtain ⟨text, ho, hd⟩ := outcomeIs_eq_true op d h
  refine ⟨op, hop, hs, ?_⟩
  simp only [roleOf, ho, Option.getD_some, hk, sameDict_hasKey _ _ hd]

/- A row with its managed identity. -/
theorem record_eq_ok (row : PullRequest) (r : ReleaseRecord) (h : record row = .ok r) :
    ∃ nodeId url headRepository, row.nodeId = some nodeId ∧ row.url = some url ∧
      row.headRepository = some headRepository ∧ row.pushIntentId = some r.pushIntentId ∧
      row.publicationIntentId = some r.publicationIntentId ∧
      r.pullRequest = ⟨row.pullRequestNumber, nodeId, url, headRepository, row.branch, row.headSha,
        row.repository, row.baseRef, row.baseSha, stateText row.state, row.state = .merged,
        row.mergeSha⟩ ∧
      r.id = row.id ∧ r.runId = row.runId ∧ r.mergeIntentId = row.mergeIntentId ∧
      r.reviewedPushIntentId = row.reviewedPushIntentId ∧
      r.candidateEvidenceDigest = row.candidateEvidenceDigest ∧
      r.baseUpdateIntentId = row.baseUpdateIntentId ∧
      r.baseAdoptionIntentId = row.baseAdoptionIntentId := by
  unfold record at h
  split at h
  · next nodeId url headRepository push publication h1 h2 h3 h4 h5 =>
    cases h
    exact ⟨nodeId, url, headRepository, h1, h2, h3, h4, h5, rfl, rfl, rfl, rfl, rfl, rfl, rfl, rfl⟩
  · cases h

/- An open pull request is not the one of a merged row. -/
theorem not_merged (row : PullRequest) (r : ReleaseRecord) (h : record row = .ok r)
    (ho : r.pullRequest.merged = false) : row.state ≠ .merged := by
  obtain ⟨_, _, _, -, -, -, -, -, hp, -⟩ := record_eq_ok row r h
  rw [hp] at ho
  simpa using ho

theorem stillOpen_merged (pull : GitHubPullRequest) (h : stillOpen pull = true) :
    pull.merged = false := by
  simp only [stillOpen, Bool.and_eq_true, Bool.not_eq_true', decide_eq_true_eq] at h
  exact h.1.2

theorem publishes_eq_true (policyVersion : ℤ) (pull : GitHubPullRequest) (op : OperationRow)
    (kind : String) (h : publishes codec runId policyVersion pull op kind = true) :
    op.kind = kind ∧ op.status = .succeeded := by
  simp only [publishes, Bool.and_eq_true, decide_eq_true_eq] at h
  exact ⟨h.1.1.1.1.1.1.2, h.1.1.1.1.1.2⟩

theorem updates_eq_true (pull : GitHubPullRequest) (op : OperationRow) (kind keyPart : String)
    (h : updates codec runId pull op kind keyPart = true) :
    op.kind = kind ∧ op.status = .succeeded ∧ outcomeIs codec op pull.asdict = true := by
  simp only [updates, Bool.and_eq_true, decide_eq_true_eq] at h
  exact ⟨h.1.1.1.1.1.1.2, h.1.1.1.1.1.2, h.1.2⟩

end reading

section publication
variable {codec} {runId} {db : Surroundings} {newId : UUID} {pull : GitHubPullRequest}
  {row : Option PullRequest} {row' : PullRequest} {push created : UUID}

theorem getForRun_none (h : getForRun row = .ok none) : row = none := by
  cases row with
  | none => rfl
  | some r =>
    simp only [getForRun, bind_eq_ok] at h
    obtain ⟨_, _, h⟩ := h
    cases h

theorem recordPublication_applied
    (h : recordPublication red codec runId db newId row pull push created = .ok (some row')) :
    Applied codec db.operations row row' (.published push created) := by
  simp only [recordPublication, bind_eq_ok, orRaise_eq_ok, operation_eq_ok, check_eq_ok] at h
  obtain ⟨version, -, p, ⟨hp, -⟩, q, ⟨hq, -⟩, _, hpp, _, hqq, _, ⟨-, hout, -, hpush, -, hopen⟩, current,
    hcur, h⟩ := h
  obtain ⟨hpk, hps⟩ := publishes_eq_true _ _ _ _ hpp
  obtain ⟨hqk, hqs⟩ := publishes_eq_true _ _ _ _ hqq
  cases current with
  | some existing =>
    simp only [bind_eq_ok] at h
    obtain ⟨_, -, h⟩ := h
    cases h
  | none =>
    cases h
    refine ⟨⟨?_, ?_⟩, ?_, getForRun_none hcur, ?_⟩
    · intro t ht
      simp only [Effect.tagged, List.mem_cons, List.not_mem_nil, or_false] at ht
      rcases ht with rfl | rfl
      · exact hasRole_of db.operations push p _ _ hp hps hpk hpush
      · exact hasRole_of db.operations created q _ _ hq hqs hqk hout
    · intro i hi
      simp only [Effect.settled, List.mem_singleton] at hi
      rw [hi]
      rfl
    · intro i hi
      simp only [Effect.settled, List.mem_singleton] at hi
      rw [hi]
      exact ⟨outcome_head db.operations created q pull hq hout,
        outcome_base db.operations created q pull hq hout⟩
    · exact ⟨rfl, rfl, rfl, rfl, rfl, rfl⟩

end publication

section push
variable {codec} {runId} {db : Surroundings} {pull : GitHubPullRequest}
  {before : Option PullRequest} {row' : PullRequest} {push : UUID}

theorem recordReviewedPush_applied
    (h : recordReviewedPush red codec runId db before pull push = .ok (some row')) :
    Applied codec db.operations before row' (.reviewed push) := by
  simp only [recordReviewedPush, bind_eq_ok, orRaise_eq_ok, operation_eq_ok, check_eq_ok] at h
  obtain ⟨row, rfl, current, hrec, op, ⟨hop, -⟩, _, -, _, -, _, ⟨-, hk, hs, -, -⟩, _, -, _,
    ⟨hdigest, hout, -, hpull⟩, _, ⟨-, -, hopen⟩, h⟩ := h
  split at h
  · simp only [bind_eq_ok] at h
    obtain ⟨_, -, h⟩ := h
    cases h
  · simp only [bind_eq_ok, check_eq_ok] at h
    obtain ⟨_, hprev, h⟩ := h
    cases h
    obtain ⟨_, _, _, -, -, -, -, -, hcur, -⟩ := record_eq_ok row current hrec
    have hhead := outcome_head db.operations push op pull hop hout
    have hbase := outcome_base db.operations push op pull hop hout
    rw [hcur] at hpull hprev
    have hmerged : row.state ≠ .merged := by
      refine not_merged row current hrec ?_
      rw [hcur]
      exact (congrArg GitHubPullRequest.merged hpull).trans (stillOpen_merged pull hopen)
    refine ⟨⟨?_, ?_⟩, ?_, ⟨row, rfl, hmerged, ?_⟩, ⟨row, rfl, rfl, rfl⟩, ?_, rfl, rfl, rfl⟩
    · intro t ht
      simp only [Effect.tagged, List.mem_singleton] at ht
      rw [ht]
      exact hasRole_of db.operations push op _ _ hop hs hk hout
    · intro i hi
      simp only [Effect.settled, List.mem_singleton] at hi
      rw [hi]
      rfl
    · intro i hi
      simp only [Effect.settled, List.mem_singleton] at hi
      rw [hi]
      -- a push leaves the base where it was
      exact ⟨hhead, hbase.trans (congrArg (fun p => Value.str p.baseSha) hpull.symm)⟩
    · rw [eq_str_iff] at hprev
      simpa only [previousHead, hop, hk, ite_true] using hprev
    · show Option.isSome _ = true
      cases hd : get (request codec op) "candidate_evidence_digest" <;> simp_all [hexText]

end push

section base
variable {codec} {runId} {db : Surroundings} {pull : GitHubPullRequest}
  {before : Option PullRequest} {row' : PullRequest} {update adoption : UUID}

theorem recordBaseUpdate_applied
    (h : recordBaseUpdate red codec runId db before pull update adoption = .ok (some row')) :
    Applied codec db.operations before row' (.based update adoption) := by
  simp only [recordBaseUpdate, bind_eq_ok, orRaise_eq_ok, operation_eq_ok, check_eq_ok] at h
  obtain ⟨version, -, row, rfl, current, hrec, op, ⟨hop, -⟩, ad, ⟨had, -⟩, _, hu, _, ha, _, -, _, -,
    _, ⟨hopen, hpull⟩, _, -, _, -, h⟩ := h
  obtain ⟨hk, hs, hout⟩ := updates_eq_true _ _ _ _ hu
  obtain ⟨hk', hs', hout'⟩ := updates_eq_true _ _ _ _ ha
  split at h
  · simp only [bind_eq_ok] at h
    obtain ⟨_, -, h⟩ := h
    cases h
  · simp only [bind_eq_ok, check_eq_ok] at h
    obtain ⟨_, ⟨hprev, -⟩, h⟩ := h
    cases h
    obtain ⟨_, _, _, -, -, -, -, -, hcur, -⟩ := record_eq_ok row current hrec
    have hhead := outcome_head db.operations update op pull hop hout
    have hbase := outcome_base db.operations update op pull hop hout
    have hhead' := outcome_head db.operations adoption ad pull had hout'
    have hbase' := outcome_base db.operations adoption ad pull had hout'
    rw [hcur] at hpull hprev
    have hmerged : row.state ≠ .merged := by
      refine not_merged row current hrec ?_
      rw [hcur]
      exact (congrArg GitHubPullRequest.merged hpull).trans (stillOpen_merged pull hopen)
    refine ⟨⟨?_, ?_⟩, ?_, ⟨row, rfl, hmerged, ?_⟩, ⟨row, rfl, rfl, rfl⟩, rfl, rfl, rfl, rfl⟩
    · intro t ht
      simp only [Effect.tagged, List.mem_cons, List.not_mem_nil, or_false] at ht
      rcases ht with rfl | rfl
      · exact hasRole_of db.operations update op _ _ hop hs hk hout
      · exact hasRole_of db.operations adoption ad _ _ had hs' hk' hout'
    · intro i hi
      simp only [Effect.settled, List.mem_cons, List.not_mem_nil, or_false] at hi
      rcases hi with rfl | rfl
      · rfl
      · exact hhead'.trans hhead.symm
    · intro i hi
      simp only [Effect.settled, List.mem_cons, List.not_mem_nil, or_false] at hi
      rcases hi with rfl | rfl
      · exact ⟨hhead, hbase⟩
      · exact ⟨hhead', hbase'⟩
    · rw [eq_str_iff] at hprev
      simpa [previousHead, hop, hk] using hprev

end base

section merge
variable {codec} {runId} {db : Surroundings} {pull : GitHubPullRequest}
  {before : Option PullRequest} {row' : PullRequest} {intent : UUID}

theorem recordMerge_applied
    (h : recordMerge red codec runId db before pull intent = .ok (some row')) :
    ∃ row, before = some row ∧ row.mergeIntentId = none ∧
      Sound codec db.operations (.merged intent) ∧ RowIs codec db.operations (.merged intent) row' ∧
      Columns before row' (.merged intent) := by
  simp only [recordMerge, bind_eq_ok, orRaise_eq_ok, operation_eq_ok, check_eq_ok] at h
  obtain ⟨row, rfl, current, hrec, op, ⟨hop, -⟩, _, -, _, -, _, -, _, -, _, ⟨-, hk, hs, -⟩, _, -, _,
    ⟨hout, -⟩, _, -, _, hpull, h⟩ := h
  obtain ⟨_, _, _, -, -, -, -, -, hcur, -, -, hmi, -⟩ := record_eq_ok row current hrec
  split at h
  · simp only [bind_eq_ok] at h
    obtain ⟨_, -, h⟩ := h
    cases h
  · next hnone =>
    simp only [bind_eq_ok, check_eq_ok] at h
    obtain ⟨_, -, h⟩ := h
    cases h
    have hhead := outcome_head db.operations intent op pull hop hout
    have hbase := outcome_base db.operations intent op pull hop hout
    rw [hcur] at hpull
    have hmn : row.mergeIntentId = none := hmi.symm.trans hnone
    refine ⟨row, rfl, hmn, ⟨?_, ?_⟩, ?_, rfl, rfl, row, rfl, hmn, rfl, rfl, rfl⟩
    · intro t ht
      simp only [Effect.tagged, List.mem_singleton] at ht
      rw [ht]
      exact hasRole_of db.operations intent op _ _ hop hs hk hout
    · intro i hi
      simp only [Effect.settled, List.mem_singleton] at hi
      rw [hi]
      rfl
    · intro i hi
      simp only [Effect.settled, List.mem_singleton] at hi
      rw [hi]
      -- a merge leaves the head where it was
      exact ⟨hhead.trans (congrArg (fun p => Value.str p.headSha) hpull.symm), hbase⟩

end merge

end ParallelForge.Release
