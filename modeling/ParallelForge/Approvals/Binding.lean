import ParallelForge.Approvals.Challenge
import ParallelForge.Base.Run
import ParallelForge.Run.Gates

/-!
# Approvals stay bound to what was approved

Calls of the services, the worker's checks and changes of the run in any order.
Beside the rows the system remembers what each challenge was issued for and
which challenge gave which approval. Every step is one of four moves; the
invariant says where each approval comes from and that its version is not
ahead of the run's.
-/

namespace ParallelForge.Approvals
open Base Run

structure Issued where
  challengeId : UUID
  challenge : ApprovalChallenge
  run : RunSnapshot
  deriving DecidableEq

structure Grant where
  challengeId : UUID
  approvalId : UUID
  deriving DecidableEq, Repr

structure System where
  db : ApprovalDb
  issued : List Issued
  grants : List Grant

/-- `keeps` says whether the worker's transaction keeps the rows of a failed check. `rewrite` is
any other write of a run: a new one, or one that does not lower its version. -/
inductive ApprovalOp
  | issue (q : IssueRequest)
  | consume (q : ConsumeRequest)
  | authorize (q : AuthorizeRequest)
  | validate (command : ApprovalCommand) (now : ℤ) (keeps : Bool)
  | engine (runId : UUID) (op : EngineOp)
  | rewrite (runId : UUID) (next : RunSnapshot)
  | invalidateGate (gate : ApprovalGate) (runId : UUID) (runVersion at' : ℤ)
  | prepare (q : PrepareRequest)
  | sessions (rows : Table UUID OperatorSession)

def rewriteRun (db : ApprovalDb) (runId : UUID) (next : RunSnapshot) : ApprovalDb :=
  match db.runs.get runId with
  | none => { db with runs := db.runs.put runId next }
  | some run =>
    if run.version ≤ next.version then { db with runs := db.runs.put runId next } else db

def engineRun (db : ApprovalDb) (runId : UUID) (op : EngineOp) : ApprovalDb :=
  match db.runs.get runId with
  | none => db
  | some run => match op.apply run with
    | .ok next => { db with runs := db.runs.put runId next }
    | .error _ => db

section system
variable (hashToken : String → String) (uuidText : UUID → String) (uuidOf : String → Option UUID)

def approvalStep (s : System) : ApprovalOp → System
  | .issue q => match issue hashToken s.db q with
    | .ok (db, row, run) => { s with db := db, issued := s.issued ++ [⟨q.challengeId, row, run⟩] }
    | .error _ => s
  | .consume q => match consume hashToken s.db q with
    | .ok db => { s with db := db }
    | .error _ => s
  | .authorize q => match authorize hashToken uuidText s.db q with
    | .ok (db, id) => { s with db := db, grants := s.grants ++ [⟨id, q.approvalId⟩] }
    | .error _ => s
  | .validate command now keeps =>
    if keeps then { s with db := (validateWorkerCommand uuidOf s.db command now).2 } else s
  | .engine runId op => { s with db := engineRun s.db runId op }
  | .rewrite runId next => { s with db := rewriteRun s.db runId next }
  | .invalidateGate gate runId runVersion at' =>
    { s with db := s.db.invalidateGate gate runId runVersion at' }
  | .prepare q => match prepareInternally s.db q with
    | .ok db => { s with db := db }
    | .error _ => s
  | .sessions rows => { s with db := { s.db with sessions := rows } }

end system

/-- The columns of a challenge that nothing changes. -/
def ApprovalChallenge.frozen (c : ApprovalChallenge) : ApprovalChallenge :=
  { c with expiresAt := 0, consumedAt := none }

/-- The columns of an approval that nothing changes. -/
def Approval.frozen (a : Approval) : Approval :=
  { a with invalidatedAt := none, invalidationReason := none }

/-- The approval is for what the challenge was for. -/
structure SameBinding (c : ApprovalChallenge) (a : Approval) : Prop where
  runId : a.runId = c.runId
  gate : a.gate = c.gate
  runVersion : a.runVersion = c.runVersion
  policyVersion : a.policyVersion = c.policyVersion
  evidenceDigest : a.evidenceDigest = c.evidenceDigest

/-- The run is at the version, gate, policy and digest of the challenge. -/
structure RunAt (r : RunSnapshot) (c : ApprovalChallenge) : Prop where
  version : r.version = c.runVersion
  gate : r.pendingGate = some c.gate
  policy : r.policyVersion = some c.policyVersion
  digest : r.pendingEvidenceDigest = some c.evidenceDigest

/-- What the run was matched against when the challenge was issued; a run without a policy
version takes the one of the request. -/
structure IssuedAt (x : Issued) : Prop where
  version : x.run.version = x.challenge.runVersion
  gate : x.run.pendingGate = some x.challenge.gate
  policy : x.run.policyVersion = none ∨ x.run.policyVersion = some x.challenge.policyVersion
  digest : x.run.pendingEvidenceDigest = some x.challenge.evidenceDigest

/-- No row disappears, versions do not go down, and a used challenge stays used. -/
structure Keeps (db db' : ApprovalDb) : Prop where
  runs : ∀ i r, db.runs.get i = some r → ∃ r', db'.runs.get i = some r' ∧ r.version ≤ r'.version
  approvals : ∀ i, (db'.approvals.get i).map Approval.frozen = (db.approvals.get i).map Approval.frozen
  challenges : ∀ i, (db'.challenges.get i).map ApprovalChallenge.frozen =
    (db.challenges.get i).map ApprovalChallenge.frozen
  consumed : ∀ i c c', db.challenges.get i = some c → c.consumedAt ≠ none →
    db'.challenges.get i = some c' → c'.consumedAt ≠ none

inductive Moves (s s' : System) : Prop
  | kept (h : Keeps s.db s'.db) (hi : s'.issued = s.issued) (hg : s'.grants = s.grants)
  | issued (x : Issued) (hfresh : s.db.challenges.get x.challengeId = none) (hat : IssuedAt x)
      (hdb : s'.db = { s.db with challenges := s.db.challenges.put x.challengeId x.challenge })
      (hi : s'.issued = s.issued ++ [x]) (hg : s'.grants = s.grants)
  | authorized (id approvalId : UUID) (c : ApprovalChallenge) (a : Approval) (run : RunSnapshot)
      (at' : ℤ) (hc : s.db.challenges.get id = some c) (hunused : c.consumedAt = none)
      (hfresh : s.db.approvals.get approvalId = none) (hsame : SameBinding c a)
      (hrun : s.db.runs.get a.runId = some run) (hat : RunAt run c)
      (ha : s'.db.approvals = s.db.approvals.put approvalId a)
      (hch : s'.db.challenges = s.db.challenges.modify id fun c => { c with consumedAt := some at' })
      (hr : s'.db.runs = s.db.runs) (hi : s'.issued = s.issued)
      (hg : s'.grants = s.grants ++ [⟨id, approvalId⟩])
  | prepared (approvalId : UUID) (a : Approval) (run next : RunSnapshot)
      (hfresh : s.db.approvals.get approvalId = none) (hrun : s.db.runs.get a.runId = some run)
      (hversion : a.runVersion = run.version) (hnext : next.version = run.version + 1)
      (ha : s'.db.approvals = s.db.approvals.put approvalId a)
      (hch : s'.db.challenges = s.db.challenges)
      (hr : s'.db.runs = s.db.runs.put a.runId next) (hi : s'.issued = s.issued)
      (hg : s'.grants = s.grants)

theorem Keeps.refl (db : ApprovalDb) : Keeps db db :=
  ⟨fun _ r h => ⟨r, h, Int.le_refl _⟩, fun _ => rfl, fun _ => rfl, by
    intro i c c' hc hused hc'
    rw [hc, Option.some.injEq] at hc'
    rw [← hc']
    exact hused⟩

/- A bulk update of the two tables that leaves the frozen columns alone. -/
theorem keeps_mapRows (db : ApprovalDb) (f : UUID → Approval → Approval)
    (g : UUID → ApprovalChallenge → ApprovalChallenge) (hf : ∀ i a, (f i a).frozen = a.frozen)
    (hg : ∀ i c, (g i c).frozen = c.frozen) (hused : ∀ i c, c.consumedAt ≠ none → (g i c).consumedAt ≠ none) :
    Keeps db { db with approvals := db.approvals.mapRows f, challenges := db.challenges.mapRows g } := by
  refine ⟨fun _ r h => ⟨r, h, Int.le_refl _⟩, ?_, ?_, ?_⟩
  · intro i
    rw [Table.get_mapRows, Option.map_map]
    cases db.approvals.get i with
    | none => rfl
    | some a => exact congrArg some (hf i a)
  · intro i
    rw [Table.get_mapRows, Option.map_map]
    cases db.challenges.get i with
    | none => rfl
    | some c => exact congrArg some (hg i c)
  · intro i c c' hc hu hc'
    simp only [Table.get_mapRows, hc, Option.map_some, Option.some.injEq] at hc'
    rw [← hc']
    exact hused i c hu

theorem mapRows_id {κ α : Type} [DecidableEq κ] (t : Table κ α) : t.mapRows (fun _ a => a) = t := by
  obtain ⟨rows, hu⟩ := t
  simp only [Table.mapRows, Table.mk.injEq]
  exact List.map_id rows

theorem keeps_consume (db : ApprovalDb) (id : UUID) (at' : ℤ) : Keeps db (db.consumeChallenge id at') := by
  have h := keeps_mapRows db (fun _ a => a)
    (fun k c => if k = id then { c with consumedAt := some at' } else c) (fun _ _ => rfl)
    (by intro i c; split <;> rfl) (by
      intro i c hc
      split
      · simp
      · exact hc)
  rw [mapRows_id] at h
  exact h

theorem keeps_invalidate (db : ApprovalDb) (id : UUID) (at' : ℤ) :
    Keeps db (db.invalidateApproval id at') := by
  have h := keeps_mapRows db (fun k a => if k = id then
      { a with invalidatedAt := some at', invalidationReason := some "stale approval evidence" } else a)
    (fun _ c => c) (by intro i a; split <;> rfl) (fun _ _ => rfl) (fun _ _ h => h)
  rw [mapRows_id] at h
  exact h

theorem keeps_invalidateGate (db : ApprovalDb) (gate : ApprovalGate) (runId : UUID)
    (runVersion at' : ℤ) : Keeps db (db.invalidateGate gate runId runVersion at') := by
  apply keeps_mapRows
  · intro i a
    split
    · rfl
    · rfl
  · intro i c
    split
    · rfl
    · rfl
  · intro i c hc
    split
    · next h => exact absurd h.2.2.2.1 hc
    · exact hc

theorem keeps_put_run (db : ApprovalDb) (runId : UUID) (next : RunSnapshot)
    (h : ∀ r, db.runs.get runId = some r → r.version ≤ next.version) :
    Keeps db { db with runs := db.runs.put runId next } := by
  refine ⟨?_, fun _ => rfl, fun _ => rfl, (Keeps.refl db).consumed⟩
  intro i r hr
  by_cases hi : i = runId
  · rw [hi] at hr ⊢
    exact ⟨next, Table.get_put_self _ _ _, h r hr⟩
  · exact ⟨r, by rw [← hr]; exact Table.get_put_ne _ _ hi, Int.le_refl _⟩

theorem challengeOf_get (db : ApprovalDb) (tokenHash : String) (id : UUID) (c : ApprovalChallenge)
    (h : db.challengeOf tokenHash = some (id, c)) : db.challenges.get id = some c := by
  have hmem := List.mem_of_head? h
  exact ((Table.mem_select_iff _ _ _ _).mp hmem).1

theorem runMatches_iff (run : RunSnapshot) (gate : ApprovalGate) (version : ℤ) (digest : String) :
    runMatches run gate version digest = true ↔
      run.pendingGate = some gate ∧ run.version = version ∧ run.pendingEvidenceDigest = some digest := by
  simp only [runMatches, Bool.and_eq_true, beq_iff_eq, and_assoc]

theorem challengeMatches_iff (c : ApprovalChallenge) (runId : UUID) (gate : ApprovalGate) (version : ℤ)
    (digest : String) : challengeMatches c runId gate version digest = true ↔
      c.runId = runId ∧ c.gate = gate ∧ c.runVersion = version ∧ c.evidenceDigest = digest := by
  simp only [challengeMatches, Bool.and_eq_true, beq_iff_eq, and_assoc]

section steps
variable (hashToken : String → String) (uuidText : UUID → String) (uuidOf : String → Option UUID)

theorem issue_moves (s : System) (q : IssueRequest) (db : ApprovalDb) (row : ApprovalChallenge)
    (run : RunSnapshot) (h : issue hashToken s.db q = .ok (db, row, run)) :
    Moves s { s with db := db, issued := s.issued ++ [⟨q.challengeId, row, run⟩] } := by
  simp only [issue, bind_eq_ok, require_eq_ok, exists_const] at h
  obtain ⟨⟨row', run'⟩, hfor, hfresh, -, hout⟩ := h
  simp only [Except.ok.injEq, Prod.mk.injEq] at hout
  obtain ⟨rfl, rfl, rfl⟩ := hout
  simp only [challengeFor, bind_eq_ok, require_eq_ok, orRaise_eq_ok, exists_const, runMatches_iff] at hfor
  obtain ⟨session, hactor, gate, hname, u, hhex, live, hlive, found, hfound, ⟨hgate, hversion, hdigest⟩,
    policy, hpolicy, hpositive, hgiven, hrow⟩ := hfor
  simp only [Except.ok.injEq, Prod.mk.injEq] at hrow
  obtain ⟨rfl, rfl⟩ := hrow
  refine Moves.issued ⟨q.challengeId, _, found⟩ hfresh ⟨hversion, hgate, ?_, hdigest⟩ rfl rfl rfl
  cases hp : found.policyVersion with
  | none => exact Or.inl rfl
  | some version =>
    rw [hp] at hpolicy
    have hsame : version = policy := by simpa using hpolicy
    rw [← hsame]
    exact Or.inr rfl

theorem authorize_moves (s : System) (q : AuthorizeRequest) (db : ApprovalDb) (id : UUID)
    (h : authorize hashToken uuidText s.db q = .ok (db, id)) :
    Moves s { s with db := db, grants := s.grants ++ [⟨id, q.approvalId⟩] } := by
  simp only [authorize, bind_eq_ok, require_eq_ok, orRaise_eq_ok, exists_const, runMatches_iff,
    challengeMatches_iff] at h
  obtain ⟨gate, hname, u, hhex, version, hgiven, hnonneg, htoken, run, hrun, live, hlive, v, hplan,
    ⟨id', c⟩, hc, ⟨hunused, hfreshness⟩, ⟨hcrun, hcgate, hcversion, hcdigest⟩, hown, ⟨hgate, hversion, hdigest⟩, policy, hpolicy, hcpolicy,
    approved, hcreate, hout⟩ := h
  simp only [Except.ok.injEq, Prod.mk.injEq] at hout
  obtain ⟨rfl, rfl⟩ := hout
  simp only [ApprovalDb.createApproval, bind_eq_ok, require_eq_ok, exists_const, Except.ok.injEq] at hcreate
  obtain ⟨hfresh, -, rfl⟩ := hcreate
  refine Moves.authorized id' q.approvalId c _ run q.now (challengeOf_get _ _ _ _ hc) hunused hfresh
    ⟨hcrun.symm, hcgate.symm, hcversion.symm, hcpolicy.symm, hcdigest.symm⟩ hrun ?_ rfl rfl rfl rfl rfl
  exact ⟨by rw [hversion, hcversion], by rw [hgate, hcgate], by rw [hpolicy, hcpolicy],
    by rw [hdigest, hcdigest]⟩

theorem prepare_moves (s : System) (q : PrepareRequest) (db : ApprovalDb)
    (h : prepareInternally s.db q = .ok db) : Moves s { s with db := db } := by
  simp only [prepareInternally, bind_eq_ok, require_eq_ok, orRaise_eq_ok, exists_const,
    Except.ok.injEq] at h
  obtain ⟨run, hrun, policy, -, approved, hcreate, hnext, rfl⟩ := h
  simp only [ApprovalDb.createApproval, bind_eq_ok, require_eq_ok, exists_const, Except.ok.injEq] at hcreate
  obtain ⟨hfresh, -, rfl⟩ := hcreate
  exact Moves.prepared q.approvalId _ run q.next hfresh hrun rfl hnext rfl rfl rfl rfl rfl

theorem consume_keeps (db db' : ApprovalDb) (q : ConsumeRequest) (h : consume hashToken db q = .ok db') :
    Keeps db db' := by
  simp only [consume, bind_eq_ok, require_eq_ok, orRaise_eq_ok, exists_const] at h
  obtain ⟨session, hactor, gate, hname, u, hhex, htoken, ⟨id, c⟩, hc, hunused, hown, live, hlive, hmatch,
    hout⟩ := h
  injection hout with hout
  rw [← hout]
  exact keeps_consume db id q.now

/- A failed check may invalidate the approval; one that succeeds changes nothing. -/
theorem validate_keeps (db : ApprovalDb) (command : ApprovalCommand) (now : ℤ) :
    Keeps db (validateWorkerCommand uuidOf db command now).2 := by
  unfold validateWorkerCommand
  split
  · split
    · exact Keeps.refl db
    · split
      · exact Keeps.refl db
      · split
        · split
          · exact Keeps.refl db
          · exact keeps_invalidate db _ now
        · exact Keeps.refl db
  · exact Keeps.refl db

theorem rewrite_keeps (db : ApprovalDb) (runId : UUID) (next : RunSnapshot) :
    Keeps db (rewriteRun db runId next) := by
  unfold rewriteRun
  split
  · next h =>
    apply keeps_put_run
    intro r hr
    rw [h] at hr
    cases hr
  · next run h =>
    split
    · next hle =>
      apply keeps_put_run
      intro r hr
      rw [h, Option.some.injEq] at hr
      rw [← hr]
      exact hle
    · exact Keeps.refl db

theorem engine_keeps (db : ApprovalDb) (runId : UUID) (op : EngineOp) : Keeps db (engineRun db runId op) := by
  unfold engineRun
  split
  · exact Keeps.refl db
  · next run h =>
    split
    · next next' happly =>
      apply keeps_put_run
      intro r hr
      rw [h, Option.some.injEq] at hr
      rw [← hr, apply_version run next' op happly]
      omega
    · exact Keeps.refl db

theorem step_moves (s : System) (op : ApprovalOp) :
    Moves s (approvalStep hashToken uuidText uuidOf s op) := by
  have hsame : Moves s s := Moves.kept (Keeps.refl s.db) rfl rfl
  cases op with
  | issue q =>
    simp only [approvalStep]
    split
    · next db row run h => exact issue_moves hashToken s q db row run h
    · exact hsame
  | consume q =>
    simp only [approvalStep]
    split
    · next db h => exact Moves.kept (consume_keeps hashToken s.db db q h) rfl rfl
    · exact hsame
  | authorize q =>
    simp only [approvalStep]
    split
    · next db id h => exact authorize_moves hashToken uuidText s q db id h
    · exact hsame
  | validate command now keeps =>
    simp only [approvalStep]
    split
    · exact Moves.kept (validate_keeps uuidOf s.db command now) rfl rfl
    · exact hsame
  | engine runId op => exact Moves.kept (engine_keeps s.db runId op) rfl rfl
  | rewrite runId next => exact Moves.kept (rewrite_keeps s.db runId next) rfl rfl
  | invalidateGate gate runId runVersion at' =>
    exact Moves.kept (keeps_invalidateGate s.db gate runId runVersion at') rfl rfl
  | prepare q =>
    simp only [approvalStep]
    split
    · next db h => exact prepare_moves s q db h
    · exact hsame
  | sessions rows =>
    exact Moves.kept ⟨(Keeps.refl s.db).runs, fun _ => rfl, fun _ => rfl, (Keeps.refl s.db).consumed⟩
      rfl rfl

end steps

/-- Where an approval comes from: a challenge that granted it, or a preparation that moved the
run past it. -/
def Origin (s : System) (id : UUID) (a : Approval) : Prop :=
  (∃ x ∈ s.issued, ⟨x.challengeId, id⟩ ∈ s.grants ∧ SameBinding x.challenge a) ∨
    ∃ r, s.db.runs.get a.runId = some r ∧ a.runVersion < r.version

structure Bound (s : System) : Prop where
  versions : ∀ i a, s.db.approvals.get i = some a →
    ∃ r, s.db.runs.get a.runId = some r ∧ a.runVersion ≤ r.version
  origins : ∀ i a, s.db.approvals.get i = some a → Origin s i a
  known : ∀ i c, s.db.challenges.get i = some c →
    ∃ x ∈ s.issued, x.challengeId = i ∧ x.challenge.frozen = c.frozen
  issuedAt : ∀ x ∈ s.issued, IssuedAt x
  used : ∀ g ∈ s.grants, ∃ c, s.db.challenges.get g.challengeId = some c ∧ c.consumedAt ≠ none
  once : (s.grants.map (·.challengeId)).Nodup

theorem some_of_map_eq {α β : Type} (f : α → β) {o o' : Option α} (h : o'.map f = o.map f) {a : α}
    (ha : o = some a) : ∃ a', o' = some a' ∧ f a' = f a := by
  rw [ha, Option.map_some, Option.map_eq_some_iff] at h
  exact h

theorem sameBinding_frozen {c c' : ApprovalChallenge} {a a' : Approval} (h : SameBinding c a)
    (hc : c'.frozen = c.frozen) (ha : a'.frozen = a.frozen) : SameBinding c' a' := by
  simp only [ApprovalChallenge.frozen, ApprovalChallenge.mk.injEq] at hc
  simp only [Approval.frozen, Approval.mk.injEq] at ha
  obtain ⟨-, hcr, hcg, hcv, hcp, hcd, -⟩ := hc
  obtain ⟨har, hag, had, hav, hap, -⟩ := ha
  exact ⟨by rw [har, hcr, h.runId], by rw [hag, hcg, h.gate], by rw [hav, hcv, h.runVersion],
    by rw [hap, hcp, h.policyVersion], by rw [had, hcd, h.evidenceDigest]⟩

theorem frozen_version {a a' : Approval} (h : a'.frozen = a.frozen) :
    a'.runId = a.runId ∧ a'.runVersion = a.runVersion := by
  simp only [Approval.frozen, Approval.mk.injEq] at h
  exact ⟨h.1, h.2.2.2.1⟩

theorem bound_kept (s s' : System) (hb : Bound s) (h : Keeps s.db s'.db) (hi : s'.issued = s.issued)
    (hg : s'.grants = s.grants) : Bound s' := by
  have hback : ∀ i a', s'.db.approvals.get i = some a' →
      ∃ a, s.db.approvals.get i = some a ∧ a.frozen = a'.frozen :=
    fun i a' ha' => some_of_map_eq Approval.frozen (h.approvals i).symm ha'
  constructor
  case versions =>
    intro i a' ha'
    obtain ⟨a, ha, hf⟩ := hback i a' ha'
    obtain ⟨hrun, hversion⟩ := frozen_version hf
    obtain ⟨r, hr, hle⟩ := hb.versions i a ha
    obtain ⟨r', hr', hle'⟩ := h.runs _ r hr
    rw [← hrun, ← hversion]
    exact ⟨r', hr', Int.le_trans hle hle'⟩
  case origins =>
    intro i a' ha'
    obtain ⟨a, ha, hf⟩ := hback i a' ha'
    obtain ⟨hrun, hversion⟩ := frozen_version hf
    rcases hb.origins i a ha with ⟨x, hx, hgrant, hsame⟩ | ⟨r, hr, hlt⟩
    · rw [← hi] at hx
      rw [← hg] at hgrant
      exact Or.inl ⟨x, hx, hgrant, sameBinding_frozen hsame rfl hf.symm⟩
    · obtain ⟨r', hr', hle'⟩ := h.runs _ r hr
      rw [hrun] at hr'
      rw [hversion] at hlt
      exact Or.inr ⟨r', hr', Int.lt_of_lt_of_le hlt hle'⟩
  case known =>
    intro i c' hc'
    obtain ⟨c, hc, hf⟩ := some_of_map_eq ApprovalChallenge.frozen (h.challenges i).symm hc'
    obtain ⟨x, hx, hid, hxf⟩ := hb.known i c hc
    rw [← hi] at hx
    exact ⟨x, hx, hid, hxf.trans hf⟩
  case issuedAt =>
    rw [hi]
    exact hb.issuedAt
  case used =>
    intro g hgrant
    rw [hg] at hgrant
    obtain ⟨c, hc, hused⟩ := hb.used g hgrant
    obtain ⟨c', hc', -⟩ := some_of_map_eq ApprovalChallenge.frozen (h.challenges g.challengeId) hc
    exact ⟨c', hc', h.consumed _ c c' hc hused hc'⟩
  case once =>
    rw [hg]
    exact hb.once

theorem bound_issued (s s' : System) (hb : Bound s) (x : Issued)
    (hfresh : s.db.challenges.get x.challengeId = none) (hat : IssuedAt x)
    (hdb : s'.db = { s.db with challenges := s.db.challenges.put x.challengeId x.challenge })
    (hi : s'.issued = s.issued ++ [x]) (hg : s'.grants = s.grants) : Bound s' := by
  have hold : ∀ y ∈ s.issued, y ∈ s'.issued := by
    intro y hy
    rw [hi]
    exact List.mem_append_left _ hy
  constructor
  case versions =>
    rw [hdb]
    exact hb.versions
  case origins =>
    intro i a ha
    rw [hdb] at ha
    rcases hb.origins i a ha with ⟨y, hy, hgrant, hsame⟩ | hpast
    · rw [← hg] at hgrant
      exact Or.inl ⟨y, hold y hy, hgrant, hsame⟩
    · refine Or.inr ?_
      rw [hdb]
      exact hpast
  case known =>
    intro i c hc
    rw [hdb, Table.get_put] at hc
    split at hc
    · next hid =>
      rw [Option.some.injEq] at hc
      refine ⟨x, ?_, hid.symm, by rw [hc]⟩
      rw [hi]
      exact List.mem_append_right _ (List.mem_singleton_self x)
    · obtain ⟨y, hy, hid, hf⟩ := hb.known i c hc
      exact ⟨y, hold y hy, hid, hf⟩
  case issuedAt =>
    intro y hy
    rw [hi] at hy
    rcases List.mem_append.mp hy with hy | hy
    · exact hb.issuedAt y hy
    · rw [List.mem_singleton.mp hy]
      exact hat
  case used =>
    intro g hgrant
    rw [hg] at hgrant
    obtain ⟨c, hc, hused⟩ := hb.used g hgrant
    refine ⟨c, ?_, hused⟩
    rw [hdb, Table.get_put_ne _ _ (Table.ne_of_get _ hfresh hc)]
    exact hc
  case once =>
    rw [hg]
    exact hb.once

theorem bound_authorized (s s' : System) (hb : Bound s) (id approvalId : UUID) (c : ApprovalChallenge)
    (a : Approval) (run : RunSnapshot) (at' : ℤ) (hc : s.db.challenges.get id = some c)
    (hunused : c.consumedAt = none) (hsame : SameBinding c a)
    (hrun : s.db.runs.get a.runId = some run) (hat : RunAt run c)
    (ha : s'.db.approvals = s.db.approvals.put approvalId a)
    (hch : s'.db.challenges = s.db.challenges.modify id fun c => { c with consumedAt := some at' })
    (hr : s'.db.runs = s.db.runs) (hi : s'.issued = s.issued)
    (hg : s'.grants = s.grants ++ [⟨id, approvalId⟩]) : Bound s' := by
  constructor
  case versions =>
    intro i b hbi
    rw [hr]
    rw [ha, Table.get_put] at hbi
    split at hbi
    · rw [Option.some.injEq] at hbi
      rw [← hbi]
      exact ⟨run, hrun, Int.le_of_eq (by rw [hat.version, hsame.runVersion])⟩
    · exact hb.versions i b hbi
  case origins =>
    intro i b hbi
    rw [ha, Table.get_put] at hbi
    split at hbi
    · next hid =>
      rw [Option.some.injEq] at hbi
      obtain ⟨x, hx, hxid, hxf⟩ := hb.known id c hc
      rw [← hi] at hx
      refine Or.inl ⟨x, hx, ?_, sameBinding_frozen hsame hxf (by rw [hbi])⟩
      rw [hg, hxid, hid]
      exact List.mem_append_right _ (List.mem_singleton_self _)
    · rcases hb.origins i b hbi with ⟨x, hx, hgrant, hxs⟩ | hpast
      · rw [← hi] at hx
        refine Or.inl ⟨x, hx, ?_, hxs⟩
        rw [hg]
        exact List.mem_append_left _ hgrant
      · refine Or.inr ?_
        rw [hr]
        exact hpast
  case known =>
    intro i c' hc'
    rw [hch, Table.get_modify] at hc'
    rw [hi]
    split at hc'
    · next hid =>
      rw [Option.map_eq_some_iff] at hc'
      obtain ⟨c₀, hc₀, hmark⟩ := hc'
      obtain ⟨x, hx, hxid, hxf⟩ := hb.known i c₀ hc₀
      refine ⟨x, hx, hxid, ?_⟩
      rw [hxf, ← hmark]
      rfl
    · exact hb.known i c' hc'
  case issuedAt =>
    rw [hi]
    exact hb.issuedAt
  case used =>
    intro g hgrant
    rw [hg] at hgrant
    rw [hch]
    rcases List.mem_append.mp hgrant with hgrant | hgrant
    · obtain ⟨c₀, hc₀, hused⟩ := hb.used g hgrant
      rw [Table.get_modify]
      split
      · next hid => exact ⟨_, by rw [hc₀]; rfl, by simp⟩
      · exact ⟨c₀, hc₀, hused⟩
    · rw [List.mem_singleton.mp hgrant, Table.get_modify, if_pos rfl, hc]
      exact ⟨_, rfl, by simp⟩
  case once =>
    rw [hg, List.map_append, List.nodup_append]
    refine ⟨hb.once, List.nodup_singleton _, ?_⟩
    intro k hk l hl hkl
    -- a challenge that granted something is consumed
    rw [List.map_singleton, List.mem_singleton] at hl
    obtain ⟨g, hgrant, hgk⟩ := List.mem_map.mp hk
    obtain ⟨c₀, hc₀, hused⟩ := hb.used g hgrant
    rw [hgk, hkl, hl, hc, Option.some.injEq] at hc₀
    rw [← hc₀] at hused
    exact hused hunused

theorem bound_prepared (s s' : System) (hb : Bound s) (approvalId : UUID) (a : Approval)
    (run next : RunSnapshot) (hrun : s.db.runs.get a.runId = some run)
    (hversion : a.runVersion = run.version) (hnext : next.version = run.version + 1)
    (ha : s'.db.approvals = s.db.approvals.put approvalId a)
    (hch : s'.db.challenges = s.db.challenges) (hr : s'.db.runs = s.db.runs.put a.runId next)
    (hi : s'.issued = s.issued) (hg : s'.grants = s.grants) : Bound s' := by
  have hclimb : ∀ i r, s.db.runs.get i = some r → ∃ r', s'.db.runs.get i = some r' ∧ r.version ≤ r'.version := by
    intro i r hri
    rw [hr]
    by_cases hid : i = a.runId
    · rw [hid, hrun, Option.some.injEq] at hri
      rw [hid, Table.get_put_self, ← hri]
      exact ⟨next, rfl, by omega⟩
    · rw [Table.get_put_ne _ _ hid]
      exact ⟨r, hri, Int.le_refl _⟩
  have hpast : ∃ r, s'.db.runs.get a.runId = some r ∧ a.runVersion < r.version := by
    rw [hr, Table.get_put_self]
    exact ⟨next, rfl, by omega⟩
  constructor
  case versions =>
    intro i b hbi
    rw [ha, Table.get_put] at hbi
    split at hbi
    · rw [Option.some.injEq] at hbi
      rw [← hbi]
      obtain ⟨r, hget, hlt⟩ := hpast
      exact ⟨r, hget, Int.le_of_lt hlt⟩
    · obtain ⟨r, hget, hle⟩ := hb.versions i b hbi
      obtain ⟨r', hget', hle'⟩ := hclimb _ r hget
      exact ⟨r', hget', Int.le_trans hle hle'⟩
  case origins =>
    intro i b hbi
    rw [ha, Table.get_put] at hbi
    split at hbi
    · rw [Option.some.injEq] at hbi
      rw [← hbi]
      exact Or.inr hpast
    · rcases hb.origins i b hbi with ⟨x, hx, hgrant, hxs⟩ | ⟨r, hget, hlt⟩
      · rw [← hi] at hx
        rw [← hg] at hgrant
        exact Or.inl ⟨x, hx, hgrant, hxs⟩
      · obtain ⟨r', hget', hle'⟩ := hclimb _ r hget
        exact Or.inr ⟨r', hget', Int.lt_of_lt_of_le hlt hle'⟩
  case known =>
    rw [hch, hi]
    exact hb.known
  case issuedAt =>
    rw [hi]
    exact hb.issuedAt
  case used =>
    rw [hg, hch]
    exact hb.used
  case once =>
    rw [hg]
    exact hb.once

theorem bound_moves (s s' : System) (hb : Bound s) (h : Moves s s') : Bound s' := by
  cases h with
  | kept hk hi hg => exact bound_kept s s' hb hk hi hg
  | issued x hfresh hat hdb hi hg => exact bound_issued s s' hb x hfresh hat hdb hi hg
  | authorized id approvalId c a run at' hc hunused _ hsame hrun hat ha hch hr hi hg =>
    exact bound_authorized s s' hb id approvalId c a run at' hc hunused hsame hrun hat ha hch hr hi hg
  | prepared approvalId a run next _ hrun hversion hnext ha hch hr hi hg =>
    exact bound_prepared s s' hb approvalId a run next hrun hversion hnext ha hch hr hi hg

/-- Approvals stay, with what they are bound to. -/
def Lasts (s s' : System) : Prop :=
  ∀ i a, s.db.approvals.get i = some a →
    ∃ a', s'.db.approvals.get i = some a' ∧ a'.frozen = a.frozen

theorem lasts_moves (s s' : System) (h : Moves s s') : Lasts s s' := by
  intro i a ha
  cases h with
  | kept hk hi hg => exact some_of_map_eq Approval.frozen (hk.approvals i) ha
  | issued x hfresh hat hdb hi hg =>
    rw [hdb]
    exact ⟨a, ha, rfl⟩
  | authorized id approvalId c b run at' hc hunused hfresh hsame hrun hat hput hch hr hi hg =>
    rw [hput, Table.get_put_ne _ _ (Table.ne_of_get _ hfresh ha)]
    exact ⟨a, ha, rfl⟩
  | prepared approvalId b run next hfresh hrun hversion hnext hput hch hr hi hg =>
    rw [hput, Table.get_put_ne _ _ (Table.ne_of_get _ hfresh ha)]
    exact ⟨a, ha, rfl⟩

section runs
variable (hashToken : String → String) (uuidText : UUID → String) (uuidOf : String → Option UUID)

/-- Runs and sessions as they are, no challenge and no approval yet. -/
def initialSystem (runs : Table UUID RunSnapshot) (sessions : Table UUID OperatorSession) : System :=
  ⟨⟨runs, sessions, Table.empty, Table.empty, [], []⟩, [], []⟩

theorem bound_initial (runs : Table UUID RunSnapshot) (sessions : Table UUID OperatorSession) :
    Bound (initialSystem runs sessions) := by
  constructor
  case versions => simp [initialSystem]
  case origins => simp [initialSystem]
  case known => simp [initialSystem]
  case issuedAt => simp [initialSystem]
  case used => simp [initialSystem]
  case once => exact List.nodup_nil

theorem bound_run (s : System) (ops : List ApprovalOp) (h : Bound s) :
    Bound (run (approvalStep hashToken uuidText uuidOf) s ops) :=
  run_invariant _ Bound (fun s op hb => bound_moves s _ hb (step_moves hashToken uuidText uuidOf s op))
    s ops h

theorem lasts_run (s : System) (ops : List ApprovalOp) :
    Lasts s (run (approvalStep hashToken uuidText uuidOf) s ops) := by
  apply run_climbs _ Lasts
  · exact fun s i a ha => ⟨a, ha, rfl⟩
  · intro a b c hab hbc i x hx
    obtain ⟨y, hy, hyx⟩ := hab i x hx
    obtain ⟨z, hz, hzy⟩ := hbc i y hy
    exact ⟨z, hz, hzy.trans hyx⟩
  · exact fun s op => lasts_moves s _ (step_moves hashToken uuidText uuidOf s op)

/- What a check that succeeds has seen. -/
theorem validate_eq_ok (db : ApprovalDb) (command : ApprovalCommand) (now : ℤ) (id : UUID) (a : Approval)
    (h : (validateWorkerCommand uuidOf db command now).1 = .ok (id, a)) :
    ∃ r, db.runs.get command.runId = some r ∧ db.approvals.get id = some a ∧ a.runId = command.runId ∧
      r.version = a.runVersion ∧ r.pendingGate = some a.gate ∧ r.policyVersion = some a.policyVersion ∧
      r.pendingEvidenceDigest = some a.evidenceDigest := by
  unfold validateWorkerCommand at h
  split at h
  · split at h
    · cases h
    · split at h
      · cases h
      · split at h
        · next approval r happroval hr =>
          split at h
          · next hcurrent =>
            simp only [Except.ok.injEq, Prod.mk.injEq] at h
            obtain ⟨rfl, rfl⟩ := h
            simp only [approvalIsCurrent, Bool.and_eq_true, beq_iff_eq] at hcurrent
            obtain ⟨⟨⟨⟨⟨⟨⟨⟨-, hrun⟩, hgate⟩, -⟩, -⟩, hversion⟩, hpolicy⟩, hpending⟩, hdigest⟩ := hcurrent
            rw [← hgate] at hpending
            exact ⟨r, hr, happroval, hrun, hversion, hpending, hpolicy, hdigest⟩
          · cases h
        · cases h
  · cases h

/-- In any order of the calls each challenge gives at most one approval. A check of the worker
succeeds only while the run is at the version, gate, policy and digest that a challenge was
issued for, the one that gave the approval. An approval that exists when a run has some
version is never validated once the run has a later one. -/
theorem approvals_bound (runs : Table UUID RunSnapshot) (sessions : Table UUID OperatorSession)
    (ops : List ApprovalOp) :
    let s := run (approvalStep hashToken uuidText uuidOf) (initialSystem runs sessions) ops
    (s.grants.map (·.challengeId)).Nodup ∧
    (∀ command now id a, (validateWorkerCommand uuidOf s.db command now).1 = .ok (id, a) →
      ∃ r, s.db.runs.get command.runId = some r ∧ ∃ x ∈ s.issued, ⟨x.challengeId, id⟩ ∈ s.grants ∧
        x.challenge.runId = command.runId ∧ RunAt r x.challenge ∧ IssuedAt x) ∧
    ∀ later runId r r' id a,
      s.db.runs.get runId = some r → s.db.approvals.get id = some a → a.runId = runId →
      (run (approvalStep hashToken uuidText uuidOf) s later).db.runs.get runId = some r' →
      r.version < r'.version →
      ∀ command now b, (validateWorkerCommand uuidOf
        (run (approvalStep hashToken uuidText uuidOf) s later).db command now).1 ≠ .ok (id, b) := by
  intro s
  have hb : Bound s := bound_run hashToken uuidText uuidOf _ ops (bound_initial runs sessions)
  refine ⟨hb.once, ?_, ?_⟩
  · intro command now id a h
    obtain ⟨r, hr, ha, hrun, hversion, hgate, hpolicy, hdigest⟩ := validate_eq_ok uuidOf _ _ _ _ _ h
    refine ⟨r, hr, ?_⟩
    rcases hb.origins id a ha with ⟨x, hx, hgrant, hsame⟩ | ⟨r', hr', hlt⟩
    · exact ⟨x, hx, hgrant, by rw [← hsame.runId, hrun],
        ⟨by rw [hversion, hsame.runVersion], by rw [hgate, hsame.gate],
          by rw [hpolicy, hsame.policyVersion], by rw [hdigest, hsame.evidenceDigest]⟩,
        hb.issuedAt x hx⟩
    · rw [hrun, hr, Option.some.injEq] at hr'
      rw [← hr', hversion] at hlt
      exact absurd hlt (Int.lt_irrefl _)
  · intro later runId r r' id a hr ha harun hr' hlt command now b hok
    obtain ⟨q, hq, hbget, hbrun, hbversion, -⟩ := validate_eq_ok uuidOf _ _ _ _ _ hok
    obtain ⟨b', hb', hfrozen⟩ := lasts_run hashToken uuidText uuidOf s later id a ha
    rw [hb', Option.some.injEq] at hbget
    rw [hbget] at hfrozen
    obtain ⟨hsamerun, hsameversion⟩ := frozen_version hfrozen
    obtain ⟨r₀, hr₀, hle⟩ := hb.versions id a ha
    rw [harun, hr, Option.some.injEq] at hr₀
    rw [← hr₀] at hle
    rw [← hbrun, hsamerun, harun, hr', Option.some.injEq] at hq
    rw [hq] at hlt
    omega

end runs

section sample

def sampleSession : OperatorSession := ⟨"session", some 5, some "csrf", 900, some 900, some 900, none⟩

def sampleRow : RunSnapshot :=
  { sampleRun with
    state := .awaitingPlanApproval, version := 4, pendingGate := some .plan
    pendingEvidenceDigest := some sampleDigest, resource_ok := by decide, pending_ok := by decide }

def sampleIssue : IssueRequest := ⟨⟨5, 6⟩, 3, "plan", 4, sampleDigest, none, none, 10, "secret", 8⟩

def sampleAuthorize : AuthorizeRequest :=
  ⟨⟨5, 6⟩, 3, "plan", some 4, sampleDigest, "secret", none, 20, 9, none⟩

def sampleSystem (ops : List ApprovalOp) : System :=
  run (approvalStep id toString fun _ => some 9)
    (initialSystem (Table.empty.put 3 sampleRow) (Table.empty.put 6 sampleSession)) ops

/- The approval of an issued challenge validates, until the run is paused. -/
example : (((sampleSystem [.issue sampleIssue, .authorize sampleAuthorize]).db.commands.map fun c =>
      (validateWorkerCommand (fun _ => some 9)
        (sampleSystem [.issue sampleIssue, .authorize sampleAuthorize]).db c 30).1.isOk) = [true]) ∧
    ((sampleSystem [.issue sampleIssue, .authorize sampleAuthorize]).db.commands.map fun c =>
      (validateWorkerCommand (fun _ => some 9)
        (sampleSystem [.issue sampleIssue, .authorize sampleAuthorize, .engine 3 .pause]).db c 30).1.isOk)
      = [false] := by
  decide

end sample

end ParallelForge.Approvals
