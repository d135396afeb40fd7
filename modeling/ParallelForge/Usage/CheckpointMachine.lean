import ParallelForge.Usage.Checkpoint

/-!
# The checkpoint machine

What any operation can do to the store is said once (`Moves`). From it follow
what every reachable store satisfies and what the operations never take back.
-/

namespace ParallelForge.Usage
open Base

/-- Usage pauses are not disabled together with a next threshold. -/
def Checkpoint.Continues (row : Checkpoint) : Prop :=
  ¬ (row.usagePausesDisabled = true ∧ row.nextCheckpointThresholdTokens ≠ none)

def ofSubject (subject : SubjectKey) (_ : UUID) (row : Checkpoint) : Bool :=
  decide (row.subject = subject)

/-- The generations of a subject's checkpoints, in the order of their creation. -/
def generations (s : CheckpointStore) (subject : SubjectKey) : List ℕ :=
  (s.checkpoints.select (ofSubject subject)).map fun r => r.2.generation

/-- The one after the largest. -/
def IsNext (l : List ℕ) (n : ℕ) : Prop :=
  (l = [] ∧ n = 1) ∨ ∃ top ∈ l, (∀ g ∈ l, g ≤ top) ∧ n = top + 1

/-- A change of one row: its version moves on, it stays the checkpoint it was, it is not
active again, and what settled stays settled. -/
structure Changes (row row' : Checkpoint) : Prop where
  version : row'.version = row.version + 1
  subject : row'.subject = row.subject
  generation : row'.generation = row.generation
  active : row.state.active = false → row'.state.active = false
  kept : row.processSettled = true → row'.processSettled = true
  settled : (row.state.settled = true → row.processSettled = true) →
    row'.state.settled = true → row'.processSettled = true
  continues : row.Continues → row'.Continues

inductive Moves (s : CheckpointStore) : CheckpointStore → Prop
  | same : Moves s s
  | created (id : UUID) (row : Checkpoint) (hid : s.checkpoints.get id = none)
      (hfree : ∀ j r, s.checkpoints.get j = some r → r.subject = row.subject →
        r.state.active = false)
      (hgen : IsNext (generations s row.subject) row.generation) (hstate : row.state = .requested)
      (hcont : row.Continues) :
      Moves s { s with checkpoints := s.checkpoints.put id row }
  | changed (id : UUID) (row row' : Checkpoint) (hid : s.checkpoints.get id = some row)
      (hrow : Changes row row') : Moves s { s with checkpoints := s.checkpoints.put id row' }
  | commanded (id command : UUID) (row row' : Checkpoint) (crow : OwnerCommandRow)
      (hid : s.checkpoints.get id = some row) (hrow : Changes row row')
      (hcommand : s.commands.get command = none) (hcheckpoint : crow.checkpointId = id)
      (hkey : ∀ j r, s.commands.get j = some r → r.checkpointId = crow.checkpointId →
        r.idempotencyKey ≠ crow.idempotencyKey) :
      Moves s ⟨s.checkpoints.put id row', s.commands.put command crow⟩

theorem oneOrNone_eq_none {α : Type} (rows : List α) (h : oneOrNone rows = .ok none) :
    rows = [] := by
  cases rows with
  | nil => rfl
  | cons a rest =>
    cases rest with
    | nil => simp [oneOrNone] at h
    | cons b rest => simp [oneOrNone] at h

theorem record_eq_ok (id : UUID) (row : Checkpoint) (r : CheckpointRecord)
    (h : record id row = .ok r) : r.generation = row.generation ∧ r.version = row.version ∧
      r.checkpointId = id := by
  unfold record at h
  simp only [bind_eq_ok] at h
  obtain ⟨-, -, h⟩ := h
  cases h
  exact ⟨rfl, rfl, rfl⟩

theorem someRecord_eq_ok (id : UUID) (row : Checkpoint) (o : Option CheckpointRecord)
    (h : (some <$> record id row : Except String (Option CheckpointRecord)) = .ok o) :
    ∃ r, o = some r ∧ r.generation = row.generation := by
  cases hr : record id row with
  | error e =>
    rw [hr] at h
    cases h
  | ok r =>
    rw [hr] at h
    cases h
    exact ⟨r, rfl, (record_eq_ok id row r hr).1⟩

theorem activeForSubject_eq_none (s : CheckpointStore) (subject : SubjectKey)
    (h : activeForSubject s subject = .ok none) (id : UUID) (row : Checkpoint)
    (hrow : s.checkpoints.get id = some row) (hs : row.subject = subject) :
    row.state.active = false := by
  unfold activeForSubject at h
  rw [bind_eq_ok] at h
  obtain ⟨found, hfound, h⟩ := h
  cases found with
  | some r =>
    obtain ⟨r', hr', -⟩ := someRecord_eq_ok r.1 r.2 none h
    cases hr'
  | none =>
    have hempty := oneOrNone_eq_none _ hfound
    cases hactive : row.state.active with
    | false => rfl
    | true =>
      have hmem : (id, row) ∈ s.checkpoints.select fun _ row =>
          decide (row.subject = subject) && row.state.active :=
        (Table.mem_select_iff _ _ _ _).mpr ⟨hrow, by simp [hs, hactive]⟩
      rw [hempty] at hmem
      cases hmem

theorem latestFirst_total : Std.Total latestFirst := by
  constructor
  intro a b
  unfold latestFirst
  rcases Nat.le_total a.1 b.1 with hid | hid
  · simp only [hid, and_true]
    omega
  · simp only [hid, and_true]
    omega

theorem latestFirst_trans : IsTrans (UUID × Checkpoint) latestFirst := by
  constructor
  intro a b c hab hbc
  unfold latestFirst at *
  by_cases hids : b.1 ≤ a.1 ∧ c.1 ≤ b.1
  · have hid : c.1 ≤ a.1 := Nat.le_trans hids.2 hids.1
    simp only [hids.1, hids.2, hid, and_true] at *
    omega
  · rcases not_and_or.mp hids with hid | hid
    · simp only [hid, and_false, or_false] at hab
      omega
    · simp only [hid, and_false, or_false] at hbc
      omega

/- The first of the sorted rows has the largest generation. -/
theorem latestForSubject_isNext (s : CheckpointStore) (subject : SubjectKey)
    (latest : Option CheckpointRecord) (h : latestForSubject s subject = .ok latest) :
    IsNext (generations s subject) (nextGeneration latest) := by
  have htotal := latestFirst_total
  have htrans := latestFirst_trans
  have hperm := List.perm_insertionSort latestFirst (s.checkpoints.select (ofSubject subject))
  have hsorted := List.pairwise_insertionSort latestFirst
    (s.checkpoints.select (ofSubject subject))
  have hselect : (s.checkpoints.select fun _ row => decide (row.subject = subject)) =
      s.checkpoints.select (ofSubject subject) := rfl
  rw [latestForSubject, hselect] at h
  cases hl : (s.checkpoints.select (ofSubject subject)).insertionSort latestFirst with
  | nil =>
    rw [hl] at h hperm
    cases h
    exact Or.inl ⟨by rw [generations, ← hperm.nil_eq]; rfl, rfl⟩
  | cons top rest =>
    rw [hl] at h hperm hsorted
    obtain ⟨r, rfl, hgen⟩ := someRecord_eq_ok top.1 top.2 latest h
    refine Or.inr ⟨top.2.generation, ?_, ?_, by rw [nextGeneration, hgen]⟩
    · exact List.mem_map_of_mem (hperm.mem_iff.mp List.mem_cons_self)
    · intro g hg
      obtain ⟨x, hx, rfl⟩ := List.mem_map.mp hg
      rcases List.mem_cons.mp (hperm.mem_iff.mpr hx) with rfl | hx'
      · exact Nat.le_refl _
      · have hle := (List.pairwise_cons.mp hsorted).1 x hx'
        unfold latestFirst at hle
        omega

theorem continues_of_validate (r : CheckpointRecord) (u : Unit) (h : r.validate = .ok u) :
    ¬ (r.usagePausesDisabled = true ∧ r.nextCheckpointThresholdTokens ≠ none) := by
  unfold CheckpointRecord.validate at h
  simp only [bind_eq_ok, require_eq_ok, positive_eq_ok, digest_eq_ok, positiveIfSome_eq_ok,
    exists_const] at h
  obtain ⟨-, -, -, -, -, -, -, -, hcont, -⟩ := h
  exact hcont

theorem request_moves (s s' : CheckpointStore) (context : RequestContext)
    (checkpoint r : CheckpointRecord) (h : request s context checkpoint = .ok (s', r)) :
    Moves s s' := by
  unfold request at h
  simp only [bind_eq_ok, require_eq_ok, exists_const] at h
  obtain ⟨⟨hstate, hversion⟩, -, found, -, h⟩ := h
  cases found with
  | some p =>
    simp only [bind_eq_ok, require_eq_ok, exists_const] at h
    obtain ⟨stored, -, -, h⟩ := h
    cases h
    exact .same
  | none =>
    simp only [bind_eq_ok] at h
    obtain ⟨active, hactive, h⟩ := h
    cases active with
    | some prior =>
      simp only [bind_eq_ok, require_eq_ok, exists_const] at h
      obtain ⟨-, h⟩ := h
      cases h
      exact .same
    | none =>
      simp only [bind_eq_ok, require_eq_ok, positive_eq_ok, exists_const] at h
      obtain ⟨latest, hlatest, -, u, hvalid, ⟨hid, -⟩, h⟩ := h
      cases h
      apply Moves.created checkpoint.checkpointId _ hid
      · intro j row hrow hsubject
        exact activeForSubject_eq_none s checkpoint.binding.subject hactive j row hrow hsubject
      · exact latestForSubject_isNext s checkpoint.binding.subject latest hlatest
      · exact hstate
      · exact continues_of_validate _ u hvalid

theorem edges_inactive (a b : CheckpointState) (h : b ∈ edges a) (ha : a.active = false) :
    b.active = false := by
  cases a <;> cases b <;> simp_all [edges, CheckpointState.active]

theorem transition_moves (s s' : CheckpointStore) (id : UUID) (expectedVersion : ℕ)
    (state : CheckpointState) (processSettled : Bool) (r : CheckpointRecord)
    (h : transition s id expectedVersion state processSettled = .ok (s', r)) : Moves s s' := by
  unfold transition at h
  simp only [bind_eq_ok, require_eq_ok, orRaise_eq_ok, positive_eq_ok, exists_const] at h
  obtain ⟨-, row, hrow, -, hedge, hkept, hsettled, result, -, h⟩ := h
  cases h
  apply Moves.changed id row _ hrow
  constructor
  case version => rfl
  case subject => rfl
  case generation => rfl
  case active => exact edges_inactive row.state state hedge
  case kept => exact hkept
  case settled => exact fun _ => hsettled
  case continues => exact fun hc => hc

/-! ### Owner commands -/

def receiptOf (id : UUID) (row : OwnerCommandRow) : OwnerCommandReceipt where
  commandId := id
  checkpointId := row.checkpointId
  resultVersion := row.resultVersion
  state := row.state
  actorId := row.actorId
  action := row.action
  affectedSnapshot := row.affectedSnapshotDigest
  warnings := row.warnings
  replayed := true

/-- The row records this command, but for the payload. -/
structure Records (row : OwnerCommandRow) (command : OwnerCommand) : Prop where
  checkpoint : row.checkpointId = command.checkpointId
  key : row.idempotencyKey = command.idempotencyKey
  actor : row.actorId = command.actorId
  action : row.action = command.action
  version : row.expectedVersion = command.expectedVersion

theorem receiptForCommand_eq_none (s : CheckpointStore) (command : OwnerCommand)
    (h : receiptForCommand s command = .ok none) (id : UUID) (row : OwnerCommandRow)
    (hrow : s.commands.get id = some row) (hc : row.checkpointId = command.checkpointId) :
    row.idempotencyKey ≠ command.idempotencyKey := by
  unfold receiptForCommand at h
  rw [bind_eq_ok] at h
  obtain ⟨found, hfound, h⟩ := h
  cases found with
  | some r =>
    simp only [bind_eq_ok, require_eq_ok, exists_const] at h
    obtain ⟨-, h⟩ := h
    cases h
  | none =>
    have hempty := oneOrNone_eq_none _ hfound
    intro hk
    have hmem : (id, row) ∈ s.commands.select fun _ row =>
        row.checkpointId == command.checkpointId && row.idempotencyKey == command.idempotencyKey :=
      (Table.mem_select_iff _ _ _ _).mpr ⟨hrow, by simp [hc, hk]⟩
    rw [hempty] at hmem
    cases hmem

theorem receiptForCommand_eq_some (s : CheckpointStore) (command : OwnerCommand)
    (receipt : OwnerCommandReceipt) (h : receiptForCommand s command = .ok (some receipt)) :
    ∃ id row, s.commands.get id = some row ∧ Records row command ∧
      row.commandPayload = command.payload ∧ receipt = receiptOf id row := by
  unfold receiptForCommand at h
  rw [bind_eq_ok] at h
  obtain ⟨found, hfound, h⟩ := h
  cases found with
  | none => cases h
  | some r =>
    simp only [bind_eq_ok, require_eq_ok, exists_const] at h
    obtain ⟨⟨hactor, haction, hversion, hpayload⟩, h⟩ := h
    cases h
    have hmem : r ∈ s.commands.select fun _ row =>
        row.checkpointId == command.checkpointId && row.idempotencyKey == command.idempotencyKey := by
      cases hl : s.commands.select fun _ row =>
          row.checkpointId == command.checkpointId &&
            row.idempotencyKey == command.idempotencyKey with
      | nil =>
        rw [hl] at hfound
        cases hfound
      | cons a rest =>
        cases rest with
        | nil =>
          rw [hl] at hfound
          cases hfound
          exact List.mem_cons_self
        | cons b rest =>
          rw [hl] at hfound
          cases hfound
    have hrow := (Table.mem_select_iff _ _ r.1 r.2).mp hmem
    simp only [Bool.and_eq_true, beq_iff_eq] at hrow
    exact ⟨r.1, r.2, hrow.1, ⟨hrow.2.1, hrow.2.2, hactor, haction, hversion⟩, hpayload, rfl⟩

theorem commandedRow_changes (row : Checkpoint) (command : OwnerCommand) (result : CommandResult)
    (u : Unit) (h : commandGuards row command result = .ok u)
    (hcont : (commandedRow row result).Continues) : Changes row (commandedRow row result) := by
  unfold commandGuards at h
  simp only [bind_eq_ok, require_eq_ok, exists_const] at h
  obtain ⟨-, hedge, hresume, hstop, hpolicy, -⟩ := h
  constructor
  case version => rfl
  case subject => rfl
  case generation => rfl
  case active =>
    intro ha
    show result.state.active = false
    rcases hedge with heq | hmem
    · rw [heq]
      exact ha
    · exact edges_inactive row.state result.state hmem ha
  case kept => exact fun hs => hs
  case settled =>
    intro hold hnew
    show row.processSettled = true
    have hnew' : result.state.settled = true := hnew
    -- only a resumption enters a state that needs settlement, and only from `paused`
    cases haction : command.action with
    | «continue» => exact (hresume (Or.inl haction)).2.2
    | resume => exact (hresume (Or.inr haction)).2.2
    | resolve =>
      rw [hstop (Or.inr haction)] at hnew'
      cases hnew'
    | stop =>
      rw [hstop (Or.inl haction)] at hnew'
      cases hnew'
    | setPolicy => exact hold (by rw [← hpolicy (Or.inl haction)]; exact hnew')
    | overrideCheckpoint => exact hold (by rw [← hpolicy (Or.inr haction)]; exact hnew')
  case continues => exact fun _ => hcont

section commands
variable (column : CommandColumn)

/-- An owner command either replays a recorded one or records itself with one change. -/
theorem applyOwnerCommand_cases (s s' : CheckpointStore) (command : OwnerCommand)
    (result : CommandResult) (receipt : OwnerCommandReceipt)
    (h : applyOwnerCommand column s command result = .ok (s', receipt)) :
    (s' = s ∧ receiptForCommand s command = .ok (some receipt) ∧
      ∃ row, s.checkpoints.get command.checkpointId = some row) ∨
    ∃ row, s.checkpoints.get command.checkpointId = some row ∧
      receiptForCommand s command = .ok none ∧ Changes row (commandedRow row result) ∧
      s.commands.get command.commandId = none ∧
      ∃ stored, column command.payload = some stored ∧
      s' = ⟨s.checkpoints.put command.checkpointId (commandedRow row result),
        s.commands.put command.commandId (commandRow command result stored (row.version + 1))⟩ ∧
      receipt = commandReceipt command result (row.version + 1) := by
  unfold applyOwnerCommand at h
  simp only [bind_eq_ok, orRaise_eq_ok] at h
  obtain ⟨-, -, row, hrow, found, hfound, h⟩ := h
  cases found with
  | some replay =>
    cases h
    exact Or.inl ⟨rfl, hfound, row, hrow⟩
  | none =>
    simp only [bind_eq_ok, require_eq_ok, orRaise_eq_ok, exists_const] at h
    obtain ⟨u, hguards, hcont, hid, stored, hstored, -, -, h⟩ := h
    cases h
    exact Or.inr ⟨row, hrow, hfound, commandedRow_changes row command result u hguards hcont, hid,
      stored, hstored, rfl, rfl⟩

theorem step_moves (s : CheckpointStore) (op : CheckpointOp) : Moves s (checkpointStep column s op) := by
  cases op with
  | request context checkpoint =>
    cases h : request s context checkpoint with
    | error e => simp only [checkpointStep, stepped, h]; exact .same
    | ok r => simp only [checkpointStep, stepped, h]; exact request_moves s r.1 context checkpoint r.2 h
  | transition id expectedVersion state processSettled =>
    cases h : transition s id expectedVersion state processSettled with
    | error e => simp only [checkpointStep, stepped, h]; exact .same
    | ok r =>
      simp only [checkpointStep, stepped, h]
      exact transition_moves s r.1 id expectedVersion state processSettled r.2 h
  | applyOwnerCommand command result =>
    cases h : applyOwnerCommand column s command result with
    | error e => simp only [checkpointStep, stepped, h]; exact .same
    | ok r =>
      simp only [checkpointStep, stepped, h]
      rcases applyOwnerCommand_cases column s r.1 command result r.2 h with
        ⟨hsame, -⟩ | ⟨row, hrow, hnone, hchange, hid, stored, -, hs', -⟩
      · rw [hsame]
        exact .same
      · rw [hs']
        exact .commanded command.checkpointId command.commandId row _ _ hrow hchange hid rfl
          (receiptForCommand_eq_none s command hnone)

end commands

/-! ### What every reachable store satisfies -/

section changed
variable (s : CheckpointStore) (id : UUID) (row row' : Checkpoint)
  (hid : s.checkpoints.get id = some row) (hrow : Changes row row')
include hid hrow

end changed

/-- A row stays, with a larger version if it is not the same, and settled if it was. -/
structure RowSettles (row row' : Checkpoint) : Prop where
  version : row' = row ∨ row.version < row'.version
  settled : row.processSettled = true → row'.processSettled = true

structure StoreSettles (s s' : CheckpointStore) : Prop where
  checkpoints : ∀ i r, s.checkpoints.get i = some r →
    ∃ r', s'.checkpoints.get i = some r' ∧ RowSettles r r'
  commands : ∀ i r, s.commands.get i = some r → s'.commands.get i = some r

theorem RowSettles.refl (row : Checkpoint) : RowSettles row row := ⟨Or.inl rfl, fun h => h⟩

theorem RowSettles.trans {a b c : Checkpoint} (hab : RowSettles a b) (hbc : RowSettles b c) :
    RowSettles a c := by
  refine ⟨?_, fun h => hbc.settled (hab.settled h)⟩
  rcases hab.version with rfl | hlt
  · exact hbc.version
  · rcases hbc.version with rfl | hlt'
    · exact Or.inr hlt
    · exact Or.inr (Nat.lt_trans hlt hlt')

theorem StoreSettles.refl (s : CheckpointStore) : StoreSettles s s :=
  ⟨fun _ r h => ⟨r, h, RowSettles.refl r⟩, fun _ _ h => h⟩

theorem StoreSettles.trans (s t u : CheckpointStore) (hst : StoreSettles s t) (htu : StoreSettles t u) : StoreSettles s u := by
  constructor
  · intro i r hi
    obtain ⟨r', hr', hg⟩ := hst.checkpoints i r hi
    obtain ⟨r'', hr'', hg'⟩ := htu.checkpoints i r' hr'
    exact ⟨r'', hr'', hg.trans hg'⟩
  · intro i r hi
    exact htu.commands i r (hst.commands i r hi)

variable (column : CommandColumn)

end ParallelForge.Usage
