import ParallelForge.Evidence.Leaves

/-!
# Records, read from their state and from what is written

Each record is read back from the state of its instance as it is, and from its written
object as the record with its times in UTC.
-/

namespace ParallelForge.Evidence
open Base Calendar PyJson

variable {other : Str → Option Moment}

/-! ## Members -/

def Member.utc (m : Member) : Member :=
  { m with startedAt := m.startedAt.utc, completedAt := m.completedAt.utc }

/-- What its fields have to read as. -/
structure Member.Reads (other : Str → Option Moment) (field : String → Option Raw) (m : Member) : Prop where
  resultId : needed (field "result_id") nonNilUuid = .ok m.resultId
  checkName : needed (field "check_name") name = .ok m.checkName
  commandName : needed (field "command_name") name = .ok m.commandName
  commandVersion : needed (field "command_version") positive = .ok m.commandVersion
  commandDigest : needed (field "command_digest") (hex 64) = .ok m.commandDigest
  commandResultDigest : needed (field "command_result_digest") (hex 64) = .ok m.commandResultDigest
  controllerReceiptDigest : defaulted none (field "controller_receipt_digest") (nullable (hex 64)) =
    .ok m.controllerReceiptDigest
  stdoutDigest : needed (field "stdout_digest") (hex 64) = .ok m.stdoutDigest
  stderrDigest : needed (field "stderr_digest") (hex 64) = .ok m.stderrDigest
  status : needed (field "status") (enumerated EvidenceStatus.all EvidenceStatus.value) = .ok m.status
  exitCode : defaulted none (field "exit_code") (nullable Raw.int) = .ok m.exitCode
  startedAt : needed (field "started_at") (awareTime other) = .ok m.startedAt
  completedAt : needed (field "completed_at") (awareTime other) = .ok m.completedAt

theorem Member.Reads.ofFields {field : String → Option Raw} {m : Member} (h : Member.Reads other field m) :
    Member.ofFields other field = .ok m := by
  simp only [Member.ofFields, h.resultId, h.checkName, h.commandName, h.commandVersion, h.commandDigest,
    h.commandResultDigest, h.controllerReceiptDigest, h.stdoutDigest, h.stderrDigest, h.status, h.exitCode,
    h.startedAt, h.completedAt, bind, Except.bind]
  exact dif_pos ⟨m.ordered, m.exits⟩

theorem hex_optional {n : ℕ} (o : Option (Hex n)) : nullable (hex n) (nullRaw (fun d => textRaw d.val) o) = .ok o := by
  rw [nullable_state _ id hex_text (fun d h => by cases h), Option.map_id, id]

theorem hex_optional_written {n : ℕ} (o : Option (Hex n)) :
    nullable (hex n) (.json (sortKeys (orNull (fun d => .str d.val) o))) = .ok o := by
  rw [nullable_written _ id hex_text (fun d h => by cases h), Option.map_id, id]

theorem int_optional (o : Option ℤ) : nullable Raw.int (nullRaw (fun z => .json (.int z)) o) = .ok o := by
  cases o with
  | none => rfl
  | some z => rfl

theorem int_optional_written (o : Option ℤ) : nullable Raw.int (.json (sortKeys (orNull .int o))) = .ok o := by
  cases o with
  | none => rfl
  | some z => rfl

theorem Member.reads_state (m : Member) : Member.Reads other (Fields.field (RawEntries.fields m.state)) m where
  resultId := needed_of (state_some rfl) (nonNilUuid_state m.resultId)
  checkName := needed_of (state_some rfl) (name_text m.checkName)
  commandName := needed_of (state_some rfl) (name_text m.commandName)
  commandVersion := needed_of (state_some rfl) (positive_int m.commandVersion)
  commandDigest := needed_of (state_some rfl) (hex_text m.commandDigest)
  commandResultDigest := needed_of (state_some rfl) (hex_text m.commandResultDigest)
  controllerReceiptDigest := defaulted_of (state_some rfl) (hex_optional m.controllerReceiptDigest)
  stdoutDigest := needed_of (state_some rfl) (hex_text m.stdoutDigest)
  stderrDigest := needed_of (state_some rfl) (hex_text m.stderrDigest)
  status := needed_of (state_some rfl) (status_text m.status)
  exitCode := defaulted_of (state_some rfl) (int_optional m.exitCode)
  startedAt := needed_of (state_some rfl) (awareTime_state other m.startedAt)
  completedAt := needed_of (state_some rfl) (awareTime_state other m.completedAt)

theorem Member.canonical_keys (m : Member) (version : ℤ) :
    ((m.canonical version).map Prod.fst).Nodup ∧ ∀ p ∈ m.canonical version, p.1 ∈ memberKeys := by
  unfold Member.canonical
  split
  · simp [memberKeys]
  · simp [memberKeys]

/- The receipt alone depends on the version. -/
theorem Member.canonical_lookup (m : Member) (version : ℤ) (key : String) (hkey : key ≠ "controller_receipt_digest") :
    (m.canonical version).lookup key = (m.canonical 1).lookup key := by
  have hnone : ∀ v : PyJson, [("controller_receipt_digest", v)].lookup key = none := by
    intro v
    rw [List.lookup_cons, beq_eq_false_iff_ne.mpr hkey]
    rfl
  unfold Member.canonical
  rw [lookup_optional, lookup_optional]
  · rfl
  · split
    · exact hnone _
    · rfl

theorem Member.reads_written (m : Member) (version : ℤ)
    (hreceipt : version = 2 ↔ m.controllerReceiptDigest.isSome = true) :
    Member.Reads other (written (m.canonical version)).field m.utc :=
  have hn := (m.canonical_keys version).1
  have found {key : String} {value : PyJson} (hkey : key ≠ "controller_receipt_digest")
      (h : (m.canonical 1).lookup key = some value) :
      (written (m.canonical version)).field key = some (.json (sortKeys value)) :=
    written_some hn ((m.canonical_lookup version key hkey).trans h)
  { resultId := needed_of (found (by decide) rfl) (nonNilUuid_text m.resultId)
    checkName := needed_of (found (by decide) rfl) (name_text m.checkName)
    commandName := needed_of (found (by decide) rfl) (name_text m.commandName)
    commandVersion := needed_of (found (by decide) rfl) (positive_int m.commandVersion)
    commandDigest := needed_of (found (by decide) rfl) (hex_text m.commandDigest)
    commandResultDigest := needed_of (found (by decide) rfl) (hex_text m.commandResultDigest)
    controllerReceiptDigest := by
      by_cases hv : version = 2
      · have hsome : (m.canonical version).lookup "controller_receipt_digest" =
            some (orNull (fun d => .str d.val) m.controllerReceiptDigest) := by
          rw [Member.canonical, if_pos hv]
          rfl
        exact defaulted_of (written_some hn hsome) (hex_optional_written m.controllerReceiptDigest)
      · have hnone : (m.canonical version).lookup "controller_receipt_digest" = none := by
          rw [Member.canonical, if_neg hv]
          rfl
        have hempty : m.controllerReceiptDigest = none := by
          rw [← Option.not_isSome_iff_eq_none]
          exact fun h => hv (hreceipt.mpr h)
        exact defaulted_none (written_none hn hnone) hempty.symm
    stdoutDigest := needed_of (found (by decide) rfl) (hex_text m.stdoutDigest)
    stderrDigest := needed_of (found (by decide) rfl) (hex_text m.stderrDigest)
    status := needed_of (found (by decide) rfl) (status_text m.status)
    exitCode := defaulted_of (found (by decide) rfl) (int_optional_written m.exitCode)
    startedAt := needed_of (found (by decide) rfl) (awareTime_written other m.startedAt)
    completedAt := needed_of (found (by decide) rfl) (awareTime_written other m.completedAt) }

theorem Member.validate_state (m : Member) : Member.validate other (.dict (RawEntries.fields m.state)) = .ok m := by
  have hkeys : (RawEntries.fields m.state).within memberKeys = true :=
    within_state m.state memberKeys (by simp [Member.state, memberKeys])
  exact record_of rfl hkeys m.reads_state.ofFields

theorem Member.validate_written (m : Member) (version : ℤ)
    (hreceipt : version = 2 ↔ m.controllerReceiptDigest.isSome = true) :
    Member.validate other (.json (sortKeys (.obj (dict (m.canonical version))))) = .ok m.utc := by
  have hkeys : (written (m.canonical version)).within memberKeys = true :=
    within_written _ memberKeys (m.canonical_keys version).2
  exact record_of (members_written _) hkeys (m.reads_written version hreceipt).ofFields

def Members.utc (ms : Members) : Members :=
  ⟨ms.val.map Member.utc,
    ⟨by rw [List.length_map]; exact ms.property.1.count, by rw [List.map_map]; exact ms.property.1.results,
      by rw [List.map_map]; exact ms.property.1.semantics⟩,
    (List.map_insertionSort memberLe memberLe Member.utc ms.val fun _ _ _ _ => Iff.rfl).symm.trans
      (congrArg (List.map Member.utc) ms.property.2)⟩

theorem membersField_of {value : Raw} {items : List Raw} {ms : Members} (hitems : value.items = .ok items)
    (hread : List.Forall₂ (fun item m => Member.validate other item = .ok m) items ms.val) :
    membersField other value = .ok ms := by
  have hcount : items.length ≤ 64 := hread.length_eq.trans_le ms.property.1.count
  have hparsed : items.mapM (Member.validate other) = .ok ms.val := (mapM_eq_ok _ _ _).mpr hread
  have hsorted : ms.val.insertionSort memberLe = ms.val := ms.property.2
  simp only [membersField, hitems, hparsed, bind, Except.bind, require, if_pos hcount]
  rw [dif_pos ms.property.1]
  exact congrArg Except.ok (Subtype.ext hsorted)

theorem membersField_state (ms : Members) :
    membersField other (.list (ms.val.map fun m => .dict (RawEntries.fields m.state))) = .ok ms := by
  apply membersField_of rfl
  rw [List.forall₂_map_left_iff, List.forall₂_same]
  exact fun m _ => m.validate_state

theorem membersField_written (ms : Members) (version : ℤ)
    (hreceipts : ∀ m ∈ ms.val, (version = 2 ↔ m.controllerReceiptDigest.isSome = true)) :
    membersField other (.json (sortKeys (.arr (ms.val.map fun m => .obj (dict (m.canonical version)))))) = .ok ms.utc := by
  have hitems : (Raw.json (sortKeys (.arr (ms.val.map fun m => .obj (dict (m.canonical version)))))).items =
      .ok (ms.val.map fun m => .json (sortKeys (.obj (dict (m.canonical version))))) := by
    rw [sortKeys_arr, Raw.items, List.map_map, List.map_map]
    rfl
  apply membersField_of hitems
  rw [Members.utc, List.forall₂_map_left_iff, List.forall₂_map_right_iff, List.forall₂_same]
  exact fun m hm => m.validate_written version (hreceipts m hm)

/-! ## Validation manifests -/

def ValidationManifest.utc (m : ValidationManifest) : ValidationManifest :=
  { m with
    members := m.members.utc
    receipts := by
      intro member hmember
      obtain ⟨source, hsource, rfl⟩ := List.mem_map.mp hmember
      exact m.receipts source hsource }

structure ValidationManifest.Reads (other : Str → Option Moment) (field : String → Option Raw)
    (m : ValidationManifest) : Prop where
  schemaVersion : defaulted ⟨1, Or.inl rfl⟩ (field "schema_version") schemaVersionOf = .ok m.schemaVersion
  kind : defaulted () (field "kind") (literal "validation") = .ok ()
  evidenceSetId : needed (field "evidence_set_id") nonNilUuid = .ok m.evidenceSetId
  runId : needed (field "run_id") nonNilUuid = .ok m.runId
  stepId : needed (field "step_id") nonNilUuid = .ok m.stepId
  policyVersion : needed (field "policy_version") policyVersionOf = .ok m.policyVersion
  headSha : needed (field "head_sha") (hex 40) = .ok m.headSha
  candidateTreeDigest : defaulted none (field "candidate_tree_digest") (nullable (hex 64)) = .ok m.candidateTreeDigest
  priorReviewEvidenceSetId : defaulted none (field "prior_review_evidence_set_id") (nullable nonNilUuid) =
    .ok m.priorReviewEvidenceSetId
  members : defaulted ⟨[], distinct_nil, rfl⟩ (field "members") (membersField other) = .ok m.members

theorem ValidationManifest.Reads.ofFields {field : String → Option Raw} {m : ValidationManifest}
    (h : ValidationManifest.Reads other field m) : ValidationManifest.ofFields other field = .ok m := by
  simp only [ValidationManifest.ofFields, h.schemaVersion, h.kind, h.evidenceSetId, h.runId, h.stepId,
    h.policyVersion, h.headSha, h.candidateTreeDigest, h.priorReviewEvidenceSetId, h.members, bind, Except.bind]
  exact dif_pos ⟨m.candidate, m.receipts, m.prior⟩

theorem uuid_optional (o : Option NonNil) : nullable nonNilUuid (nullRaw (fun id => .uuid id.val) o) = .ok o := by
  rw [nullable_state _ id nonNilUuid_state (fun d h => by cases h), Option.map_id, id]

theorem uuid_optional_written (o : Option NonNil) : nullable nonNilUuid (.json (sortKeys (orNull idText o))) = .ok o := by
  rw [nullable_written _ id nonNilUuid_text (fun d h => by cases h), Option.map_id, id]

theorem ValidationManifest.reads_state (m : ValidationManifest) :
    ValidationManifest.Reads other (Fields.field (RawEntries.fields m.state)) m where
  schemaVersion := defaulted_of (state_some rfl) (schemaVersionOf_int m.schemaVersion)
  kind := defaulted_of (state_some rfl) (literal_word "validation")
  evidenceSetId := needed_of (state_some rfl) (nonNilUuid_state m.evidenceSetId)
  runId := needed_of (state_some rfl) (nonNilUuid_state m.runId)
  stepId := needed_of (state_some rfl) (nonNilUuid_state m.stepId)
  policyVersion := needed_of (state_some rfl) (policyVersionOf_int m.policyVersion)
  headSha := needed_of (state_some rfl) (hex_text m.headSha)
  candidateTreeDigest := defaulted_of (state_some rfl) (hex_optional m.candidateTreeDigest)
  priorReviewEvidenceSetId := defaulted_of (state_some rfl) (uuid_optional m.priorReviewEvidenceSetId)
  members := defaulted_of (state_some rfl) (membersField_state m.members)

theorem ValidationManifest.canonical_keys (m : ValidationManifest) :
    (m.canonical.map Prod.fst).Nodup ∧ ∀ p ∈ m.canonical, p.1 ∈ validationKeys := by
  unfold ValidationManifest.canonical
  split
  · simp [validationKeys]
  · simp [validationKeys]

/-- What every version writes. -/
def ValidationManifest.common (m : ValidationManifest) : Entries :=
  [("evidence_set_id", idText m.evidenceSetId), ("head_sha", .str m.headSha.val), ("kind", word "validation"),
    ("members", .arr (m.members.val.map fun member => .obj (dict (member.canonical m.schemaVersion.val)))),
    ("policy_version", .int m.policyVersion.val),
    ("prior_review_evidence_set_id", orNull idText m.priorReviewEvidenceSetId), ("run_id", idText m.runId),
    ("schema_version", .int m.schemaVersion.val), ("step_id", idText m.stepId)]

theorem ValidationManifest.canonical_lookup (m : ValidationManifest) (key : String) (hkey : key ≠ "candidate_tree_digest") :
    m.canonical.lookup key = m.common.lookup key := by
  unfold ValidationManifest.canonical
  split
  · rw [List.singleton_append, List.lookup_cons, beq_eq_false_iff_ne.mpr hkey]
    rfl
  · rfl

theorem ValidationManifest.reads_written (m : ValidationManifest) :
    ValidationManifest.Reads other (written m.canonical).field m.utc :=
  have hn := m.canonical_keys.1
  have found {key : String} {value : PyJson} (hkey : key ≠ "candidate_tree_digest") (h : m.common.lookup key = some value) :
      (written m.canonical).field key = some (.json (sortKeys value)) :=
    written_some hn ((m.canonical_lookup key hkey).trans h)
  { schemaVersion := defaulted_of (found (by decide) rfl) (schemaVersionOf_int m.schemaVersion)
    kind := defaulted_of (found (by decide) rfl) (literal_word "validation")
    evidenceSetId := needed_of (found (by decide) rfl) (nonNilUuid_text m.evidenceSetId)
    runId := needed_of (found (by decide) rfl) (nonNilUuid_text m.runId)
    stepId := needed_of (found (by decide) rfl) (nonNilUuid_text m.stepId)
    policyVersion := needed_of (found (by decide) rfl) (policyVersionOf_int m.policyVersion)
    headSha := needed_of (found (by decide) rfl) (hex_text m.headSha)
    candidateTreeDigest := by
      by_cases hv : m.schemaVersion.val = 2
      · have hsome : m.canonical.lookup "candidate_tree_digest" =
            some (orNull (fun d => .str d.val) m.candidateTreeDigest) := by
          rw [ValidationManifest.canonical, if_pos hv]
          rfl
        exact defaulted_of (written_some hn hsome) (hex_optional_written m.candidateTreeDigest)
      · have hnone : m.canonical.lookup "candidate_tree_digest" = none := by
          rw [ValidationManifest.canonical, if_neg hv]
          rfl
        have hempty : m.candidateTreeDigest = none := by
          rw [← Option.not_isSome_iff_eq_none]
          exact fun h => hv (m.candidate.mpr h)
        exact defaulted_none (written_none hn hnone) hempty.symm
    priorReviewEvidenceSetId := defaulted_of (found (by decide) rfl) (uuid_optional_written m.priorReviewEvidenceSetId)
    members := defaulted_of (found (by decide) rfl) (membersField_written m.members m.schemaVersion.val m.receipts) }

/-! ## Findings -/

def ReviewFinding.utc (f : ReviewFinding) : ReviewFinding := { f with resolvedAt := f.resolvedAt.map Aware.utc }

structure ReviewFinding.Reads (other : Str → Option Moment) (field : String → Option Raw) (f : ReviewFinding) : Prop where
  startLine : needed (field "start_line") positive = .ok f.startLine
  resolvedAt : defaulted none (field "resolved_at") (nullable (awareTime other)) = .ok f.resolvedAt
  findingId : needed (field "finding_id") nonBlank = .ok f.findingId
  severity : needed (field "severity") (enumerated FindingSeverity.all FindingSeverity.value) = .ok f.severity
  path : needed (field "path") nonBlank = .ok f.path
  summary : needed (field "summary") nonBlank = .ok f.summary
  evidence : needed (field "evidence") nonBlank = .ok f.evidence
  proposedResolution : defaulted none (field "proposed_resolution") (nullable letters) = .ok f.proposedResolution

theorem ReviewFinding.Reads.ofFields {field : String → Option Raw} {f : ReviewFinding}
    (h : ReviewFinding.Reads other field f) : ReviewFinding.ofFields other field = .ok f := by
  simp only [ReviewFinding.ofFields, h.startLine, h.resolvedAt, h.findingId, h.severity, h.path, h.summary, h.evidence,
    h.proposedResolution, bind, Except.bind]
  rfl

theorem letters_optional (o : Option Letters) : nullable letters (nullRaw (fun s => textRaw s.val) o) = .ok o := by
  rw [nullable_state _ id letters_text (fun d h => by cases h), Option.map_id, id]

theorem letters_optional_written (o : Option Letters) :
    nullable letters (.json (sortKeys (orNull (fun s => .str s.val) o))) = .ok o := by
  rw [nullable_written _ id letters_text (fun d h => by cases h), Option.map_id, id]

theorem time_optional (o : Option Aware) :
    nullable (awareTime other) (nullRaw (fun a => .datetime a.moment) o) = .ok o := by
  rw [nullable_state _ id (awareTime_state other) (fun d h => by cases h), Option.map_id, id]

theorem time_optional_written (o : Option Aware) :
    nullable (awareTime other) (.json (sortKeys (orNull timeText o))) = .ok (o.map Aware.utc) :=
  nullable_written timeText Aware.utc (awareTime_written other) (fun d h => by cases h) o

theorem ReviewFinding.reads_state (f : ReviewFinding) :
    ReviewFinding.Reads other (Fields.field (RawEntries.fields f.state)) f where
  startLine := needed_of (state_some rfl) (positive_int f.startLine)
  resolvedAt := defaulted_of (state_some rfl) (time_optional f.resolvedAt)
  findingId := needed_of (state_some rfl) (nonBlank_text f.findingId)
  severity := needed_of (state_some rfl) (severity_text f.severity)
  path := needed_of (state_some rfl) (nonBlank_text f.path)
  summary := needed_of (state_some rfl) (nonBlank_text f.summary)
  evidence := needed_of (state_some rfl) (nonBlank_text f.evidence)
  proposedResolution := defaulted_of (state_some rfl) (letters_optional f.proposedResolution)

theorem ReviewFinding.canonical_keys (f : ReviewFinding) :
    (f.canonical.map Prod.fst).Nodup ∧ ∀ p ∈ f.canonical, p.1 ∈ findingKeys := by
  simp [ReviewFinding.canonical, findingKeys]

theorem ReviewFinding.reads_written (f : ReviewFinding) : ReviewFinding.Reads other (written f.canonical).field f.utc :=
  have hn := f.canonical_keys.1
  { startLine := needed_of (written_some hn rfl) (positive_int f.startLine)
    resolvedAt := defaulted_of (written_some hn rfl) (time_optional_written f.resolvedAt)
    findingId := needed_of (written_some hn rfl) (nonBlank_text f.findingId)
    severity := needed_of (written_some hn rfl) (severity_text f.severity)
    path := needed_of (written_some hn rfl) (nonBlank_text f.path)
    summary := needed_of (written_some hn rfl) (nonBlank_text f.summary)
    evidence := needed_of (written_some hn rfl) (nonBlank_text f.evidence)
    proposedResolution := defaulted_of (written_some hn rfl) (letters_optional_written f.proposedResolution) }

theorem ReviewFinding.validate_state (f : ReviewFinding) :
    ReviewFinding.validate other (.dict (RawEntries.fields f.state)) = .ok f := by
  have hkeys : (RawEntries.fields f.state).within findingKeys = true :=
    within_state f.state findingKeys (by simp [ReviewFinding.state, findingKeys])
  exact record_of rfl hkeys f.reads_state.ofFields

theorem ReviewFinding.validate_written (f : ReviewFinding) :
    ReviewFinding.validate other (.json (sortKeys (.obj (dict f.canonical)))) = .ok f.utc := by
  have hkeys : (written f.canonical).within findingKeys = true := within_written _ findingKeys f.canonical_keys.2
  exact record_of (members_written _) hkeys f.reads_written.ofFields

def Findings.utc (fs : Findings) : Findings :=
  ⟨fs.val.map ReviewFinding.utc,
    ⟨by rw [List.length_map]; exact fs.property.1.1, by rw [List.map_map]; exact fs.property.1.2⟩,
    (List.map_insertionSort findingLe findingLe ReviewFinding.utc fs.val fun _ _ _ _ => Iff.rfl).symm.trans
      (congrArg (List.map ReviewFinding.utc) fs.property.2)⟩

theorem findingsOf_of {value : Raw} {items : List Raw} {fs : Findings} (hitems : value.items = .ok items)
    (hread : List.Forall₂ (fun item f => ReviewFinding.validate other item = .ok f) items fs.val) :
    findingsOf other value = .ok fs := by
  have hparsed : items.mapM (ReviewFinding.validate other) = .ok fs.val := (mapM_eq_ok _ _ _).mpr hread
  have hsorted : fs.val.insertionSort findingLe = fs.val := fs.property.2
  simp only [findingsOf, hitems, hparsed, bind, Except.bind]
  rw [dif_pos fs.property.1]
  exact congrArg Except.ok (Subtype.ext hsorted)

theorem findingsOf_state (fs : Findings) :
    findingsOf other (.list (fs.val.map fun f => .dict (RawEntries.fields f.state))) = .ok fs := by
  apply findingsOf_of rfl
  rw [List.forall₂_map_left_iff, List.forall₂_same]
  exact fun f _ => f.validate_state

theorem findingsOf_written (fs : Findings) :
    findingsOf other (.json (sortKeys (.arr (fs.val.map fun f => .obj (dict f.canonical))))) = .ok fs.utc := by
  have hitems : (Raw.json (sortKeys (.arr (fs.val.map fun f => .obj (dict f.canonical))))).items =
      .ok (fs.val.map fun f => .json (sortKeys (.obj (dict f.canonical)))) := by
    rw [sortKeys_arr, Raw.items, List.map_map, List.map_map]
    rfl
  apply findingsOf_of hitems
  rw [Findings.utc, List.forall₂_map_left_iff, List.forall₂_map_right_iff, List.forall₂_same]
  exact fun f _ => f.validate_written

/-! ## Reviews -/

/- A decision looks at what is open, not at when it was resolved. -/
theorem agrees_utc (decision : ReviewDecision) (findings : List ReviewFinding) (missing : List Str) :
    decision.agrees (findings.map ReviewFinding.utc) missing = decision.agrees findings missing := by
  have hopen : ∀ f : ReviewFinding, f.utc.resolvedAt.isNone = f.resolvedAt.isNone := fun f => Option.isNone_map
  have hseverity : ∀ f : ReviewFinding, f.utc.severity = f.severity := fun _ => rfl
  cases decision with
  | approve => simp only [ReviewDecision.agrees, List.any_map, Function.comp_def, hopen, hseverity]
  | requestChanges => simp only [ReviewDecision.agrees, List.any_map, Function.comp_def, hopen]
  | blocked => rfl

def ReviewOutput.utc (r : ReviewOutput) : ReviewOutput :=
  { r with
    findings := r.findings.utc
    agrees := (agrees_utc r.decision r.findings.val r.missingEvidence.val).trans r.agrees }

structure ReviewOutput.Reads (other : Str → Option Moment) (field : String → Option Raw) (r : ReviewOutput) : Prop where
  findings : defaulted ⟨[], Findings.distinct_nil, rfl⟩ (field "findings") (findingsOf other) = .ok r.findings
  decision : needed (field "decision") (enumerated ReviewDecision.all ReviewDecision.value) = .ok r.decision
  testedClaims : needed (field "tested_claims") textsOf = .ok r.testedClaims
  missingEvidence : needed (field "missing_evidence") textsOf = .ok r.missingEvidence
  summary : needed (field "summary") summaryOf = .ok r.summary

theorem ReviewOutput.Reads.ofFields {field : String → Option Raw} {r : ReviewOutput} (h : ReviewOutput.Reads other field r) :
    ReviewOutput.ofFields other field = .ok r := by
  simp only [ReviewOutput.ofFields, h.findings, h.decision, h.testedClaims, h.missingEvidence, h.summary, bind, Except.bind]
  exact dif_pos r.agrees

theorem ReviewOutput.reads_state (r : ReviewOutput) :
    ReviewOutput.Reads other (Fields.field (RawEntries.fields r.state)) r where
  findings := defaulted_of (state_some rfl) (findingsOf_state r.findings)
  decision := needed_of (state_some rfl) (decision_text r.decision)
  testedClaims := needed_of (state_some rfl) (textsOf_state r.testedClaims)
  missingEvidence := needed_of (state_some rfl) (textsOf_state r.missingEvidence)
  summary := needed_of (state_some rfl) (summaryOf_text r.summary)

theorem ReviewOutput.canonical_keys (r : ReviewOutput) :
    (r.canonical.map Prod.fst).Nodup ∧ ∀ p ∈ r.canonical, p.1 ∈ reviewKeys := by
  simp [ReviewOutput.canonical, reviewKeys]

theorem ReviewOutput.reads_written (r : ReviewOutput) : ReviewOutput.Reads other (written r.canonical).field r.utc :=
  have hn := r.canonical_keys.1
  { findings := defaulted_of (written_some hn rfl) (findingsOf_written r.findings)
    decision := needed_of (written_some hn rfl) (decision_text r.decision)
    testedClaims := needed_of (written_some hn rfl) (textsOf_written r.testedClaims)
    missingEvidence := needed_of (written_some hn rfl) (textsOf_written r.missingEvidence)
    summary := needed_of (written_some hn rfl) (summaryOf_text r.summary) }

theorem reviewOf_state (r : ReviewOutput) : reviewOf other (.dict (RawEntries.fields r.state)) = .ok r := by
  have hkeys : (RawEntries.fields r.state).within reviewKeys = true :=
    within_state r.state reviewKeys (by simp [ReviewOutput.state, reviewKeys])
  exact record_of rfl hkeys r.reads_state.ofFields

theorem reviewOf_written (r : ReviewOutput) :
    reviewOf other (.json (sortKeys (.obj (dict r.canonical)))) = .ok r.utc := by
  have hkeys : (written r.canonical).within reviewKeys = true := within_written _ reviewKeys r.canonical_keys.2
  exact record_of (members_written _) hkeys r.reads_written.ofFields

def ReviewManifest.utc (m : ReviewManifest) : ReviewManifest := { m with review := m.review.utc }

structure ReviewManifest.Reads (other : Str → Option Moment) (field : String → Option Raw) (m : ReviewManifest) : Prop where
  schemaVersion : defaulted () (field "schema_version") firstSchema = .ok ()
  kind : defaulted () (field "kind") (literal "review") = .ok ()
  evidenceSetId : needed (field "evidence_set_id") nonNilUuid = .ok m.evidenceSetId
  runId : needed (field "run_id") nonNilUuid = .ok m.runId
  stepId : needed (field "step_id") nonNilUuid = .ok m.stepId
  policyVersion : needed (field "policy_version") policyVersionOf = .ok m.policyVersion
  headSha : needed (field "head_sha") (hex 40) = .ok m.headSha
  producerExecutionId : needed (field "producer_execution_id") nonNilUuid = .ok m.producerExecutionId
  validationEvidenceSetId : needed (field "validation_evidence_set_id") nonNilUuid = .ok m.validationEvidenceSetId
  review : needed (field "review") (reviewOf other) = .ok m.review

theorem ReviewManifest.Reads.ofFields {field : String → Option Raw} {m : ReviewManifest}
    (h : ReviewManifest.Reads other field m) : ReviewManifest.ofFields other field = .ok m := by
  simp only [ReviewManifest.ofFields, h.schemaVersion, h.kind, h.evidenceSetId, h.runId, h.stepId, h.policyVersion,
    h.headSha, h.producerExecutionId, h.validationEvidenceSetId, h.review, bind, Except.bind]
  exact dif_pos m.distinct

theorem ReviewManifest.reads_state (m : ReviewManifest) :
    ReviewManifest.Reads other (Fields.field (RawEntries.fields m.state)) m where
  schemaVersion := defaulted_of (state_some rfl) rfl
  kind := defaulted_of (state_some rfl) (literal_word "review")
  evidenceSetId := needed_of (state_some rfl) (nonNilUuid_state m.evidenceSetId)
  runId := needed_of (state_some rfl) (nonNilUuid_state m.runId)
  stepId := needed_of (state_some rfl) (nonNilUuid_state m.stepId)
  policyVersion := needed_of (state_some rfl) (policyVersionOf_int m.policyVersion)
  headSha := needed_of (state_some rfl) (hex_text m.headSha)
  producerExecutionId := needed_of (state_some rfl) (nonNilUuid_state m.producerExecutionId)
  validationEvidenceSetId := needed_of (state_some rfl) (nonNilUuid_state m.validationEvidenceSetId)
  review := needed_of (state_some rfl) (reviewOf_state m.review)

theorem ReviewManifest.canonical_keys (m : ReviewManifest) :
    (m.canonical.map Prod.fst).Nodup ∧ ∀ p ∈ m.canonical, p.1 ∈ reviewManifestKeys := by
  simp [ReviewManifest.canonical, reviewManifestKeys]

theorem ReviewManifest.reads_written (m : ReviewManifest) :
    ReviewManifest.Reads other (written m.canonical).field m.utc :=
  have hn := m.canonical_keys.1
  { schemaVersion := defaulted_of (written_some hn rfl) rfl
    kind := defaulted_of (written_some hn rfl) (literal_word "review")
    evidenceSetId := needed_of (written_some hn rfl) (nonNilUuid_text m.evidenceSetId)
    runId := needed_of (written_some hn rfl) (nonNilUuid_text m.runId)
    stepId := needed_of (written_some hn rfl) (nonNilUuid_text m.stepId)
    policyVersion := needed_of (written_some hn rfl) (policyVersionOf_int m.policyVersion)
    headSha := needed_of (written_some hn rfl) (hex_text m.headSha)
    producerExecutionId := needed_of (written_some hn rfl) (nonNilUuid_text m.producerExecutionId)
    validationEvidenceSetId := needed_of (written_some hn rfl) (nonNilUuid_text m.validationEvidenceSetId)
    review := needed_of (written_some hn rfl) (reviewOf_written m.review) }

end ParallelForge.Evidence
