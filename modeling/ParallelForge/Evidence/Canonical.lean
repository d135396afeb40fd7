import ParallelForge.Evidence.RoundTrip

/-!
# Canonical bytes

Each manifest has one encoding, and the encoding is that of one manifest with its times
in UTC. The order in which members and findings are given is not part of it.
-/

namespace ParallelForge.Evidence
open Base Calendar PyJson

variable {α : Type} {acceptance : Acceptance α} {other : Str → Option Moment}
  {readFloat : Json.FloatText → Option Json.FloatText}

/-! ## Any order -/

section order
variable {β : Type} {r : β → β → Prop} [DecidableRel r] [Std.Total r] [IsTrans β r]

/- A list without ties sorts to one list. -/
theorem insertionSort_perm {l m : List β} (hperm : l.Perm m) (hties : ∀ a ∈ l, ∀ b ∈ l, r a b → r b a → a = b) :
    l.insertionSort r = m.insertionSort r := by
  have hl := List.perm_insertionSort r l
  have hm := List.perm_insertionSort r m
  apply ((hl.trans hperm).trans hm.symm).eq_of_pairwise _ (List.pairwise_insertionSort r l)
    (List.pairwise_insertionSort r m)
  intro a b ha hb
  exact hties a (hl.mem_iff.mp ha) b (hperm.mem_iff.mpr (hm.mem_iff.mp hb))

end order

theorem memberLe_ties {members : List Member} (h : Distinct members) :
    ∀ a ∈ members, ∀ b ∈ members, memberLe a b → memberLe b a → a = b := by
  intro a ha b hb hab hba
  have hkey : a.sortKey = b.sortKey := le_antisymm hab hba
  have htext : uuidText a.resultId.val.val = uuidText b.resultId.val.val :=
    congrArg (fun key => (ofLex (ofLex (ofLex key).2).2).2) hkey
  have hid : a.resultId = b.resultId := Subtype.ext (Fin.ext (uuidText_injective _ _ htext))
  exact List.inj_on_of_nodup_map h.results ha hb hid

theorem Distinct.perm {l m : List Member} (h : Distinct l) (hperm : l.Perm m) : Distinct m where
  count := hperm.length_eq ▸ h.count
  results := (hperm.map _).nodup_iff.mp h.results
  semantics := (hperm.map _).nodup_iff.mp h.semantics

theorem membersField_iff {value : Raw} {ms : Members} :
    membersField other value = .ok ms ↔ ∃ items parsed, value.items = .ok items ∧ items.length ≤ 64 ∧
      items.mapM (Member.validate other) = .ok parsed ∧ Distinct parsed ∧ parsed.insertionSort memberLe = ms.val := by
  unfold membersField
  constructor
  · intro h
    obtain ⟨items, hitems, h⟩ := (bind_eq_ok _ _ _).mp h
    obtain ⟨hcount, h⟩ := (require_bind_eq_ok _ _ _ _).mp h
    obtain ⟨parsed, hparsed, h⟩ := (bind_eq_ok _ _ _).mp h
    split at h
    · next hdistinct =>
      cases h
      exact ⟨items, parsed, hitems, hcount, hparsed, hdistinct, rfl⟩
    · cases h
  · rintro ⟨items, parsed, hitems, hcount, hparsed, hdistinct, hsorted⟩
    simp only [hitems, hparsed, bind, Except.bind, require, if_pos hcount]
    rw [dif_pos hdistinct]
    exact congrArg Except.ok (Subtype.ext hsorted)

theorem membersField_perm {l m : List Raw} (hperm : l.Perm m) {ms : Members}
    (h : membersField other (.list l) = .ok ms) : membersField other (.list m) = .ok ms := by
  obtain ⟨items, parsed, hitems, hcount, hparsed, hdistinct, hsorted⟩ := membersField_iff.mp h
  cases hitems
  obtain ⟨parsed', hparsed', hsame⟩ := mapM_perm hperm hparsed
  have hresult : parsed'.insertionSort memberLe = ms.val :=
    (insertionSort_perm hsame (memberLe_ties hdistinct)).symm.trans hsorted
  exact membersField_iff.mpr ⟨m, parsed', rfl, hperm.length_eq ▸ hcount, hparsed', hdistinct.perm hsame, hresult⟩

theorem findingLe_ties {findings : List ReviewFinding} (h : Findings.Distinct findings) :
    ∀ a ∈ findings, ∀ b ∈ findings, findingLe a b → findingLe b a → a = b := by
  intro a ha b hb hab hba
  exact List.inj_on_of_nodup_map h.2 ha hb (Subtype.ext (le_antisymm hab hba))

theorem Findings.Distinct.perm {l m : List ReviewFinding} (h : Findings.Distinct l) (hperm : l.Perm m) :
    Findings.Distinct m := ⟨hperm.length_eq ▸ h.1, (hperm.map _).nodup_iff.mp h.2⟩

theorem findingsOf_iff {value : Raw} {fs : Findings} :
    findingsOf other value = .ok fs ↔ ∃ items parsed, value.items = .ok items ∧
      items.mapM (ReviewFinding.validate other) = .ok parsed ∧ Findings.Distinct parsed ∧
      parsed.insertionSort findingLe = fs.val := by
  unfold findingsOf
  constructor
  · intro h
    obtain ⟨items, hitems, h⟩ := (bind_eq_ok _ _ _).mp h
    obtain ⟨parsed, hparsed, h⟩ := (bind_eq_ok _ _ _).mp h
    split at h
    · next hdistinct =>
      cases h
      exact ⟨items, parsed, hitems, hparsed, hdistinct, rfl⟩
    · cases h
  · rintro ⟨items, parsed, hitems, hparsed, hdistinct, hsorted⟩
    simp only [hitems, hparsed, bind, Except.bind]
    rw [dif_pos hdistinct]
    exact congrArg Except.ok (Subtype.ext hsorted)

theorem findingsOf_perm {l m : List Raw} (hperm : l.Perm m) {fs : Findings}
    (h : findingsOf other (.list l) = .ok fs) : findingsOf other (.list m) = .ok fs := by
  obtain ⟨items, parsed, hitems, hparsed, hdistinct, hsorted⟩ := findingsOf_iff.mp h
  cases hitems
  obtain ⟨parsed', hparsed', hsame⟩ := mapM_perm hperm hparsed
  have hresult : parsed'.insertionSort findingLe = fs.val :=
    (insertionSort_perm hsame (findingLe_ties hdistinct)).symm.trans hsorted
  exact findingsOf_iff.mpr ⟨m, parsed', rfl, hparsed', hdistinct.perm hsame, hresult⟩

/-! ## One field of a state -/

section replace
variable {before after : Fields} {key : String}

theorem field_other (value value' : Raw) {key' : String} (h : key' ≠ key) :
    Fields.field (before ++ (codes key, value) :: after) key' = Fields.field (before ++ (codes key, value') :: after) key' := by
  have hne : (codes key' == codes key) = false := beq_eq_false_iff_ne.mpr fun hcodes => h (codes_injective hcodes)
  simp only [Fields.field, List.lookup_append, List.lookup_cons, hne]

theorem field_here (value : Raw) :
    Fields.field (before ++ (codes key, value) :: after) key = (before.field key).or (some value) := by
  have heq : (codes key == codes key) = true := beq_self_eq_true _
  simp only [Fields.field, List.lookup_append, List.lookup_cons, heq]

theorem within_other (value value' : Raw) {keys : List String}
    (h : Fields.within (before ++ (codes key, value) :: after) keys = true) :
    Fields.within (before ++ (codes key, value') :: after) keys = true := by
  unfold Fields.within at h ⊢
  rwa [List.all_append, List.all_cons] at h ⊢

theorem defaulted_here {β : Type} {read : Raw → Except Str β} {default b : β} {value value' : Raw}
    (hread : read value = .ok b → read value' = .ok b)
    (h : defaulted default (Fields.field (before ++ (codes key, value) :: after) key) read = .ok b) :
    defaulted default (Fields.field (before ++ (codes key, value') :: after) key) read = .ok b := by
  rw [field_here] at h ⊢
  cases hbefore : before.field key with
  | some w =>
    rw [hbefore] at h
    exact h
  | none =>
    rw [hbefore] at h
    exact hread h

end replace

theorem ValidationManifest.ofFields_iff {field : String → Option Raw} {m : ValidationManifest} :
    ValidationManifest.ofFields other field = .ok m ↔ ValidationManifest.Reads other field m := by
  constructor
  · intro h
    simp only [ValidationManifest.ofFields, bind_eq_ok] at h
    obtain ⟨version, hversion, u, hkind, set, hset, run, hrun, step, hstep, policy, hpolicy, sha, hsha, tree, htree, prior,
      hprior, members, hmembers, h⟩ := h
    split at h
    · cases h
      exact ⟨hversion, hkind, hset, hrun, hstep, hpolicy, hsha, htree, hprior, hmembers⟩
    · cases h
  · exact ValidationManifest.Reads.ofFields

theorem ReviewOutput.ofFields_iff {field : String → Option Raw} {r : ReviewOutput} :
    ReviewOutput.ofFields other field = .ok r ↔ ReviewOutput.Reads other field r := by
  constructor
  · intro h
    simp only [ReviewOutput.ofFields, bind_eq_ok] at h
    obtain ⟨findings, hfindings, decision, hdecision, tested, htested, missing, hmissing, summary, hsummary, h⟩ := h
    split at h
    · cases h
      exact ⟨hfindings, hdecision, htested, hmissing, hsummary⟩
    · cases h
  · exact ReviewOutput.Reads.ofFields

theorem ReviewManifest.ofFields_iff {field : String → Option Raw} {m : ReviewManifest} :
    ReviewManifest.ofFields other field = .ok m ↔ ReviewManifest.Reads other field m := by
  constructor
  · intro h
    simp only [ReviewManifest.ofFields, bind_eq_ok] at h
    obtain ⟨u, hversion, u', hkind, set, hset, run, hrun, step, hstep, policy, hpolicy, sha, hsha, producer, hproducer,
      evidence, hevidence, review, hreview, h⟩ := h
    split at h
    · cases h
      exact ⟨hversion, hkind, hset, hrun, hstep, hpolicy, hsha, hproducer, hevidence, hreview⟩
    · cases h
  · exact ReviewManifest.Reads.ofFields

theorem ValidationManifest.Reads.replace {before after : Fields} {value value' : Raw} {m : ValidationManifest}
    (hmembers : membersField other value = .ok m.members → membersField other value' = .ok m.members)
    (h : ValidationManifest.Reads other (Fields.field (before ++ (codes "members", value) :: after)) m) :
    ValidationManifest.Reads other (Fields.field (before ++ (codes "members", value') :: after)) m where
  schemaVersion := by rw [field_other value' value (by decide)]; exact h.schemaVersion
  kind := by rw [field_other value' value (by decide)]; exact h.kind
  evidenceSetId := by rw [field_other value' value (by decide)]; exact h.evidenceSetId
  runId := by rw [field_other value' value (by decide)]; exact h.runId
  stepId := by rw [field_other value' value (by decide)]; exact h.stepId
  policyVersion := by rw [field_other value' value (by decide)]; exact h.policyVersion
  headSha := by rw [field_other value' value (by decide)]; exact h.headSha
  candidateTreeDigest := by rw [field_other value' value (by decide)]; exact h.candidateTreeDigest
  priorReviewEvidenceSetId := by rw [field_other value' value (by decide)]; exact h.priorReviewEvidenceSetId
  members := defaulted_here hmembers h.members

theorem ReviewOutput.Reads.replace {before after : Fields} {value value' : Raw} {r : ReviewOutput}
    (hfindings : findingsOf other value = .ok r.findings → findingsOf other value' = .ok r.findings)
    (h : ReviewOutput.Reads other (Fields.field (before ++ (codes "findings", value) :: after)) r) :
    ReviewOutput.Reads other (Fields.field (before ++ (codes "findings", value') :: after)) r where
  findings := defaulted_here hfindings h.findings
  decision := by rw [field_other value' value (by decide)]; exact h.decision
  testedClaims := by rw [field_other value' value (by decide)]; exact h.testedClaims
  missingEvidence := by rw [field_other value' value (by decide)]; exact h.missingEvidence
  summary := by rw [field_other value' value (by decide)]; exact h.summary

theorem needed_here {before after : Fields} {key : String} {β : Type} {read : Raw → Except Str β} {b : β}
    {value value' : Raw} (hread : read value = .ok b → read value' = .ok b)
    (h : needed (Fields.field (before ++ (codes key, value) :: after) key) read = .ok b) :
    needed (Fields.field (before ++ (codes key, value') :: after) key) read = .ok b := by
  have hdefaulted : ∀ field : Option Raw, field.isSome = true → defaulted b field read = needed field read := by
    intro field hfield
    cases field with
    | some w => rfl
    | none => cases hfield
  have hsome : ∀ w : Raw, (Fields.field (before ++ (codes key, w) :: after) key).isSome = true := by
    intro w
    rw [field_here, Option.isSome_or, Option.isSome_some, Bool.or_true]
  rw [← hdefaulted _ (hsome _)] at h ⊢
  exact defaulted_here hread h

theorem ReviewManifest.Reads.replace {before after : Fields} {value value' : Raw} {m : ReviewManifest}
    (hreview : reviewOf other value = .ok m.review → reviewOf other value' = .ok m.review)
    (h : ReviewManifest.Reads other (Fields.field (before ++ (codes "review", value) :: after)) m) :
    ReviewManifest.Reads other (Fields.field (before ++ (codes "review", value') :: after)) m where
  schemaVersion := by rw [field_other value' value (by decide)]; exact h.schemaVersion
  kind := by rw [field_other value' value (by decide)]; exact h.kind
  evidenceSetId := by rw [field_other value' value (by decide)]; exact h.evidenceSetId
  runId := by rw [field_other value' value (by decide)]; exact h.runId
  stepId := by rw [field_other value' value (by decide)]; exact h.stepId
  policyVersion := by rw [field_other value' value (by decide)]; exact h.policyVersion
  headSha := by rw [field_other value' value (by decide)]; exact h.headSha
  producerExecutionId := by rw [field_other value' value (by decide)]; exact h.producerExecutionId
  validationEvidenceSetId := by rw [field_other value' value (by decide)]; exact h.validationEvidenceSetId
  review := needed_here hreview h.review

theorem validate_members {before after : Fields} {l l' : List Raw} (hperm : l.Perm l') {m : Manifest α}
    (h : validate acceptance other .validation (before ++ (codes "members", .list l) :: after) = .ok m) :
    validate acceptance other .validation (before ++ (codes "members", .list l') :: after) = .ok m := by
  obtain ⟨hkeys, h⟩ := (require_bind_eq_ok _ _ _ _).mp h
  obtain ⟨manifest, hmanifest, rfl⟩ := (map_eq_ok _ _ _).mp h
  have hreads := (ValidationManifest.ofFields_iff.mp hmanifest).replace (membersField_perm hperm)
  exact (require_bind_eq_ok _ _ _ _).mpr
    ⟨within_other _ _ hkeys, (map_eq_ok _ _ _).mpr ⟨manifest, hreads.ofFields, rfl⟩⟩

theorem reviewOf_findings {before after : Fields} {l l' : List Raw} (hperm : l.Perm l') {r : ReviewOutput}
    (h : reviewOf other (.dict (before ++ (codes "findings", .list l) :: after)) = .ok r) :
    reviewOf other (.dict (before ++ (codes "findings", .list l') :: after)) = .ok r := by
  obtain ⟨fields, hfields, h⟩ := (bind_eq_ok _ _ _).mp h
  cases hfields
  obtain ⟨hkeys, h⟩ := (require_bind_eq_ok _ _ _ _).mp h
  have hreads := (ReviewOutput.ofFields_iff.mp h).replace (findingsOf_perm hperm)
  exact record_of rfl (within_other _ _ hkeys) hreads.ofFields

theorem validate_findings {before after inner inner' : Fields} {l l' : List Raw} (hperm : l.Perm l') {m : Manifest α}
    (h : validate acceptance other .review
      (before ++ (codes "review", .dict (inner ++ (codes "findings", .list l) :: inner')) :: after) = .ok m) :
    validate acceptance other .review
      (before ++ (codes "review", .dict (inner ++ (codes "findings", .list l') :: inner')) :: after) = .ok m := by
  obtain ⟨hkeys, h⟩ := (require_bind_eq_ok _ _ _ _).mp h
  obtain ⟨manifest, hmanifest, rfl⟩ := (map_eq_ok _ _ _).mp h
  have hreads := (ReviewManifest.ofFields_iff.mp hmanifest).replace (reviewOf_findings hperm)
  exact (require_bind_eq_ok _ _ _ _).mpr
    ⟨within_other _ _ hkeys, (map_eq_ok _ _ _).mpr ⟨manifest, hreads.ofFields, rfl⟩⟩

/-! ## Samples -/

/-- No acceptance manifests, and no times in another form. -/
def noAcceptance : Acceptance Empty where
  validate := fun _ => .error failed
  canonical := fun _ => []
  state := fun _ => []

def noOther : Str → Option Moment := fun _ => none

def sampleHex (n : ℕ) : Raw := textRaw (List.replicate n 97)

def sampleId (n : ℕ) : Uuid := ⟨n % 2 ^ 128, Nat.mod_lt n (Nat.two_pow_pos 128)⟩

def sampleMember (id : Uuid) (check : String) (moment : Moment) : Raw :=
  .dict (RawEntries.fields [("result_id", .uuid id), ("check_name", textRaw (codes check)),
    ("command_name", textRaw (codes "pytest")), ("command_version", .json (.int 3)), ("command_digest", sampleHex 64),
    ("command_result_digest", sampleHex 64), ("stdout_digest", sampleHex 64), ("stderr_digest", sampleHex 64),
    ("status", textRaw (codes "PASSED")), ("exit_code", .json (.int 0)), ("started_at", .datetime moment),
    ("completed_at", .datetime moment)])

def sampleHeader : Fields :=
  RawEntries.fields [("evidence_set_id", .uuid (sampleId 7)), ("run_id", .uuid (sampleId 8)),
    ("step_id", .uuid (sampleId 9)), ("policy_version", .json (.int 2)), ("head_sha", sampleHex 40)]

/-- The time 2025-11-29, 08:00 in the second zone east of UTC. -/
def sampleEast : Raw := sampleMember (sampleId 20) "unit" ⟨63900000000000000, some 7200000000⟩

def sampleUtc : Raw := sampleMember (sampleId 20) "unit" ⟨63899992800000000, some 0⟩

def sampleLint : Raw := sampleMember (sampleId 21) "lint" ⟨63900000000000000, some 0⟩

def sampleState (members : List Raw) : Fields := sampleHeader ++ (codes "members", .list members) :: []

def sampleFinding (id : String) : Raw :=
  .dict (RawEntries.fields [("finding_id", textRaw (codes id)), ("severity", textRaw (codes "minor")),
    ("path", textRaw (codes "README.md")), ("start_line", .json (.int 1)), ("summary", textRaw (codes "typo")),
    ("evidence", textRaw (codes "line 1"))])

def sampleReviewer : Fields :=
  sampleHeader ++ RawEntries.fields [("producer_execution_id", .uuid (sampleId 10)),
    ("validation_evidence_set_id", .uuid (sampleId 11))]

def sampleApproval : Fields :=
  RawEntries.fields [("decision", textRaw (codes "approve")), ("tested_claims", .list []), ("missing_evidence", .list []),
    ("summary", textRaw (codes "ok"))]

def sampleReview (findings : List Raw) : Fields :=
  sampleReviewer ++ (codes "review", .dict (sampleApproval ++ (codes "findings", .list findings) :: [])) :: []

def sameBytes : Except Str (List ℕ) → Except Str (List ℕ) → Bool
  | .ok a, .ok b => a == b
  | _, _ => false

theorem ok_of_sameBytes {x y : Except Str (List ℕ)} (h : sameBytes x y = true) : ∃ bytes, x = .ok bytes ∧ y = .ok bytes := by
  unfold sameBytes at h
  split at h
  · next a b =>
    rw [beq_iff_eq] at h
    exact ⟨a, rfl, h ▸ rfl⟩
  · cases h

/- The same members, one of them in another zone. -/
theorem sample_bytes : ∃ bytes,
    encodeEvidenceManifest noAcceptance noOther .validation (sampleState [sampleEast, sampleLint]) = .ok bytes ∧
      encodeEvidenceManifest noAcceptance noOther .validation (sampleState [sampleUtc, sampleLint]) = .ok bytes :=
  ok_of_sameBytes (by decide +kernel)

/-! ## The encoding of a manifest -/

/-- What is encoded is decoded as the validated manifest in UTC, which is encoded to the same bytes. -/
theorem encoded_decoded {kind : Kind} {state : Fields} {bytes : List ℕ} (hkind : kind ≠ .acceptance)
    (h : encodeEvidenceManifest acceptance other kind state = .ok bytes) :
    ∃ m : Manifest α, validate acceptance other kind state = .ok m ∧
      decodeEvidenceManifest acceptance other readFloat bytes = .ok m.utc ∧
      encodeEvidenceManifest acceptance other kind (m.utc.state acceptance) = .ok bytes := by
  obtain ⟨m, hm, hbytes, hlength⟩ := encode_iff.mp h
  have hmkind : m.kind = kind := validate_kind hm
  have hplain : m.kind ≠ .acceptance := hmkind ▸ hkind
  have hutc : m.utc.kind ≠ .acceptance := by rwa [m.kind_utc]
  refine ⟨m, hm, decode_dumpBytes m hplain hbytes hlength, ?_⟩
  rw [← hmkind, ← m.kind_utc, encode_state_iff m.utc hutc, m.canonical_utc]
  exact ⟨hbytes, hlength⟩

theorem encoded_decoded_sample : ∃ bytes,
    encodeEvidenceManifest noAcceptance noOther .validation (sampleState [sampleEast, sampleLint]) = .ok bytes ∧
      ∃ m : Manifest Empty,
        validate noAcceptance noOther .validation (sampleState [sampleEast, sampleLint]) = .ok m ∧
        decodeEvidenceManifest noAcceptance noOther (fun _ => none) bytes = .ok m.utc ∧
        encodeEvidenceManifest noAcceptance noOther .validation (m.utc.state noAcceptance) = .ok bytes := by
  obtain ⟨bytes, h, -⟩ := sample_bytes
  exact ⟨bytes, h, encoded_decoded (by decide) h⟩

/- The bytes that decoding accepts are encoded again. -/
theorem decode_encode {data : List ℕ} {m : Manifest α} (h : decodeEvidenceManifest acceptance other readFloat data = .ok m) :
    encodeEvidenceManifest acceptance other m.kind (m.state acceptance) = .ok data := by
  unfold decodeEvidenceManifest at h
  obtain ⟨-, h⟩ := (require_bind_eq_ok _ _ _ _).mp h
  obtain ⟨text, -, h⟩ := (bind_eq_ok _ _ _).mp h
  obtain ⟨value, -, h⟩ := (bind_eq_ok _ _ _).mp h
  split at h
  · next raw =>
    obtain ⟨kind, -, h⟩ := (bind_eq_ok _ _ _).mp h
    obtain ⟨-, h⟩ := (bind_unit_eq_ok _ _ _).mp h
    obtain ⟨manifest, hmanifest, h⟩ := (bind_eq_ok _ _ _).mp h
    obtain ⟨canonical, hcanonical, h⟩ := (bind_eq_ok _ _ _).mp h
    obtain ⟨hsame, h⟩ := (require_bind_eq_ok _ _ _ _).mp h
    cases h
    rw [validate_kind hmanifest, hcanonical, hsame]
  · cases h

/-- Bytes are decoded to a manifest exactly when its times are in UTC and they are its encoding. -/
theorem decode_iff {data : List ℕ} {m : Manifest α} (hm : m.kind ≠ .acceptance) :
    decodeEvidenceManifest acceptance other readFloat data = .ok m ↔
      m.utc = m ∧ encodeEvidenceManifest acceptance other m.kind (m.state acceptance) = .ok data := by
  constructor
  · intro h
    have hencoded := decode_encode h
    obtain ⟨hbytes, hlength⟩ := (encode_state_iff m hm data).mp hencoded
    have hagain : decodeEvidenceManifest acceptance other readFloat data = .ok m.utc :=
      decode_dumpBytes m hm hbytes hlength
    rw [h] at hagain
    exact ⟨(Except.ok.inj hagain).symm, hencoded⟩
  · rintro ⟨hutc, hencoded⟩
    obtain ⟨hbytes, hlength⟩ := (encode_state_iff m hm data).mp hencoded
    rw [decode_dumpBytes m hm hbytes hlength, hutc]

theorem decode_iff_sample : ∃ (bytes : List ℕ) (m : Manifest Empty),
    decodeEvidenceManifest noAcceptance noOther (fun _ => none) bytes = .ok m ∧ m.utc = m ∧
      encodeEvidenceManifest noAcceptance noOther m.kind (m.state noAcceptance) = .ok bytes := by
  obtain ⟨bytes, h, -⟩ := sample_bytes
  obtain ⟨m, hm, hbytes, hlength⟩ := encode_iff.mp h
  have hkind : m.kind ≠ .acceptance := by
    rw [validate_kind hm]
    decide
  have hutc : m.utc.kind ≠ .acceptance := by rwa [m.kind_utc]
  have hdecode : decodeEvidenceManifest noAcceptance noOther (fun _ => none) bytes = .ok m.utc :=
    decode_dumpBytes m hkind hbytes hlength
  exact ⟨bytes, m.utc, hdecode, (decode_iff hutc).mp hdecode⟩

/-- Two instances have the same bytes exactly when they are the same manifest in UTC. -/
theorem encoded_same_iff {kind kind' : Kind} {state state' : Fields} {bytes bytes' : List ℕ} (hkind : kind ≠ .acceptance)
    (hkind' : kind' ≠ .acceptance) (h : encodeEvidenceManifest acceptance other kind state = .ok bytes)
    (h' : encodeEvidenceManifest acceptance other kind' state' = .ok bytes') :
    bytes = bytes' ↔
      (validate acceptance other kind state).map Manifest.utc = (validate acceptance other kind' state').map Manifest.utc := by
  obtain ⟨m, hm, hbytes, hlength⟩ := encode_iff.mp h
  obtain ⟨m', hm', hbytes', hlength'⟩ := encode_iff.mp h'
  rw [hm, hm']
  constructor
  · intro hsame
    subst hsame
    have hdecode : decodeEvidenceManifest acceptance other (fun _ => none) bytes = .ok m.utc :=
      decode_dumpBytes m (validate_kind hm ▸ hkind) hbytes hlength
    rw [decode_dumpBytes m' (validate_kind hm' ▸ hkind') hbytes' hlength'] at hdecode
    exact hdecode.symm
  · intro hsame
    have hutc : m.utc = m'.utc := Except.ok.inj hsame
    have hcanonical : m.canonical acceptance = m'.canonical acceptance := by
      rw [← m.canonical_utc, hutc, m'.canonical_utc]
    rw [hcanonical, hbytes'] at hbytes
    exact (Option.some.inj hbytes).symm

theorem encoded_same_iff_sample :
    (validate noAcceptance noOther .validation (sampleState [sampleEast, sampleLint])).map Manifest.utc =
      (validate noAcceptance noOther .validation (sampleState [sampleUtc, sampleLint])).map Manifest.utc := by
  obtain ⟨bytes, h, h'⟩ := sample_bytes
  exact (encoded_same_iff (by decide) (by decide) h h').mp rfl

/-- The members of a validation manifest and the findings of a review are encoded alike in any order. -/
theorem encoded_any_order (before after inner inner' : Fields) {members members' findings findings' : List Raw}
    (hmembers : members.Perm members') (hfindings : findings.Perm findings') (bytes : List ℕ) :
    (encodeEvidenceManifest acceptance other .validation (before ++ (codes "members", .list members) :: after) = .ok bytes ↔
      encodeEvidenceManifest acceptance other .validation (before ++ (codes "members", .list members') :: after) =
        .ok bytes) ∧
    (encodeEvidenceManifest acceptance other .review
        (before ++ (codes "review", .dict (inner ++ (codes "findings", .list findings) :: inner')) :: after) = .ok bytes ↔
      encodeEvidenceManifest acceptance other .review
        (before ++ (codes "review", .dict (inner ++ (codes "findings", .list findings') :: inner')) :: after) =
          .ok bytes) := by
  rw [encode_iff, encode_iff, encode_iff, encode_iff]
  constructor
  · exact exists_congr fun m => and_congr_left' ⟨validate_members hmembers, validate_members hmembers.symm⟩
  · exact exists_congr fun m => and_congr_left' ⟨validate_findings hfindings, validate_findings hfindings.symm⟩

theorem sample_review : ∃ bytes,
    encodeEvidenceManifest noAcceptance noOther .review (sampleReview [sampleFinding "a", sampleFinding "b"]) = .ok bytes := by
  have hsame : sameBytes
      (encodeEvidenceManifest noAcceptance noOther .review (sampleReview [sampleFinding "a", sampleFinding "b"]))
      (encodeEvidenceManifest noAcceptance noOther .review (sampleReview [sampleFinding "a", sampleFinding "b"])) = true := by
    decide +kernel
  obtain ⟨bytes, h, -⟩ := ok_of_sameBytes hsame
  exact ⟨bytes, h⟩

theorem encoded_any_order_sample : ∃ bytes bytes',
    encodeEvidenceManifest noAcceptance noOther .validation (sampleState [sampleLint, sampleEast]) = .ok bytes ∧
      encodeEvidenceManifest noAcceptance noOther .review (sampleReview [sampleFinding "b", sampleFinding "a"]) =
        .ok bytes' := by
  obtain ⟨bytes, h, -⟩ := sample_bytes
  obtain ⟨bytes', h'⟩ := sample_review
  have hswap : ∀ a b : Raw, [a, b].Perm [b, a] := fun a b => List.Perm.swap b a []
  exact ⟨bytes, bytes',
    (encoded_any_order sampleHeader [] sampleApproval [] (hswap sampleEast sampleLint) (hswap sampleLint sampleLint)
      bytes).1.mp h,
    (encoded_any_order sampleReviewer [] sampleApproval [] (hswap sampleLint sampleLint)
      (hswap (sampleFinding "a") (sampleFinding "b")) bytes').2.mp h'⟩

end ParallelForge.Evidence
