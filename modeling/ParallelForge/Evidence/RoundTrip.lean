import ParallelForge.Evidence.Plain

/-!
# The bytes of a manifest

What is encoded is decoded as the manifest with its times in UTC, and encoded again to
the same bytes. Nothing else is decoded: the bytes of a manifest are the encoding of it.
-/

namespace ParallelForge.Evidence
open Base Calendar PyJson

variable {α : Type} {acceptance : Acceptance α} {other : Str → Option Moment}
  {readFloat : Json.FloatText → Option Json.FloatText}

/-! ## Times in UTC -/

def Manifest.utc : Manifest α → Manifest α
  | .validation m => .validation m.utc
  | .review m => .review m.utc
  | .acceptance m => .acceptance m

theorem ValidationManifest.canonical_utc (m : ValidationManifest) : m.utc.canonical = m.canonical := by
  have hmembers : m.utc.members.val = m.members.val.map Member.utc := rfl
  unfold ValidationManifest.canonical
  rw [hmembers, List.map_map]
  rfl

theorem ReviewFinding.canonical_utc (f : ReviewFinding) : f.utc.canonical = f.canonical := by
  have hresolved : orNull timeText (f.resolvedAt.map Aware.utc) = orNull timeText f.resolvedAt := by
    cases f.resolvedAt with
    | none => rfl
    | some a => rfl
  simp only [ReviewFinding.canonical, ReviewFinding.utc, hresolved]

theorem ReviewManifest.canonical_utc (m : ReviewManifest) : m.utc.canonical = m.canonical := by
  have hfindings : m.utc.review.findings.val = m.review.findings.val.map ReviewFinding.utc := rfl
  have hsame : (m.review.findings.val.map ReviewFinding.utc).map (fun f => PyJson.obj (dict f.canonical)) =
      m.review.findings.val.map fun f => .obj (dict f.canonical) := by
    rw [List.map_map]
    exact List.map_congr_left fun f _ => congrArg (fun entries => PyJson.obj (dict entries)) f.canonical_utc
  have hreview : m.utc.review.canonical = m.review.canonical := by
    unfold ReviewOutput.canonical
    rw [hfindings, hsame]
    rfl
  unfold ReviewManifest.canonical
  rw [hreview]
  rfl

theorem Manifest.canonical_utc (m : Manifest α) : m.utc.canonical acceptance = m.canonical acceptance := by
  cases m with
  | validation m => exact congrArg dict m.canonical_utc
  | review m => exact congrArg dict m.canonical_utc
  | acceptance m => rfl

theorem Manifest.kind_utc (m : Manifest α) : m.utc.kind = m.kind := by
  cases m with
  | validation m => rfl
  | review m => rfl
  | acceptance m => rfl

/-! ## Validation -/

theorem validate_kind {kind : Kind} {state : Fields} {m : Manifest α} (h : validate acceptance other kind state = .ok m) :
    m.kind = kind := by
  cases kind with
  | validation =>
    obtain ⟨-, h⟩ := (require_bind_eq_ok _ _ _ _).mp h
    obtain ⟨manifest, -, rfl⟩ := (map_eq_ok _ _ _).mp h
    rfl
  | review =>
    obtain ⟨-, h⟩ := (require_bind_eq_ok _ _ _ _).mp h
    obtain ⟨manifest, -, rfl⟩ := (map_eq_ok _ _ _).mp h
    rfl
  | acceptance =>
    obtain ⟨manifest, -, rfl⟩ := (map_eq_ok _ _ _).mp h
    rfl

/- An instance is valid. -/
theorem validate_state (m : Manifest α) (hm : m.kind ≠ .acceptance) :
    validate acceptance other m.kind (m.state acceptance) = .ok m := by
  cases m with
  | validation m =>
    have hkeys : (RawEntries.fields m.state).within validationKeys = true :=
      within_state m.state validationKeys (by simp [ValidationManifest.state, validationKeys])
    have hread : ValidationManifest.ofFields other (Fields.field (RawEntries.fields m.state)) = .ok m :=
      m.reads_state.ofFields
    exact (require_bind_eq_ok _ _ _ _).mpr ⟨hkeys, (map_eq_ok _ _ _).mpr ⟨m, hread, rfl⟩⟩
  | review m =>
    have hkeys : (RawEntries.fields m.state).within reviewManifestKeys = true :=
      within_state m.state reviewManifestKeys (by simp [ReviewManifest.state, reviewManifestKeys])
    have hread : ReviewManifest.ofFields other (Fields.field (RawEntries.fields m.state)) = .ok m :=
      m.reads_state.ofFields
    exact (require_bind_eq_ok _ _ _ _).mpr ⟨hkeys, (map_eq_ok _ _ _).mpr ⟨m, hread, rfl⟩⟩
  | acceptance m => exact absurd rfl hm

theorem validate_written (m : Manifest α) (hm : m.kind ≠ .acceptance) :
    validate acceptance other m.kind ((sortedMembers (m.canonical acceptance)).map fun p => (p.1, .json p.2)) =
      .ok m.utc := by
  cases m with
  | validation m =>
    have hkeys : (written m.canonical).within validationKeys = true := within_written _ validationKeys m.canonical_keys.2
    have hread : ValidationManifest.ofFields other (written m.canonical).field = .ok m.utc := m.reads_written.ofFields
    exact (require_bind_eq_ok _ _ _ _).mpr ⟨hkeys, (map_eq_ok _ _ _).mpr ⟨m.utc, hread, rfl⟩⟩
  | review m =>
    have hkeys : (written m.canonical).within reviewManifestKeys = true :=
      within_written _ reviewManifestKeys m.canonical_keys.2
    have hread : ReviewManifest.ofFields other (written m.canonical).field = .ok m.utc := m.reads_written.ofFields
    exact (require_bind_eq_ok _ _ _ _).mpr ⟨hkeys, (map_eq_ok _ _ _).mpr ⟨m.utc, hread, rfl⟩⟩
  | acceptance m => exact absurd rfl hm

theorem Manifest.sound (m : Manifest α) (hm : m.kind ≠ .acceptance) : Sound (.obj (m.canonical acceptance)) := by
  cases m with
  | validation m => exact m.sound
  | review m => exact m.sound
  | acceptance m => exact absurd rfl hm

/-! ## The look before validation -/

section look
variable {entries : Entries} {key : String}

theorem getInt_written (hn : (entries.map Prod.fst).Nodup) {z : ℤ} (h : entries.lookup key = some (.int z)) :
    getInt (sortedMembers (dict entries)) key = some z := by
  rw [getInt, lookup_written entries hn, h]
  rfl

theorem getText_written (hn : (entries.map Prod.fst).Nodup) {s : Str} (h : entries.lookup key = some (.str s)) :
    getText (sortedMembers (dict entries)) key = some s := by
  rw [getText, lookup_written entries hn, h]
  rfl

theorem checkUuids_written (hn : (entries.map Prod.fst).Nodup) {keys : List String}
    (h : ∀ key ∈ keys, ∃ id : NonNil, entries.lookup key = some (idText id)) :
    checkUuids (sortedMembers (dict entries)) keys = .ok () := by
  rw [checkUuids, forM_eq_ok]
  intro key hkey
  obtain ⟨id, hid⟩ := h key hkey
  rw [idText] at hid
  rw [require_eq_ok, getText_written hn hid, Option.any_some, isGrouped_uuidText id.val]

/- What every kind has passes the checks on it. -/
theorem checkHeader_of {raw : List (Str × PyJson)} {version : {z : ℤ // z = 1 ∨ z = 2}} {kind : Kind}
    {policy : PolicyVersion} {sha : Hex 40} (hversion : getInt raw "schema_version" = some version.val)
    (hkind : getText raw "kind" = some (codes kind.value)) (hfirst : kind = .validation ∨ version.val = 1)
    (hpolicy : getInt raw "policy_version" = some policy.val)
    (hids : checkUuids raw ["evidence_set_id", "run_id", "step_id"] = .ok ())
    (hsha : getText raw "head_sha" = some sha.val) : checkHeader raw = .ok kind := by
  have hknown : (some version.val).filter (fun z => z == 1 || z == 2) = some version.val := by
    obtain ⟨version, rfl | rfl⟩ := version
    · rfl
    · rfl
  have hfound : [Kind.validation, .review, .acceptance].find? (fun kind' =>
      some (codes kind.value) == some (codes kind'.value)) = some kind := by
    cases kind with
    | validation => rfl
    | review => rfl
    | acceptance => rfl
  have hbounds : (some policy.val).any (fun z => decide (1 ≤ z) && decide (z ≤ 2147483647)) = true := by
    rw [Option.any_some, Bool.and_eq_true, decide_eq_true_eq, decide_eq_true_eq]
    exact policy.property
  have hcommit : (some sha.val).any (fun s => s.length == 40 && s.all isHexLetter) = true := by
    rw [Option.any_some, Bool.and_eq_true, beq_iff_eq]
    exact sha.property
  simp only [checkHeader, hversion, hkind, hpolicy, hids, hsha, hknown, hfound, hbounds, hcommit, orRaise, require,
    if_pos hfirst, bind, Except.bind, pure, Except.pure, if_true]

end look

theorem ValidationManifest.checkHeader_written (m : ValidationManifest) :
    checkHeader (sortedMembers (dict m.canonical)) = .ok .validation := by
  have hn := m.canonical_keys.1
  have found {key : String} {value : PyJson} (hkey : key ≠ "candidate_tree_digest") (h : m.common.lookup key = some value) :
      m.canonical.lookup key = some value := (m.canonical_lookup key hkey).trans h
  apply checkHeader_of (getInt_written hn (found (by decide) rfl)) (getText_written hn (found (by decide) rfl))
    (Or.inl rfl) (getInt_written hn (found (by decide) rfl)) _ (getText_written hn (found (by decide) rfl))
  apply checkUuids_written hn
  simp only [List.forall_mem_cons, List.not_mem_nil, false_imp_iff, implies_true, and_true]
  exact ⟨⟨m.evidenceSetId, found (by decide) rfl⟩, ⟨m.runId, found (by decide) rfl⟩, ⟨m.stepId, found (by decide) rfl⟩⟩

theorem ReviewManifest.checkHeader_written (m : ReviewManifest) :
    checkHeader (sortedMembers (dict m.canonical)) = .ok .review := by
  have hn := m.canonical_keys.1
  have hversion : getInt (sortedMembers (dict m.canonical)) "schema_version" =
      some (⟨1, Or.inl rfl⟩ : {z : ℤ // z = 1 ∨ z = 2}).val := getInt_written hn rfl
  apply checkHeader_of hversion (getText_written hn rfl) (Or.inr rfl) (getInt_written hn rfl) _ (getText_written hn rfl)
  apply checkUuids_written hn
  simp only [List.forall_mem_cons, List.not_mem_nil, false_imp_iff, implies_true, and_true]
  exact ⟨⟨m.evidenceSetId, rfl⟩, ⟨m.runId, rfl⟩, ⟨m.stepId, rfl⟩⟩

theorem Member.checked (m : Member) (version : ℤ) :
    (do
      require ((getInt (sortedMembers (dict (m.canonical version))) "command_version").isSome = true)
        (codes "command_version must be a strict integer")
      match (sortedMembers (dict (m.canonical version))).lookup (codes "exit_code") with
      | none => .ok ()
      | some .null => .ok ()
      | some (.int _) => .ok ()
      | some _ => .error (codes "exit_code must be a strict integer or None")) = Except.ok () := by
  have hn := (m.canonical_keys version).1
  have hversion : (m.canonical version).lookup "command_version" = some (.int m.commandVersion.val) :=
    m.canonical_lookup version "command_version" (by decide)
  have hexit : (m.canonical version).lookup "exit_code" = some (orNull .int m.exitCode) :=
    m.canonical_lookup version "exit_code" (by decide)
  rw [getInt_written hn hversion, lookup_written _ hn, hexit]
  cases m.exitCode with
  | none => rfl
  | some z => rfl

theorem ValidationManifest.checkMembers_written (m : ValidationManifest) :
    checkMembers (sortedMembers (dict m.canonical)) = .ok () := by
  have hmembers : m.canonical.lookup "members" =
      some (.arr (m.members.val.map fun member => .obj (dict (member.canonical m.schemaVersion.val)))) :=
    m.canonical_lookup "members" (by decide)
  have hwritten : (sortedMembers (dict m.canonical)).lookup (codes "members") =
      some (.arr (m.members.val.map fun member =>
        .obj (sortedMembers (dict (member.canonical m.schemaVersion.val))))) := by
    rw [lookup_written _ m.canonical_keys.1, hmembers, Option.map_some, sortKeys_arr, List.map_map]
    simp only [Function.comp_def, sortKeys_obj]
  rw [checkMembers, hwritten]
  apply (forM_eq_ok _ _).mpr
  intro item hitem
  obtain ⟨member, -, rfl⟩ := List.mem_map.mp hitem
  exact member.checked m.schemaVersion.val

theorem ValidationManifest.checkKind_written (m : ValidationManifest) :
    checkKind .validation (sortedMembers (dict m.canonical)) = .ok () := by
  have hn := m.canonical_keys.1
  have hprior : m.canonical.lookup "prior_review_evidence_set_id" = some (orNull idText m.priorReviewEvidenceSetId) :=
    m.canonical_lookup "prior_review_evidence_set_id" (by decide)
  rw [checkKind, lookup_written _ hn, hprior, m.checkMembers_written]
  cases hid : m.priorReviewEvidenceSetId with
  | none => rfl
  | some id =>
    have huuid : checkUuids (sortedMembers (dict m.canonical)) ["prior_review_evidence_set_id"] = .ok () := by
      apply checkUuids_written hn
      intro key hkey
      rw [List.mem_singleton.mp hkey]
      exact ⟨id, by rw [hprior, hid, orNull]⟩
    simp only [orNull, idText, Option.map_some, sortKeys, huuid, bind, Except.bind]

theorem ReviewManifest.checkKind_written (m : ReviewManifest) :
    checkKind .review (sortedMembers (dict m.canonical)) = .ok () := by
  apply checkUuids_written m.canonical_keys.1
  simp only [List.forall_mem_cons, List.not_mem_nil, false_imp_iff, implies_true, and_true]
  exact ⟨⟨m.producerExecutionId, rfl⟩, ⟨m.validationEvidenceSetId, rfl⟩⟩

theorem Manifest.checked_written (m : Manifest α) (hm : m.kind ≠ .acceptance) :
    checkHeader (sortedMembers (m.canonical acceptance)) = .ok m.kind ∧
      checkKind m.kind (sortedMembers (m.canonical acceptance)) = .ok () := by
  cases m with
  | validation m => exact ⟨m.checkHeader_written, m.checkKind_written⟩
  | review m => exact ⟨m.checkHeader_written, m.checkKind_written⟩
  | acceptance m => exact absurd rfl hm

/-! ## Encoding and decoding -/

theorem keeps_pairsHook : Keeps pairsHook := by
  intro pairs hn
  rw [pairsHook, require, if_pos hn]
  rfl

/- A value that is read back holds no constant. -/
theorem plain_parts {ascii : Bool} (v : PyJson) :
    Plain ascii v → ∀ u ∈ parts v, ∀ c, u ≠ .constant c := by
  induction v using induct with
  | null => exact fun _ u hu c => by rw [parts, List.mem_singleton] at hu; rw [hu]; exact fun h => by cases h
  | bool b => exact fun _ u hu c => by rw [parts, List.mem_singleton] at hu; rw [hu]; exact fun h => by cases h
  | int z => exact fun _ u hu c => by rw [parts, List.mem_singleton] at hu; rw [hu]; exact fun h => by cases h
  | str s => exact fun _ u hu c => by rw [parts, List.mem_singleton] at hu; rw [hu]; exact fun h => by cases h
  | float f => exact fun h => absurd h (by simp [Plain])
  | constant c => exact fun h => absurd h (by simp [Plain])
  | arr vs ih =>
    intro h u hu c
    rw [Plain, plainItems_iff] at h
    rcases mem_parts_arr.mp hu with rfl | ⟨v, hv, huv⟩
    · exact fun h => by cases h
    · exact ih v hv (h v hv) u huv c
  | obj ms ih =>
    intro h u hu c
    rw [Plain, plainMembers_iff] at h
    rcases mem_parts_obj.mp hu with rfl | ⟨p, hp, hup⟩
    · exact fun h => by cases h
    · exact ih p hp (h.2 p hp).2 u hup c

theorem rejectConstants_plain {ascii : Bool} {v : PyJson} (h : Plain ascii v) : rejectConstants v = .ok () := by
  unfold rejectConstants
  split
  · next c hfound =>
    obtain ⟨u, hu, hc⟩ := List.exists_of_findSome?_eq_some hfound
    split at hc
    · next d => exact absurd rfl (plain_parts v h _ hu d)
    · cases hc
  · rfl

theorem encode_iff {kind : Kind} {state : Fields} {bytes : List ℕ} :
    encodeEvidenceManifest acceptance other kind state = .ok bytes ↔
      ∃ m, validate acceptance other kind state = .ok m ∧ dumpBytes (.obj (m.canonical acceptance)) = some bytes ∧
        bytes.length ≤ maxManifestBytes := by
  simp only [encodeEvidenceManifest, bind_eq_ok, orRaise_eq_ok, require_eq_ok, pure, Except.pure, Except.ok.injEq]
  constructor
  · rintro ⟨m, hm, encoded, hencoded, -, hlength, rfl⟩
    exact ⟨m, hm, hencoded, hlength⟩
  · rintro ⟨m, hm, hencoded, hlength⟩
    exact ⟨m, hm, bytes, hencoded, (), hlength, rfl⟩

theorem encode_state_iff (m : Manifest α) (hm : m.kind ≠ .acceptance) (bytes : List ℕ) :
    encodeEvidenceManifest acceptance other m.kind (m.state acceptance) = .ok bytes ↔
      dumpBytes (.obj (m.canonical acceptance)) = some bytes ∧ bytes.length ≤ maxManifestBytes := by
  rw [encode_iff, validate_state m hm]
  constructor
  · rintro ⟨m', hm', hbytes⟩
    cases hm'
    exact hbytes
  · exact fun hbytes => ⟨m, rfl, hbytes⟩

/- The text that was written, read as its value. -/
theorem loads_dumpBytes (failure : Str) (readFloat : Json.FloatText → Option Json.FloatText) {v : PyJson} {bytes : List ℕ}
    (hv : Sound v) (h : dumpBytes v = some bytes) :
    ∃ text, Codec.utf8 false bytes = some text ∧
      loadsHooked failure readFloat pairsHook text = .ok (sortKeys v) ∧ rejectConstants (sortKeys v) = .ok () := by
  unfold dumpBytes at h
  split at h
  · next hprint =>
    have hplain : Plain false (sortKeys v) := plain_sortKeys false v (hv hprint)
    refine ⟨render false false (sortKeys v), Codec.utf8_encode h, ?_, rejectConstants_plain hplain⟩
    rw [loadsHooked_render keeps_pairsHook _ hplain, reread_open _ hplain]
  · cases h

/- The bytes of a valid manifest are decoded to it. -/
theorem decode_dumpBytes (m : Manifest α) (hm : m.kind ≠ .acceptance) {bytes : List ℕ}
    (h : dumpBytes (.obj (m.canonical acceptance)) = some bytes) (hlength : bytes.length ≤ maxManifestBytes) :
    decodeEvidenceManifest acceptance other readFloat bytes = .ok m.utc := by
  obtain ⟨text, htext, hloads, hconstants⟩ :=
    loads_dumpBytes (codes "Expecting value") readFloat (m.sound hm) h
  have hutc : m.utc.kind ≠ .acceptance := by rwa [m.kind_utc]
  have hagain : encodeEvidenceManifest acceptance other m.utc.kind (m.utc.state acceptance) = .ok bytes :=
    (encode_state_iff m.utc hutc bytes).mpr ⟨by rw [m.canonical_utc]; exact h, hlength⟩
  rw [m.kind_utc] at hagain
  rw [sortKeys_obj] at hloads hconstants
  simp only [decodeEvidenceManifest, loadManifest, require, if_pos hlength, htext, orRaise, hloads, hconstants,
    Except.toOption, (m.checked_written hm).1, (m.checked_written hm).2, validate_written m hm, hagain, bind, Except.bind, pure,
    Except.pure, if_true]

end ParallelForge.Evidence
