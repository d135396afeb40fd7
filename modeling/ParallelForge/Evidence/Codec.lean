import ParallelForge.Base.PyJsonText
import ParallelForge.Evidence.Review

/-!
# The codec of evidence manifests (`domain/evidence.py:604-939`)

A manifest is written as JSON in UTF-8 with sorted keys and times in UTC, at most 256 KiB
of it. What is read must be what would be written. Acceptance manifests hold subscription
records; their model is a parameter.
-/

namespace ParallelForge.Evidence
open Base Calendar PyJson

/-! ## The written form -/

abbrev Entries := List (String × PyJson)

/-- An object of the source, its keys in the order they are listed. -/
def dict (entries : Entries) : List (Str × PyJson) := entries.map fun p => (codes p.1, p.2)

def word (s : String) : PyJson := .str (codes s)

def idText (id : NonNil) : PyJson := .str (uuidText id.val.val)

/-- `_format_datetime`. -/
def timeText (a : Aware) : PyJson := .str (isoUtc a.instant)

def orNull {α : Type} (f : α → PyJson) : Option α → PyJson
  | some a => f a
  | none => .null

def Member.canonical (schemaVersion : ℤ) (m : Member) : Entries :=
  [("check_name", .str m.checkName.val), ("command_digest", .str m.commandDigest.val),
    ("command_name", .str m.commandName.val), ("command_result_digest", .str m.commandResultDigest.val)] ++
  (if schemaVersion = 2 then
    [("controller_receipt_digest", orNull (fun d => .str d.val) m.controllerReceiptDigest)] else []) ++
  [("command_version", .int m.commandVersion.val), ("completed_at", timeText m.completedAt),
    ("exit_code", orNull .int m.exitCode), ("result_id", idText m.resultId), ("started_at", timeText m.startedAt),
    ("status", word m.status.value), ("stderr_digest", .str m.stderrDigest.val),
    ("stdout_digest", .str m.stdoutDigest.val)]

def ValidationManifest.canonical (m : ValidationManifest) : Entries :=
  (if m.schemaVersion.val = 2 then
    [("candidate_tree_digest", orNull (fun d => .str d.val) m.candidateTreeDigest)] else []) ++
  [("evidence_set_id", idText m.evidenceSetId), ("head_sha", .str m.headSha.val), ("kind", word "validation"),
    ("members", .arr (m.members.val.map fun member => .obj (dict (member.canonical m.schemaVersion.val)))),
    ("policy_version", .int m.policyVersion.val),
    ("prior_review_evidence_set_id", orNull idText m.priorReviewEvidenceSetId), ("run_id", idText m.runId),
    ("schema_version", .int m.schemaVersion.val), ("step_id", idText m.stepId)]

def ReviewFinding.canonical (f : ReviewFinding) : Entries :=
  [("evidence", .str f.evidence.val), ("finding_id", .str f.findingId.val), ("path", .str f.path.val),
    ("proposed_resolution", orNull (fun s => .str s.val) f.proposedResolution),
    ("resolved_at", orNull timeText f.resolvedAt), ("severity", word f.severity.value),
    ("start_line", .int f.startLine.val), ("summary", .str f.summary.val)]

def ReviewOutput.canonical (r : ReviewOutput) : Entries :=
  [("decision", word r.decision.value),
    ("findings", .arr (r.findings.val.map fun f => .obj (dict f.canonical))),
    ("missing_evidence", .arr (r.missingEvidence.val.map .str)), ("summary", .str r.summary.val),
    ("tested_claims", .arr (r.testedClaims.val.map .str))]

def ReviewManifest.canonical (m : ReviewManifest) : Entries :=
  [("evidence_set_id", idText m.evidenceSetId), ("head_sha", .str m.headSha.val), ("kind", word "review"),
    ("policy_version", .int m.policyVersion.val), ("producer_execution_id", idText m.producerExecutionId),
    ("review", .obj (dict m.review.canonical)), ("run_id", idText m.runId), ("schema_version", .int 1),
    ("step_id", idText m.stepId), ("validation_evidence_set_id", idText m.validationEvidenceSetId)]

/-! ## The state of an instance -/

/-- `_plain_state`. -/
def RawEntries.fields (entries : List (String × Raw)) : Fields := entries.map fun p => (codes p.1, p.2)

def textRaw (s : Str) : Raw := .json (.str s)

def nullRaw {α : Type} (f : α → Raw) : Option α → Raw
  | some a => f a
  | none => .json .null

def Member.state (m : Member) : List (String × Raw) :=
  [("result_id", .uuid m.resultId.val), ("check_name", textRaw m.checkName.val),
    ("command_name", textRaw m.commandName.val), ("command_version", .json (.int m.commandVersion.val)),
    ("command_digest", textRaw m.commandDigest.val), ("command_result_digest", textRaw m.commandResultDigest.val),
    ("controller_receipt_digest", nullRaw (fun d => textRaw d.val) m.controllerReceiptDigest),
    ("stdout_digest", textRaw m.stdoutDigest.val), ("stderr_digest", textRaw m.stderrDigest.val),
    ("status", textRaw (codes m.status.value)), ("exit_code", nullRaw (fun z => .json (.int z)) m.exitCode),
    ("started_at", .datetime m.startedAt.moment), ("completed_at", .datetime m.completedAt.moment)]

def ValidationManifest.state (m : ValidationManifest) : List (String × Raw) :=
  [("schema_version", .json (.int m.schemaVersion.val)), ("kind", textRaw (codes "validation")),
    ("evidence_set_id", .uuid m.evidenceSetId.val), ("run_id", .uuid m.runId.val), ("step_id", .uuid m.stepId.val),
    ("policy_version", .json (.int m.policyVersion.val)), ("head_sha", textRaw m.headSha.val),
    ("candidate_tree_digest", nullRaw (fun d => textRaw d.val) m.candidateTreeDigest),
    ("prior_review_evidence_set_id", nullRaw (fun id => .uuid id.val) m.priorReviewEvidenceSetId),
    ("members", .list (m.members.val.map fun member => .dict (RawEntries.fields member.state)))]

def ReviewFinding.state (f : ReviewFinding) : List (String × Raw) :=
  [("finding_id", textRaw f.findingId.val), ("severity", textRaw (codes f.severity.value)), ("path", textRaw f.path.val),
    ("start_line", .json (.int f.startLine.val)), ("summary", textRaw f.summary.val), ("evidence", textRaw f.evidence.val),
    ("proposed_resolution", nullRaw (fun s => textRaw s.val) f.proposedResolution),
    ("resolved_at", nullRaw (fun a => .datetime a.moment) f.resolvedAt)]

def ReviewOutput.state (r : ReviewOutput) : List (String × Raw) :=
  [("decision", textRaw (codes r.decision.value)),
    ("findings", .list (r.findings.val.map fun f => .dict (RawEntries.fields f.state))),
    ("tested_claims", .list (r.testedClaims.val.map textRaw)),
    ("missing_evidence", .list (r.missingEvidence.val.map textRaw)), ("summary", textRaw r.summary.val)]

def ReviewManifest.state (m : ReviewManifest) : List (String × Raw) :=
  [("schema_version", .json (.int 1)), ("kind", textRaw (codes "review")), ("evidence_set_id", .uuid m.evidenceSetId.val),
    ("run_id", .uuid m.runId.val), ("step_id", .uuid m.stepId.val), ("policy_version", .json (.int m.policyVersion.val)),
    ("head_sha", textRaw m.headSha.val), ("producer_execution_id", .uuid m.producerExecutionId.val),
    ("validation_evidence_set_id", .uuid m.validationEvidenceSetId.val),
    ("review", .dict (RawEntries.fields m.review.state))]

/-! ## Manifests of every kind -/

inductive Kind
  | validation
  | review
  | acceptance
  deriving DecidableEq

def Kind.value : Kind → String
  | .validation => "validation"
  | .review => "review"
  | .acceptance => "acceptance"

/-- `SubscriptionAcceptanceEvidenceManifest`. -/
structure Acceptance (α : Type) where
  validate : Fields → Except Str α
  canonical : α → List (Str × PyJson)
  state : α → Fields

inductive Manifest (α : Type)
  | validation (manifest : ValidationManifest)
  | review (manifest : ReviewManifest)
  | acceptance (manifest : α)

variable {α : Type} (acceptance : Acceptance α) (other : Str → Option Moment)
  (readFloat : Json.FloatText → Option Json.FloatText)

def Manifest.kind : Manifest α → Kind
  | .validation _ => .validation
  | .review _ => .review
  | .acceptance _ => .acceptance

/-- `_to_canonical_dict`. -/
def Manifest.canonical : Manifest α → List (Str × PyJson)
  | .validation m => dict m.canonical
  | .review m => dict m.canonical
  | .acceptance m => acceptance.canonical m

def Manifest.state : Manifest α → Fields
  | .validation m => RawEntries.fields m.state
  | .review m => RawEntries.fields m.state
  | .acceptance m => acceptance.state m

/-- `model_validate` of the kind's model. -/
def validate (kind : Kind) (fields : Fields) : Except Str (Manifest α) :=
  match kind with
  | .validation => do
    require (fields.within validationKeys = true) failed
    (ValidationManifest.ofFields other fields.field).map .validation
  | .review => do
    require (fields.within reviewManifestKeys = true) failed
    (ReviewManifest.ofFields other fields.field).map .review
  | .acceptance => (acceptance.validate fields).map .acceptance

/-- The conversion of an integer to text has a limit. -/
def printable (v : PyJson) : Bool :=
  (parts v).all fun
    | .int z => (Json.decimal z.natAbs).length ≤ Json.digitLimit
    | _ => true

/-- `json.dumps(..., ensure_ascii=False, separators=(",", ":"), sort_keys=True).encode("utf-8")`. -/
def dumpBytes (v : PyJson) : Option (List ℕ) :=
  if printable v then Codec.encode (render false false (sortKeys v)) else none

def maxManifestBytes : ℕ := 256 * 1024

/-- `encode_evidence_manifest` of an instance by its class and its state. -/
def encodeEvidenceManifest (kind : Kind) (state : Fields) : Except Str (List ℕ) := do
  let manifest ← validate acceptance other kind state
  let encoded ← orRaise (dumpBytes (.obj (manifest.canonical acceptance))) (codes "evidence manifest encoding failed")
  require (encoded.length ≤ maxManifestBytes)
    (codes "encoded evidence manifest exceeds maximum size of 256 KiB (262144 bytes)")
  return encoded

/-- `_pairs_hook`. -/
def pairsHook (pairs : List (Str × PyJson)) : Except Str PyJson := do
  require (pairs.map Prod.fst).Nodup (codes "duplicate JSON key detected")
  return .obj pairs

/-- `_reject_constant`. -/
def rejectConstants (v : PyJson) : Except Str Unit :=
  match (parts v).findSome? fun
    | .constant c => some c
    | _ => none with
  | some c => .error (codes "illegal JSON constant: " ++ constantText c)
  | none => .ok ()

def getInt (raw : List (Str × PyJson)) (key : String) : Option ℤ :=
  match raw.lookup (codes key) with
  | some (.int z) => some z
  | _ => none

def getText (raw : List (Str × PyJson)) (key : String) : Option Str :=
  match raw.lookup (codes key) with
  | some (.str s) => some s
  | _ => none

/-- A canonical UUID, under one of the keys. -/
def checkUuids (raw : List (Str × PyJson)) (keys : List String) : Except Str Unit :=
  keys.forM fun key => require ((getText raw key).any (isGrouped [8, 4, 4, 4, 12]) = true)
    (codes "invalid canonical UUID string for " ++ codes key)

/-- The look at the members before they are validated. -/
def checkMembers (raw : List (Str × PyJson)) : Except Str Unit :=
  match raw.lookup (codes "members") with
  | none => .ok ()
  | some (.arr items) => items.forM fun
    | .obj fields => do
      require ((getInt fields "command_version").isSome = true) (codes "command_version must be a strict integer")
      match fields.lookup (codes "exit_code") with
      | none => .ok ()
      | some .null => .ok ()
      | some (.int _) => .ok ()
      | some _ => .error (codes "exit_code must be a strict integer or None")
    | _ => .error (codes "member must be an object")
  | some _ => .error (codes "members must be a sequence")

/-- The checks before a kind's model is validated. -/
def checkKind (kind : Kind) (raw : List (Str × PyJson)) : Except Str Unit :=
  match kind with
  | .validation => do
    match raw.lookup (codes "prior_review_evidence_set_id") with
    | none => .ok ()
    | some .null => .ok ()
    | some _ => checkUuids raw ["prior_review_evidence_set_id"]
    checkMembers raw
  | .review => checkUuids raw ["producer_execution_id", "validation_evidence_set_id"]
  | .acceptance => .ok ()

/-- The checks on what every kind has. -/
def checkHeader (raw : List (Str × PyJson)) : Except Str Kind := do
  let version ← orRaise ((getInt raw "schema_version").filter fun z => z == 1 || z == 2)
    (codes "unsupported or invalid schema_version")
  let kind ← orRaise ([Kind.validation, .review, .acceptance].find? fun kind =>
    getText raw "kind" == some (codes kind.value)) (codes "unsupported or invalid manifest kind")
  require (kind = .validation ∨ version = 1) (codes "unsupported schema_version for manifest kind")
  require ((getInt raw "policy_version").any (fun z => 1 ≤ z && z ≤ 2147483647) = true) (codes "invalid policy_version")
  checkUuids raw ["evidence_set_id", "run_id", "step_id"]
  require ((getText raw "head_sha").any (fun s => s.length == 40 && s.all isHexLetter) = true)
    (codes "invalid head_sha commit SHA")
  return kind

/-- `json.loads` with its hooks. What they raise is a `ValueError` and is caught with those of the parser. -/
def loadManifest (text : Str) : Except Str PyJson := do
  let value ← loadsHooked (codes "Expecting value") readFloat pairsHook text
  rejectConstants value
  return value

/-- `decode_evidence_manifest`. -/
def decodeEvidenceManifest (data : List ℕ) : Except Str (Manifest α) := do
  require (data.length ≤ maxManifestBytes) (codes "evidence manifest exceeds maximum size of 256 KiB (262144 bytes)")
  let text ← orRaise (Codec.utf8 false data) (codes "manifest contains invalid UTF-8")
  let value ← orRaise (loadManifest readFloat text).toOption (codes "manifest is not valid JSON")
  match value with
  | .obj raw => do
    let kind ← checkHeader raw
    checkKind kind raw
    let manifest ← validate acceptance other kind (raw.map fun p => (p.1, .json p.2))
    let canonical ← encodeEvidenceManifest acceptance other kind (manifest.state acceptance)
    require (canonical = data) (codes "non-canonical evidence manifest wire representation")
    return manifest
  | _ => .error (codes "evidence manifest root must be a JSON object")

end ParallelForge.Evidence
