import ParallelForge.Base.Calendar
import ParallelForge.Base.PyJsonStrict
import ParallelForge.Base.Uuid
import ParallelForge.Redaction.Patterns
import Mathlib.Data.Prod.Lex

/-!
# Evidence manifests (`domain/evidence.py`, `domain/review.py`, `domain/agent.py`)

A manifest is validated from a mapping, either the decoded JSON of a stored one or the
state of an instance. What passes is a value that carries its checks: the members are
sorted and distinct, times have a zone, texts have their form.
-/

namespace ParallelForge.Evidence
open Base Calendar

/-! ## What a validator is given -/

/-- A UUID object. -/
abbrev Uuid := Fin (2 ^ 128)

/-- A decoded value, or one that the state of an instance has. -/
inductive Raw
  | json (value : PyJson)
  | uuid (id : Uuid)
  | datetime (moment : Moment)
  | list (items : List Raw)
  | dict (members : List (Str × Raw))

abbrev Fields := List (Str × Raw)

def failed : Str := codes "evidence manifest validation failed"

/-- A value that passes a check, with the check. -/
def check {α : Type} (p : α → Prop) [DecidablePred p] (a : α) : Except Str {a : α // p a} :=
  if h : p a then .ok ⟨a, h⟩ else .error failed

def Raw.text : Raw → Except Str Str
  | .json (.str s) => .ok s
  | _ => .error failed

/-- `type(value) is int`. -/
def Raw.int : Raw → Except Str ℤ
  | .json (.int z) => .ok z
  | _ => .error failed

/-- A sequence that is no text. -/
def Raw.items : Raw → Except Str (List Raw)
  | .json (.arr vs) => .ok (vs.map .json)
  | .list items => .ok items
  | _ => .error failed

def Raw.members : Raw → Except Str Fields
  | .json (.obj ms) => .ok (ms.map fun p => (p.1, .json p.2))
  | .dict members => .ok members
  | _ => .error failed

/-- `None`, or what `read` takes. -/
def nullable {α : Type} (read : Raw → Except Str α) : Raw → Except Str (Option α)
  | .json .null => .ok none
  | value => (read value).map some

def Fields.field (fields : Fields) (key : String) : Option Raw := fields.lookup (codes key)

/-- A field without a default. -/
def needed {α : Type} (field : Option Raw) (read : Raw → Except Str α) : Except Str α :=
  match field with
  | some value => read value
  | none => .error failed

def defaulted {α : Type} (default : α) (field : Option Raw) (read : Raw → Except Str α) : Except Str α :=
  match field with
  | some value => read value
  | none => .ok default

/-- `extra="forbid"`. -/
def Fields.within (fields : Fields) (keys : List String) : Bool :=
  fields.all fun p => (keys.map codes).contains p.1

/-! ## Fields -/

def isHexLetter (c : ℕ) : Bool := (48 ≤ c && c ≤ 57) || (97 ≤ c && c ≤ 102)

/-- The texts `str.strip` does not empty. -/
def isBlank (s : Str) : Bool := s.all Redaction.isSpaceCode

/-- The texts of a `str`; all code points. -/
def isLetters (s : Str) : Bool := s.all (· < 0x110000)

/-- `\A[0-9a-f]{n}\Z`. -/
abbrev Hex (n : ℕ) := {s : Str // s.length = n ∧ s.all isHexLetter = true}

/-- `_validate_bounded_non_blank_str`. -/
abbrev Name := {s : Str // isLetters s = true ∧ isBlank s = false ∧ s.length ≤ 255}

abbrev NonNil := {id : Uuid // id ≠ 0}

abbrev Positive := {z : ℤ // 1 ≤ z}

abbrev PolicyVersion := {z : ℤ // 1 ≤ z ∧ z ≤ 2147483647}

/-- Groups of hexadecimal digits with hyphens between them. -/
def isGrouped : List ℕ → Str → Bool
  | [], s => s.isEmpty
  | [n], s => s.length == n && s.all isHexLetter
  | n :: ns, s => (s.take n).length == n && (s.take n).all isHexLetter && (s.drop n).head? == some 45 &&
      isGrouped ns (s.drop (n + 1))

/-- `_CANONICAL_UUID`, and the UUID it spells. -/
def parseUuid (s : Str) : Except Str Uuid :=
  if h : isGrouped [8, 4, 4, 4, 12] s = true ∧
      Nat.ofDigits 16 ((s.filter fun c => c ≠ 45).reverse.map hexDigitValue) < 2 ^ 128 then .ok ⟨_, h.2⟩
  else .error failed

/-- `_validate_non_nil_uuid`. -/
def nonNilUuid : Raw → Except Str NonNil
  | .json (.str s) => do
    let id ← parseUuid s
    check (· ≠ 0) id
  | .uuid id => check (· ≠ 0) id
  | _ => .error failed

/-- `_validate_bounded_non_blank_str`. -/
def name (value : Raw) : Except Str Name := do
  let s ← value.text
  check (fun s => isLetters s = true ∧ isBlank s = false ∧ s.length ≤ 255) s

/-- `_validate_sha256`, `_validate_sha1`. -/
def hex (n : ℕ) (value : Raw) : Except Str (Hex n) := do
  let s ← value.text
  check (fun s => s.length = n ∧ s.all isHexLetter = true) s

/-- `_validate_strict_int`. -/
def positive (value : Raw) : Except Str Positive := do
  let z ← value.int
  check (fun z => 1 ≤ z) z

def policyVersionOf (value : Raw) : Except Str PolicyVersion := do
  let z ← value.int
  check (fun z => 1 ≤ z ∧ z ≤ 2147483647) z

/-- A time with a zone that UTC has. -/
structure Aware where
  moment : Moment
  instant : ℕ
  known : moment.instant = some instant

def aware (moment : Moment) : Except Str Aware :=
  match h : moment.instant with
  | some t => .ok ⟨moment, t, h⟩
  | none => .error failed

/-- The same time as UTC shows it. -/
def Aware.utc (a : Aware) : Aware :=
  ⟨utcMoment a.instant, a.instant, instant_utcMoment a.instant (instant_lt a.moment a.instant a.known)⟩

section times
variable (other : Str → Option Moment)

/-- `_validate_timezone_aware`. -/
def awareTime : Raw → Except Str Aware
  | .json (.str s) =>
    match fromIsoformat other s with
    | some moment => aware moment
    | none => .error failed
  | .datetime moment => aware moment
  | _ => .error failed

/-! ## Validation evidence -/

inductive EvidenceStatus
  | passed
  | failed
  | skipped
  | cancelled
  deriving DecidableEq

def EvidenceStatus.value : EvidenceStatus → String
  | .passed => "PASSED"
  | .failed => "FAILED"
  | .skipped => "SKIPPED"
  | .cancelled => "CANCELLED"

def EvidenceStatus.all : List EvidenceStatus := [.passed, .failed, .skipped, .cancelled]

/-- A member of an enumeration by its value. -/
def enumerated {α : Type} (all : List α) (value : α → String) (raw : Raw) : Except Str α := do
  let s ← raw.text
  orRaise (all.find? fun a => codes (value a) == s) failed

/-- `ValidationEvidenceMember`. -/
structure Member where
  resultId : NonNil
  checkName : Name
  commandName : Name
  commandVersion : Positive
  commandDigest : Hex 64
  commandResultDigest : Hex 64
  controllerReceiptDigest : Option (Hex 64)
  stdoutDigest : Hex 64
  stderrDigest : Hex 64
  status : EvidenceStatus
  exitCode : Option ℤ
  startedAt : Aware
  completedAt : Aware
  ordered : startedAt.instant ≤ completedAt.instant
  exits : (status = .passed → exitCode = some 0) ∧ (status = .failed → exitCode ≠ some 0)

def memberKeys : List String :=
  ["result_id", "check_name", "command_name", "command_version", "command_digest", "command_result_digest",
    "controller_receipt_digest", "stdout_digest", "stderr_digest", "status", "exit_code", "started_at", "completed_at"]

def Member.ofFields (field : String → Option Raw) : Except Str Member := do
  let resultId ← needed (field "result_id") nonNilUuid
  let checkName ← needed (field "check_name") name
  let commandName ← needed (field "command_name") name
  let commandVersion ← needed (field "command_version") positive
  let commandDigest ← needed (field "command_digest") (hex 64)
  let commandResultDigest ← needed (field "command_result_digest") (hex 64)
  let controllerReceiptDigest ← defaulted none (field "controller_receipt_digest") (nullable (hex 64))
  let stdoutDigest ← needed (field "stdout_digest") (hex 64)
  let stderrDigest ← needed (field "stderr_digest") (hex 64)
  let status ← needed (field "status") (enumerated EvidenceStatus.all EvidenceStatus.value)
  let exitCode ← defaulted none (field "exit_code") (nullable Raw.int)
  let startedAt ← needed (field "started_at") (awareTime other)
  let completedAt ← needed (field "completed_at") (awareTime other)
  if h : startedAt.instant ≤ completedAt.instant ∧ (status = .passed → exitCode = some 0) ∧
      (status = .failed → exitCode ≠ some 0) then
    return ⟨resultId, checkName, commandName, commandVersion, commandDigest, commandResultDigest,
      controllerReceiptDigest, stdoutDigest, stderrDigest, status, exitCode, startedAt, completedAt, h.1, h.2⟩
  else .error failed

/-- `ValidationEvidenceMember.model_validate`. -/
def Member.validate (value : Raw) : Except Str Member := do
  let fields ← value.members
  require (fields.within memberKeys = true) failed
  Member.ofFields other fields.field

/-- `(check_name, command_name, command_version)`. -/
def Member.semanticId (m : Member) : Str × Str × ℤ := (m.checkName.val, m.commandName.val, m.commandVersion.val)

/-- The order of `(check_name, command_name, command_version, str(result_id))`. -/
def Member.sortKey (m : Member) : Str ×ₗ Str ×ₗ ℤ ×ₗ Str :=
  toLex (m.checkName.val, toLex (m.commandName.val, toLex (m.commandVersion.val, uuidText m.resultId.val.val)))

def memberLe (a b : Member) : Prop := a.sortKey ≤ b.sortKey

instance : DecidableRel memberLe := fun a b => inferInstanceAs (Decidable (a.sortKey ≤ b.sortKey))

instance : Std.Total memberLe := ⟨fun a b => le_total a.sortKey b.sortKey⟩

instance : IsTrans Member memberLe := ⟨fun _ _ _ => le_trans⟩

/-- The members of one manifest, in any order. -/
structure Distinct (members : List Member) : Prop where
  count : members.length ≤ 64
  results : (members.map (·.resultId)).Nodup
  semantics : (members.map Member.semanticId).Nodup

instance (members : List Member) : Decidable (Distinct members) :=
  decidable_of_iff (members.length ≤ 64 ∧ (members.map (·.resultId)).Nodup ∧ (members.map Member.semanticId).Nodup)
    ⟨fun h => ⟨h.1, h.2.1, h.2.2⟩, fun h => ⟨h.count, h.results, h.semantics⟩⟩

theorem distinct_nil : Distinct [] := ⟨Nat.zero_le 64, List.nodup_nil, List.nodup_nil⟩

theorem sorted_again (members : List Member) :
    (members.insertionSort memberLe).insertionSort memberLe = members.insertionSort memberLe :=
  List.Pairwise.insertionSort_eq (List.pairwise_insertionSort memberLe members)

theorem Distinct.sorted {members : List Member} (h : Distinct members) : Distinct (members.insertionSort memberLe) where
  count := (List.perm_insertionSort memberLe members).length_eq ▸ h.count
  results := ((List.perm_insertionSort memberLe members).map _).nodup_iff.mpr h.results
  semantics := ((List.perm_insertionSort memberLe members).map _).nodup_iff.mpr h.semantics

/-- Lists of distinct members in their order. -/
abbrev Members := {members : List Member // Distinct members ∧ members.insertionSort memberLe = members}

def membersField (value : Raw) : Except Str Members := do
  let items ← value.items
  require (items.length ≤ 64) failed
  let parsed ← items.mapM (Member.validate other)
  if h : Distinct parsed then return ⟨parsed.insertionSort memberLe, h.sorted, sorted_again parsed⟩
  else .error failed

/-- `ValidationEvidenceManifest`. -/
structure ValidationManifest where
  schemaVersion : {z : ℤ // z = 1 ∨ z = 2}
  evidenceSetId : NonNil
  runId : NonNil
  stepId : NonNil
  policyVersion : PolicyVersion
  headSha : Hex 40
  candidateTreeDigest : Option (Hex 64)
  priorReviewEvidenceSetId : Option NonNil
  members : Members
  candidate : schemaVersion.val = 2 ↔ candidateTreeDigest.isSome = true
  receipts : ∀ m ∈ members.val, (schemaVersion.val = 2 ↔ m.controllerReceiptDigest.isSome = true)
  prior : priorReviewEvidenceSetId ≠ some evidenceSetId

def validationKeys : List String :=
  ["schema_version", "kind", "evidence_set_id", "run_id", "step_id", "policy_version", "head_sha",
    "candidate_tree_digest", "prior_review_evidence_set_id", "members"]

def schemaVersionOf (value : Raw) : Except Str {z : ℤ // z = 1 ∨ z = 2} := do
  let z ← value.int
  check (fun z => z = 1 ∨ z = 2) z

/-- `Literal`. -/
def literal (word : String) (value : Raw) : Except Str Unit := do
  let s ← value.text
  require (s = codes word) failed

/-- `ValidationEvidenceManifest.model_validate`. -/
def ValidationManifest.ofFields (field : String → Option Raw) : Except Str ValidationManifest := do
  let version ← defaulted ⟨1, Or.inl rfl⟩ (field "schema_version") schemaVersionOf
  defaulted () (field "kind") (literal "validation")
  let evidenceSetId ← needed (field "evidence_set_id") nonNilUuid
  let runId ← needed (field "run_id") nonNilUuid
  let stepId ← needed (field "step_id") nonNilUuid
  let policyVersion ← needed (field "policy_version") policyVersionOf
  let headSha ← needed (field "head_sha") (hex 40)
  let candidateTreeDigest ← defaulted none (field "candidate_tree_digest") (nullable (hex 64))
  let priorReviewEvidenceSetId ← defaulted none (field "prior_review_evidence_set_id") (nullable nonNilUuid)
  let members ← defaulted ⟨[], distinct_nil, rfl⟩ (field "members") (membersField other)
  if h : (version.val = 2 ↔ candidateTreeDigest.isSome = true) ∧
      (∀ m ∈ members.val, (version.val = 2 ↔ m.controllerReceiptDigest.isSome = true)) ∧
      priorReviewEvidenceSetId ≠ some evidenceSetId then
    return ⟨version, evidenceSetId, runId, stepId, policyVersion, headSha, candidateTreeDigest,
      priorReviewEvidenceSetId, members, h.1, h.2.1, h.2.2⟩
  else .error failed

end times

end ParallelForge.Evidence
