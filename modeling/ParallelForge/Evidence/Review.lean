import ParallelForge.Base.Codec
import ParallelForge.Evidence.Manifest

/-!
# Review manifests (`domain/evidence.py`, `domain/review.py`, `domain/agent.py`)

The review of a manifest lists its findings by id; its decision agrees with the findings
that are open and with the evidence it misses.
-/

namespace ParallelForge.Evidence
open Base Calendar

inductive FindingSeverity
  | blocker
  | major
  | minor
  | suggestion
  deriving DecidableEq

def FindingSeverity.value : FindingSeverity → String
  | .blocker => "blocker"
  | .major => "major"
  | .minor => "minor"
  | .suggestion => "suggestion"

def FindingSeverity.all : List FindingSeverity := [.blocker, .major, .minor, .suggestion]

inductive ReviewDecision
  | approve
  | requestChanges
  | blocked
  deriving DecidableEq

def ReviewDecision.value : ReviewDecision → String
  | .approve => "approve"
  | .requestChanges => "request_changes"
  | .blocked => "blocked"

def ReviewDecision.all : List ReviewDecision := [.approve, .requestChanges, .blocked]

abbrev Letters := {s : Str // isLetters s = true}

/-- A field with a length is read as UTF-8. -/
abbrev NonBlank := {s : Str // s.all Codec.isScalar = true ∧ isBlank s = false}

abbrev Summary := {s : Str // s.all Codec.isScalar = true ∧ isBlank s = false ∧ s.length ≤ 10000}

/-- `_validate_string_tuple` with its defaults. -/
abbrev Texts := {l : List Str // l.length ≤ 100 ∧
  (∀ s ∈ l, isLetters s = true ∧ isBlank s = false ∧ s.length ≤ 5000) ∧ l.Nodup}

def letters (value : Raw) : Except Str Letters := do
  let s ← value.text
  check (fun s => isLetters s = true) s

/-- `non_blank_text`. -/
def nonBlank (value : Raw) : Except Str NonBlank := do
  let s ← value.text
  check (fun s => s.all Codec.isScalar = true ∧ isBlank s = false) s

def summaryOf (value : Raw) : Except Str Summary := do
  let s ← value.text
  check (fun s => s.all Codec.isScalar = true ∧ isBlank s = false ∧ s.length ≤ 10000) s

/-- `_validate_string_tuple`. -/
def textsOf (value : Raw) : Except Str Texts := do
  let items ← value.items
  let l ← items.mapM Raw.text
  check (fun l => l.length ≤ 100 ∧ (∀ s ∈ l, isLetters s = true ∧ isBlank s = false ∧ s.length ≤ 5000) ∧ l.Nodup) l

/-- `ReviewFinding`. -/
structure ReviewFinding where
  findingId : NonBlank
  severity : FindingSeverity
  path : NonBlank
  startLine : Positive
  summary : NonBlank
  evidence : NonBlank
  proposedResolution : Option Letters
  resolvedAt : Option Aware

def findingKeys : List String :=
  ["finding_id", "severity", "path", "start_line", "summary", "evidence", "proposed_resolution", "resolved_at"]

section times
variable (other : Str → Option Moment)

def ReviewFinding.ofFields (field : String → Option Raw) : Except Str ReviewFinding := do
  let startLine ← needed (field "start_line") positive
  let resolvedAt ← defaulted none (field "resolved_at") (nullable (awareTime other))
  let findingId ← needed (field "finding_id") nonBlank
  let severity ← needed (field "severity") (enumerated FindingSeverity.all FindingSeverity.value)
  let path ← needed (field "path") nonBlank
  let summary ← needed (field "summary") nonBlank
  let evidence ← needed (field "evidence") nonBlank
  let proposedResolution ← defaulted none (field "proposed_resolution") (nullable letters)
  return ⟨findingId, severity, path, startLine, summary, evidence, proposedResolution, resolvedAt⟩

/-- One turn of the loop in `_validate_review`. -/
def ReviewFinding.validate (value : Raw) : Except Str ReviewFinding := do
  let fields ← value.members
  require (fields.within findingKeys = true) failed
  ReviewFinding.ofFields other fields.field

def findingLe (a b : ReviewFinding) : Prop := a.findingId.val ≤ b.findingId.val

instance : DecidableRel findingLe := fun a b => inferInstanceAs (Decidable (a.findingId.val ≤ b.findingId.val))

instance : Std.Total findingLe := ⟨fun a b => le_total a.findingId.val b.findingId.val⟩

instance : IsTrans ReviewFinding findingLe := ⟨fun _ _ _ => le_trans⟩

/-- The findings of one review, in any order. -/
def Findings.Distinct (findings : List ReviewFinding) : Prop :=
  findings.length ≤ 100 ∧ (findings.map (·.findingId)).Nodup

instance (findings : List ReviewFinding) : Decidable (Findings.Distinct findings) :=
  inferInstanceAs (Decidable (_ ∧ _))

theorem Findings.distinct_nil : Findings.Distinct [] := ⟨Nat.zero_le 100, List.nodup_nil⟩

theorem Findings.Distinct.sorted {findings : List ReviewFinding} (h : Findings.Distinct findings) :
    Findings.Distinct (findings.insertionSort findingLe) :=
  ⟨(List.perm_insertionSort findingLe findings).length_eq ▸ h.1,
    ((List.perm_insertionSort findingLe findings).map _).nodup_iff.mpr h.2⟩

theorem findings_sorted_again (findings : List ReviewFinding) :
    (findings.insertionSort findingLe).insertionSort findingLe = findings.insertionSort findingLe :=
  List.Pairwise.insertionSort_eq (List.pairwise_insertionSort findingLe findings)

/-- Lists of distinct findings in their order. -/
abbrev Findings := {l : List ReviewFinding // Findings.Distinct l ∧ l.insertionSort findingLe = l}

def findingsOf (value : Raw) : Except Str Findings := do
  let items ← value.items
  let parsed ← items.mapM (ReviewFinding.validate other)
  if h : Findings.Distinct parsed then
    return ⟨parsed.insertionSort findingLe, h.sorted, findings_sorted_again parsed⟩
  else .error failed

/-- `validate_decision_rules`. -/
def ReviewDecision.agrees (decision : ReviewDecision) (findings : List ReviewFinding) (missing : List Str) : Bool :=
  match decision with
  | .approve => !(findings.any fun f => f.resolvedAt.isNone && (f.severity == .blocker || f.severity == .major)) &&
      missing.isEmpty
  | .requestChanges => (findings.any fun f => f.resolvedAt.isNone) || !missing.isEmpty
  | .blocked => !missing.isEmpty

/-- `ReviewOutput`. -/
structure ReviewOutput where
  decision : ReviewDecision
  findings : Findings
  testedClaims : Texts
  missingEvidence : Texts
  summary : Summary
  agrees : decision.agrees findings.val missingEvidence.val = true

def reviewKeys : List String := ["decision", "findings", "tested_claims", "missing_evidence", "summary"]

def ReviewOutput.ofFields (field : String → Option Raw) : Except Str ReviewOutput := do
  let findings ← defaulted ⟨[], Findings.distinct_nil, rfl⟩ (field "findings") (findingsOf other)
  let decision ← needed (field "decision") (enumerated ReviewDecision.all ReviewDecision.value)
  let testedClaims ← needed (field "tested_claims") textsOf
  let missingEvidence ← needed (field "missing_evidence") textsOf
  let summary ← needed (field "summary") summaryOf
  if h : decision.agrees findings.val missingEvidence.val = true then
    return ⟨decision, findings, testedClaims, missingEvidence, summary, h⟩
  else .error failed

/-- `_validate_review`. -/
def reviewOf (value : Raw) : Except Str ReviewOutput := do
  let fields ← value.members
  require (fields.within reviewKeys = true) failed
  ReviewOutput.ofFields other fields.field

/-- `ReviewEvidenceManifest`; its schema is always version 1. -/
structure ReviewManifest where
  evidenceSetId : NonNil
  runId : NonNil
  stepId : NonNil
  policyVersion : PolicyVersion
  headSha : Hex 40
  producerExecutionId : NonNil
  validationEvidenceSetId : NonNil
  review : ReviewOutput
  distinct : validationEvidenceSetId ≠ evidenceSetId

def reviewManifestKeys : List String :=
  ["schema_version", "kind", "evidence_set_id", "run_id", "step_id", "policy_version", "head_sha",
    "producer_execution_id", "validation_evidence_set_id", "review"]

def firstSchema (value : Raw) : Except Str Unit := do
  let z ← value.int
  require (z = 1) failed

/-- `ReviewEvidenceManifest.model_validate`. -/
def ReviewManifest.ofFields (field : String → Option Raw) : Except Str ReviewManifest := do
  defaulted () (field "schema_version") firstSchema
  defaulted () (field "kind") (literal "review")
  let evidenceSetId ← needed (field "evidence_set_id") nonNilUuid
  let runId ← needed (field "run_id") nonNilUuid
  let stepId ← needed (field "step_id") nonNilUuid
  let policyVersion ← needed (field "policy_version") policyVersionOf
  let headSha ← needed (field "head_sha") (hex 40)
  let producerExecutionId ← needed (field "producer_execution_id") nonNilUuid
  let validationEvidenceSetId ← needed (field "validation_evidence_set_id") nonNilUuid
  let review ← needed (field "review") (reviewOf other)
  if h : validationEvidenceSetId ≠ evidenceSetId then
    return ⟨evidenceSetId, runId, stepId, policyVersion, headSha, producerExecutionId, validationEvidenceSetId,
      review, h⟩
  else .error failed

end times

end ParallelForge.Evidence
