import ParallelForge.Operation.CanonicalPayload
import ParallelForge.Policy.Paths
import ParallelForge.Base.Uuid
import ParallelForge.Scheduling.Contract

/-!
# Plans and task contracts (`domain/plan.py`, `domain/subscription.py`)

A plan and a task contract are validated separately, each by its own rules. The
contract of an approved plan is the original one with the scope and the checks of
the plan; the constructor of the contract checks all of it once more.
-/

namespace ParallelForge.Delegation.PlanContract
open Base Policy
open Scheduling (SpecialistPurpose RouteBinding isReadOnly)

/-- A refusal; `check` is a message that quotes the name of a check. -/
inductive Refusal
  | text (message : String)
  | check (kind : String) (name : Str)
  deriving DecidableEq, Repr

/-- `_validate_non_blank_text`, which is the same in both modules. -/
def validateNonBlankText (value : Str) (name : String) (maxLength : ℕ) : Except Refusal Str :=
  if isBlank value = true then .error (.text s!"{name} must not be blank")
  else if maxLength < value.length then
    .error (.text s!"{name} exceeds maximum length of {maxLength}")
  else .ok value

/-! ## Plans -/

/-- The loop of `_validate_string_tuple`. -/
def validateItems (name : String) (rejectDuplicates : Bool) (maxLength : ℕ) :
    ℕ → List Str → List Str → Except Refusal (List Str)
  | _, _, [] => .ok []
  | index, seen, item :: rest => do
    let cleaned ← validateNonBlankText item s!"{name}[{index}]" maxLength
    require (rejectDuplicates = true → cleaned ∉ seen)
      (.text s!"{name} must not contain duplicate entries")
    let items ← validateItems name rejectDuplicates maxLength (index + 1) (cleaned :: seen) rest
    return cleaned :: items

/-- `_validate_string_tuple`. -/
def validateStringTuple (name : String) (rejectDuplicates : Bool) (maxItems : ℕ)
    (values : List Str) : Except Refusal (List Str) := do
  require (values.length ≤ maxItems) (.text s!"{name} exceeds maximum count of {maxItems}")
  validateItems name rejectDuplicates 5000 0 [] values

/-- A collection that must have an item. -/
def validateNonempty (name : String) (rejectDuplicates : Bool) (values : List Str) :
    Except Refusal (List Str) := do
  let result ← validateStringTuple name rejectDuplicates 100 values
  require (result ≠ []) (.text s!"{name} must not be empty")
  return result

structure PlanOutput where
  summary : Str
  assumptions : List Str
  affectedComponents : List Str
  steps : List Str
  requiredChecks : List Str
  risks : List Str
  securityConsiderations : List Str
  dependencyChanges : List Str
  deriving DecidableEq, Repr

structure ScopedPlanOutput extends PlanOutput where
  ownedPaths : List Str
  materialQuestions : List Str
  deriving DecidableEq, Repr

/-- The validators of `PlanOutput` (`plan.py:66-155`). -/
def PlanOutput.validate (plan : PlanOutput) : Except Refusal PlanOutput := do
  let summary ← validateNonBlankText plan.summary "summary" 10000
  let assumptions ← validateStringTuple "assumptions" true 100 plan.assumptions
  let affectedComponents ← validateStringTuple "affected_components" true 100 plan.affectedComponents
  let steps ← validateNonempty "steps" false plan.steps
  let requiredChecks ← validateNonempty "required_checks" true plan.requiredChecks
  let risks ← validateNonempty "risks" true plan.risks
  let securityConsiderations ←
    validateStringTuple "security_considerations" true 100 plan.securityConsiderations
  let dependencyChanges ← validateStringTuple "dependency_changes" true 100 plan.dependencyChanges
  return ⟨summary, assumptions, affectedComponents, steps, requiredChecks, risks,
    securityConsiderations, dependencyChanges⟩

/-- `[a-zA-Z0-9_-]`. -/
def isCommandLetter (c : ℕ) : Bool := isAsciiLetter c || Json.isDigit c || c == 95 || c == 45

/-- `_COMMAND_NAME`, and the pattern of `validate_subscription_checks`. -/
def commandName (name : Str) : Bool := name != [] && name.all isCommandLetter

/-- The validators of `ScopedPlanOutput` (`plan.py:158-192`). -/
def ScopedPlanOutput.validate (p : Platform) (plan : ScopedPlanOutput) :
    Except Refusal ScopedPlanOutput := do
  let base ← plan.toPlanOutput.validate
  require (base.requiredChecks.all commandName = true)
    (.text "scoped plan checks must be subscription command identifiers")
  require (plan.ownedPaths.length ≤ 64) (.text "Tuple should have at most 64 items")
  let ownedPaths ← (normalizePolicyPaths p plan.ownedPaths).mapError .text
  let materialQuestions ← validateStringTuple "material_questions" true 20 plan.materialQuestions
  return ⟨base, ownedPaths, materialQuestions⟩

/-! ## Contracts -/

/-- `_freeze_texts`. -/
def freezeTexts (values : List Str) (name : String) (maximum : ℕ) : Except Refusal (List Str) := do
  require (values.length ≤ maximum) (.text s!"{name} exceeds maximum item count of {maximum}")
  values.mapM fun value => validateNonBlankText value name 10000

structure AcceptanceCriterion where
  criterionId : Str
  description : Str
  requiredCheckNames : List Str
  deriving DecidableEq, Repr

/-- `AcceptanceCriterion(...)` with its checks (`subscription.py:838-845`). -/
def AcceptanceCriterion.make (criterionId description : Str) (requiredCheckNames : List Str) :
    Except Refusal AcceptanceCriterion := do
  let criterionId ← validateNonBlankText criterionId "criterion_id" 96
  let description ← validateNonBlankText description "description" 2000
  let checks ← freezeTexts requiredCheckNames "required_check_name" 32
  let checks ← checks.mapM fun check => do
    require (commandName check = true) (Refusal.check "required check" check)
    return check
  return ⟨criterionId, description, checks⟩

structure LogicalTaskContract (Budget : Type) where
  runId : UUID
  taskId : UUID
  purpose : SpecialistPurpose
  route : RouteBinding
  budget : Budget
  parentTaskId : Option UUID
  dependencyTaskIds : List UUID
  ownedPaths : List Str
  typedAcceptance : List AcceptanceCriterion
  namedChecks : List Str
  untrustedContextRefs : List Str
  maxRepairs : ℤ

def validateNonNilUuid (value : UUID) (name : String) : Except Refusal Unit :=
  require (value ≠ 0) (.text s!"{name} must not be nil")

/-- The parent is another task. -/
def validateParent (taskId : UUID) : Option UUID → Except Refusal Unit
  | none => .ok ()
  | some parent => do
    validateNonNilUuid parent "parent_task_id"
    require (parent ≠ taskId) (.text "task cannot be its own parent")

def validateDependency (taskId dep : UUID) : Except Refusal UUID := do
  validateNonNilUuid dep "dependency_task_id"
  require (dep ≠ taskId) (.text "task cannot depend on itself")
  return dep

/-- `named_checks`: a command name has no shell syntax, but both are tested. -/
def validateNamedCheck (check : Str) : Except Refusal Str := do
  let check ← validateNonBlankText check "named_check" 10000
  require (check.any isShellMeta = false ∧ commandName check = true)
    (Refusal.check "named check" check)
  return check

/-- The text `purpose.value`. -/
def purposeValue : SpecialistPurpose → String
  | .primary => "primary"
  | .routineImplementation => "routine_implementation"
  | .complexImplementation => "complex_implementation"
  | .independentReview => "independent_review"
  | .planning => "planning"
  | .exploration => "exploration"
  | .security => "security"
  | .integration => "integration"
  | .verification => "verification"

section
variable {Budget : Type} (p : Platform) (isAlnum : ℕ → Bool)

/-- `LogicalTaskContract.__post_init__` (`subscription.py:866-919`). -/
def LogicalTaskContract.validate (c : LogicalTaskContract Budget) :
    Except Refusal (LogicalTaskContract Budget) := do
  validateNonNilUuid c.runId "run_id"
  validateNonNilUuid c.taskId "task_id"
  validateParent c.taskId c.parentTaskId
  require (c.purpose = .primary → c.route.requested = c.route.effective)
    (.text "primary route substitution is prohibited")
  require (0 ≤ c.maxRepairs) (.text "max_repairs must be a nonnegative integer")
  let deps ← c.dependencyTaskIds.mapM (validateDependency c.taskId)
  require deps.Nodup (.text "dependency_task_ids must not contain duplicates")
  let normalizedPaths ← (normalizePolicyPaths p c.ownedPaths).mapError .text
  require ((isReadOnly c.purpose && !normalizedPaths.isEmpty) = false)
    (.text s!"read-only specialist {purposeValue c.purpose} cannot own writable paths")
  let checks ← c.namedChecks.mapM validateNamedCheck
  (Operation.validateDurablePayload isAlnum (.list (c.untrustedContextRefs.map .str))).mapError .text
  require (c.typedAcceptance.length ≤ 64)
    (.text "typed_acceptance exceeds maximum item count of 64")
  require (c.typedAcceptance.map (·.criterionId)).Nodup
    (.text "typed_acceptance must not contain duplicate criterion IDs")
  return { c with
    dependencyTaskIds := deps
    ownedPaths := normalizedPaths
    namedChecks := checks }

/-! ## The contract of an approved plan -/

/-- What was approved: a plan with an explicit scope, or one from before there was one. -/
inductive ApprovedPlan
  | legacy (plan : PlanOutput)
  | scoped (plan : ScopedPlanOutput)

def ApprovedPlan.output : ApprovedPlan → PlanOutput
  | .legacy plan => plan
  | .scoped plan => plan.toPlanOutput

def ApprovedPlan.paths (original : LogicalTaskContract Budget) : ApprovedPlan → List Str
  | .legacy _ => original.ownedPaths
  | .scoped plan => plan.ownedPaths

/-- A lowercase SHA-256 digest, as the gate keeps it. -/
structure Digest where
  text : Str
  hex : (text.length == 64 && text.all fun c => Json.isDigit c || (97 ≤ c && c ≤ 102)) = true

def criterionId (index : ℕ) : Str :=
  if index = 0 then codes "approved-implementation"
  else codes "approved-implementation-" ++ Json.decimal (index + 1)

def criterionDescription : Str :=
  codes ("Implement the approved plan outcomes within the approved scope " ++
    "and provide required validation evidence.")

/-- One criterion for each 32 checks. -/
def approvedCriterion (requiredChecks : List Str) (index : ℕ) : Except Refusal AcceptanceCriterion :=
  AcceptanceCriterion.make (criterionId index) criterionDescription
    ((requiredChecks.take ((index + 1) * 32)).drop (index * 32))

def planReference (planAttemptId : UUID) (planDigest : Digest) (approvalId : UUID) : Str :=
  codes "approved-plan:" ++ uuidText planAttemptId ++ codes ":" ++ planDigest.text ++ codes ":" ++
    uuidText approvalId

/-- `approved_implementation_contract` (`subscription_plan_contract.py:10-44`). -/
def approvedImplementationContract (original : LogicalTaskContract Budget) (plan : ApprovedPlan)
    (planAttemptId : UUID) (planDigest : Digest) (approvalId : UUID) :
    Except Refusal (LogicalTaskContract Budget) := do
  let requiredChecks := plan.output.requiredChecks
  let typedAcceptance ←
    (List.range ((requiredChecks.length + 31) / 32)).mapM (approvedCriterion requiredChecks)
  LogicalTaskContract.validate p isAlnum { original with
    ownedPaths := plan.paths original
    namedChecks := requiredChecks
    typedAcceptance := typedAcceptance
    untrustedContextRefs :=
      original.untrustedContextRefs ++ [planReference planAttemptId planDigest approvalId] }

end

end ParallelForge.Delegation.PlanContract
