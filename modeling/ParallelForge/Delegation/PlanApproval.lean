import ParallelForge.Base.RegexAbsence
import ParallelForge.Delegation.PlanContract
import ParallelForge.Operation.Fingerprint

/-!
# Approved plans have a contract

What the validators of a plan accept, the constructors of the contract accept too:
the names of the checks are command names, at most a hundred of them make at most
four criteria, and the reference to the approval cannot look like a credential.
-/

namespace ParallelForge.Delegation.PlanContract
open Base Policy
open Scheduling (SpecialistPurpose RouteBinding isReadOnly)

/-! ## What the validators accept -/

theorem validateNonBlankText_eq_ok (value v : Str) (name : String) (maxLength : ℕ) :
    validateNonBlankText value name maxLength = .ok v ↔
      isBlank value = false ∧ value.length ≤ maxLength ∧ v = value := by
  unfold validateNonBlankText
  split
  · next hblank => simp [hblank]
  · next hblank =>
    split
    · next hlong => simp [Nat.not_le.mpr hlong]
    · next hlong => simp [Bool.eq_false_iff.mpr hblank, Nat.not_lt.mp hlong, eq_comm]

theorem validateItems_eq_ok (name : String) (rejectDuplicates : Bool) (maxLength index : ℕ)
    (seen values items : List Str)
    (h : validateItems name rejectDuplicates maxLength index seen values = .ok items) :
    items = values ∧ ∀ v ∈ values, isBlank v = false ∧ v.length ≤ maxLength := by
  induction values generalizing index seen items with
  | nil =>
    cases h
    exact ⟨rfl, by simp⟩
  | cons value rest ih =>
    rw [validateItems, bind_eq_ok] at h
    obtain ⟨cleaned, hcleaned, h⟩ := h
    rw [validateNonBlankText_eq_ok] at hcleaned
    obtain ⟨hblank, hlength, rfl⟩ := hcleaned
    rw [require_bind_eq_ok] at h
    obtain ⟨-, h⟩ := h
    rw [bind_eq_ok] at h
    obtain ⟨others, hothers, h⟩ := h
    cases h
    obtain ⟨rfl, hrest⟩ := ih (index + 1) _ others hothers
    refine ⟨rfl, ?_⟩
    intro v hv
    rcases List.mem_cons.mp hv with rfl | hv
    · exact ⟨hblank, hlength⟩
    · exact hrest v hv

/-- What is known of the checks of an accepted plan with a scope. -/
structure PlanAccepted (p : Platform) (plan : ScopedPlanOutput) : Prop where
  count : plan.requiredChecks.length ≤ 100
  nonblank : ∀ check ∈ plan.requiredChecks, isBlank check = false
  short : ∀ check ∈ plan.requiredChecks, check.length ≤ 5000
  command : ∀ check ∈ plan.requiredChecks, commandName check = true
  paths : normalizePolicyPaths p plan.ownedPaths = .ok plan.ownedPaths

theorem validateNonempty_eq_ok (name : String) (rejectDuplicates : Bool) (values result : List Str)
    (h : validateNonempty name rejectDuplicates values = .ok result) :
    result.length ≤ 100 ∧ ∀ v ∈ result, isBlank v = false ∧ v.length ≤ 5000 := by
  rw [validateNonempty, bind_eq_ok] at h
  obtain ⟨items, hitems, h⟩ := h
  rw [require_bind_eq_ok] at h
  cases h.2
  rw [validateStringTuple, require_bind_eq_ok] at hitems
  obtain ⟨rfl, hall⟩ := validateItems_eq_ok _ _ _ _ _ _ _ hitems.2
  exact ⟨hitems.1, hall⟩

theorem plan_accepted (p : Platform) (fields plan : ScopedPlanOutput)
    (h : fields.validate p = .ok plan) : PlanAccepted p plan := by
  rw [ScopedPlanOutput.validate, bind_eq_ok] at h
  obtain ⟨base, hbase, h⟩ := h
  rw [require_bind_eq_ok] at h
  obtain ⟨hcommand, h⟩ := h
  rw [require_bind_eq_ok] at h
  obtain ⟨-, h⟩ := h
  rw [bind_eq_ok] at h
  obtain ⟨paths, hpaths, h⟩ := h
  rw [bind_eq_ok] at h
  obtain ⟨questions, -, h⟩ := h
  cases h
  simp only [PlanOutput.validate, bind_eq_ok] at hbase
  obtain ⟨summary, -, assumptions, -, components, -, steps, -, checks, hchecks, risks, -, security, -,
    dependencies, -, hbase⟩ := hbase
  cases hbase
  obtain ⟨hcount, hall⟩ := validateNonempty_eq_ok _ _ _ _ hchecks
  constructor
  case count => exact hcount
  case nonblank => exact fun check hcheck => (hall check hcheck).1
  case short => exact fun check hcheck => (hall check hcheck).2
  case command => exact List.all_eq_true.mp hcommand
  case paths => exact normalizePolicyPaths_again _ _ ((mapError_eq_ok _ _ _).mp hpaths)

/-! ## What the constructor of a contract accepts -/

variable {Budget : Type} {p : Platform} {isAlnum : ℕ → Bool}

structure ContractValid (p : Platform) (isAlnum : ℕ → Bool) (c : LogicalTaskContract Budget) : Prop where
  runId : c.runId ≠ 0
  taskId : c.taskId ≠ 0
  parent : validateParent c.taskId c.parentTaskId = .ok ()
  route : c.purpose = .primary → c.route.requested = c.route.effective
  repairs : 0 ≤ c.maxRepairs
  dependencies : ∀ dep ∈ c.dependencyTaskIds, validateDependency c.taskId dep = .ok dep
  distinct : c.dependencyTaskIds.Nodup
  paths : normalizePolicyPaths p c.ownedPaths = .ok c.ownedPaths
  readOnly : (isReadOnly c.purpose && !c.ownedPaths.isEmpty) = false
  checks : ∀ check ∈ c.namedChecks, validateNamedCheck check = .ok check
  references : ∀ ref ∈ c.untrustedContextRefs, Operation.containsCredential isAlnum ref = false
  criteria : c.typedAcceptance.length ≤ 64
  criterionIds : (c.typedAcceptance.map (·.criterionId)).Nodup

/- A loop whose turns give back what they are given. -/
theorem mapM_self {α ε : Type} (f : α → Except ε α) (hf : ∀ a b, f a = .ok b → b = a) (l l' : List α) :
    l.mapM f = .ok l' ↔ l' = l ∧ ∀ a ∈ l, f a = .ok a := by
  rw [mapM_eq_ok]
  constructor
  · intro h
    induction h with
    | nil => exact ⟨rfl, by simp⟩
    | @cons a b l l' hab _ ih =>
      obtain ⟨rfl, hall⟩ := ih
      have heq := hf a b hab
      refine ⟨by rw [heq], ?_⟩
      intro c hc
      rcases List.mem_cons.mp hc with rfl | hc
      · rw [heq] at hab
        exact hab
      · exact hall c hc
  · rintro ⟨rfl, hall⟩
    exact List.forall₂_same.mpr hall

theorem validateDependency_self (taskId dep b : UUID) (h : validateDependency taskId dep = .ok b) :
    b = dep := by
  rw [validateDependency, bind_eq_ok] at h
  obtain ⟨-, -, h⟩ := h
  rw [require_bind_eq_ok] at h
  cases h.2
  rfl

theorem validateNamedCheck_eq_ok (check b : Str) : validateNamedCheck check = .ok b ↔
    b = check ∧ isBlank check = false ∧ check.length ≤ 10000 ∧ check.any isShellMeta = false ∧
      commandName check = true := by
  rw [validateNamedCheck, bind_eq_ok]
  constructor
  · rintro ⟨cleaned, hcleaned, h⟩
    rw [validateNonBlankText_eq_ok] at hcleaned
    obtain ⟨hblank, hlength, rfl⟩ := hcleaned
    rw [require_bind_eq_ok] at h
    cases h.2
    exact ⟨rfl, hblank, hlength, h.1⟩
  · rintro ⟨rfl, hblank, hlength, hcommand⟩
    refine ⟨b, (validateNonBlankText_eq_ok _ _ _ _).mpr ⟨hblank, hlength, rfl⟩, ?_⟩
    rw [require_bind_eq_ok]
    exact ⟨hcommand, rfl⟩

theorem validateRefs (refs : List Str) :
    Operation.validateDurablePayload isAlnum (.list (refs.map .str)) = .ok () ↔
      ∀ ref ∈ refs, Operation.containsCredential isAlnum ref = false := by
  rw [Operation.validateDurablePayload, Operation.validateItems_eq_ok, List.forall_mem_map]
  simp only [Operation.validateDurablePayload, require_eq_ok]

theorem validate_eq_ok (c c' : LogicalTaskContract Budget) :
    c.validate p isAlnum = .ok c' ↔ ContractValid p isAlnum c ∧ c' = c := by
  have hmap := mapM_self (validateDependency c.taskId) (validateDependency_self c.taskId)
    c.dependencyTaskIds
  have hchecks := mapM_self validateNamedCheck
    (fun a b h => ((validateNamedCheck_eq_ok a b).mp h).1) c.namedChecks
  simp only [LogicalTaskContract.validate, validateNonNilUuid, bind_unit_eq_ok, require_eq_ok]
  constructor
  · rintro ⟨hrun, htask, hparent, hroute, hrepairs, h⟩
    rw [bind_eq_ok] at h
    obtain ⟨deps, hdeps, h⟩ := h
    obtain ⟨rfl, hall⟩ := (hmap deps).mp hdeps
    rw [require_bind_eq_ok, bind_eq_ok] at h
    obtain ⟨hnodup, paths, hpaths, h⟩ := h
    rw [mapError_eq_ok] at hpaths
    obtain rfl := collectPolicyPaths_eq _ _ _ hpaths
    rw [require_bind_eq_ok, bind_eq_ok] at h
    obtain ⟨hread, checks, hc, h⟩ := h
    obtain ⟨rfl, hnamed⟩ := (hchecks checks).mp hc
    rw [bind_unit_eq_ok, mapError_eq_ok, validateRefs] at h
    obtain ⟨hrefs, h⟩ := h
    rw [require_bind_eq_ok, require_bind_eq_ok] at h
    obtain ⟨hcount, hids, h⟩ := h
    cases h
    exact ⟨⟨hrun, htask, hparent, hroute, hrepairs, hall, hnodup, hpaths, hread, hnamed, hrefs, hcount,
      hids⟩, rfl⟩
  · rintro ⟨h, rfl⟩
    refine ⟨h.runId, h.taskId, h.parent, h.route, h.repairs, ?_⟩
    rw [(hmap _).mpr ⟨rfl, h.dependencies⟩]
    change (require _ _ >>= _) = _
    rw [require_bind_eq_ok, h.paths, (hchecks _).mpr ⟨rfl, h.checks⟩]
    refine ⟨h.distinct, ?_⟩
    change (require _ _ >>= _) = _
    rw [require_bind_eq_ok]
    refine ⟨h.readOnly, ?_⟩
    change (Except.mapError _ _ >>= _) = _
    rw [bind_unit_eq_ok, mapError_eq_ok, validateRefs, require_bind_eq_ok, require_bind_eq_ok]
    exact ⟨h.references, h.criteria, h.criterionIds, rfl⟩

/-! ## Command names -/

theorem isCommandLetter_iff (c : ℕ) : isCommandLetter c = true ↔
    (65 ≤ c ∧ c ≤ 90) ∨ (97 ≤ c ∧ c ≤ 122) ∨ (48 ≤ c ∧ c ≤ 57) ∨ c = 95 ∨ c = 45 := by
  simp [isCommandLetter, isAsciiLetter, Json.isDigit, or_assoc]

theorem isShellMeta_iff (c : ℕ) : isShellMeta c = true ↔
    c ∈ [13, 10, 59, 38, 124, 36, 96, 40, 41, 60, 62] := by
  rw [← List.contains_iff_mem]
  rfl

/- No letter of a command name is shell syntax. -/
theorem commandName_plain (name : Str) (h : commandName name = true) :
    name.any isShellMeta = false := by
  rw [commandName, Bool.and_eq_true, List.all_eq_true] at h
  rw [List.any_eq_false]
  intro c hc hmeta
  rw [isShellMeta_iff] at hmeta
  have hletter := (isCommandLetter_iff c).mp (h.2 c hc)
  simp only [List.mem_cons, List.not_mem_nil, or_false] at hmeta
  omega

theorem namedCheck_ok (plan : ScopedPlanOutput) (h : PlanAccepted p plan) :
    ∀ check ∈ plan.requiredChecks, validateNamedCheck check = .ok check := by
  intro check hcheck
  have hlength := h.short check hcheck
  have hcommand := h.command check hcheck
  exact (validateNamedCheck_eq_ok check check).mpr
    ⟨rfl, h.nonblank check hcheck, by omega, commandName_plain check hcommand, hcommand⟩

/-! ## The criteria -/

theorem criterionId_injective : Function.Injective criterionId := by
  have hlong : ∀ n : ℕ, codes "approved-implementation" ≠
      codes "approved-implementation-" ++ Json.decimal n := by
    intro n h
    have hlength := congrArg List.length h
    rw [List.length_append] at hlength
    have h23 : (codes "approved-implementation").length = 23 := by decide
    have h24 : (codes "approved-implementation-").length = 24 := by decide
    omega
  intro i j h
  unfold criterionId at h
  split at h
  · next hi =>
    split at h
    · next hj => rw [hi, hj]
    · exact absurd h (hlong _)
  · split at h
    · exact absurd h.symm (hlong _)
    · have hdecimal := congrArg Json.readDecimal (List.append_cancel_left h)
      rw [Json.readDecimal_decimal, Json.readDecimal_decimal] at hdecimal
      omega

theorem criterionId_fits (i : ℕ) (hi : i < 4) :
    isBlank (criterionId i) = false ∧ (criterionId i).length ≤ 96 := by
  have hall : ∀ i < 4, isBlank (criterionId i) = false ∧ (criterionId i).length ≤ 96 := by decide
  exact hall i hi

/-- The criterion of an index, as built. -/
def builtCriterion (requiredChecks : List Str) (index : ℕ) : AcceptanceCriterion :=
  ⟨criterionId index, criterionDescription,
    (requiredChecks.take ((index + 1) * 32)).drop (index * 32)⟩

theorem freezeTexts_self (values : List Str) (name : String) (maximum : ℕ)
    (hcount : values.length ≤ maximum)
    (h : ∀ v ∈ values, isBlank v = false ∧ v.length ≤ 10000) :
    freezeTexts values name maximum = .ok values := by
  rw [freezeTexts, require_bind_eq_ok, mapM_eq_ok, List.forall₂_same]
  refine ⟨hcount, ?_⟩
  intro v hv
  rw [validateNonBlankText_eq_ok]
  exact ⟨(h v hv).1, (h v hv).2, rfl⟩

theorem approvedCriterion_ok (plan : ScopedPlanOutput) (h : PlanAccepted p plan) (index : ℕ)
    (hindex : index < 4) :
    approvedCriterion plan.requiredChecks index = .ok (builtCriterion plan.requiredChecks index) := by
  have hmem : ∀ check ∈ (plan.requiredChecks.take ((index + 1) * 32)).drop (index * 32),
      check ∈ plan.requiredChecks := fun check hcheck =>
    List.mem_of_mem_take (List.mem_of_mem_drop hcheck)
  have hcount : ((plan.requiredChecks.take ((index + 1) * 32)).drop (index * 32)).length ≤ 32 := by
    rw [List.length_drop, List.length_take]
    omega
  obtain ⟨hblank, hlength⟩ := criterionId_fits index hindex
  have hdescription : isBlank criterionDescription = false ∧ criterionDescription.length ≤ 2000 := by
    decide
  rw [approvedCriterion, AcceptanceCriterion.make, bind_eq_ok]
  refine ⟨_, (validateNonBlankText_eq_ok _ _ _ _).mpr ⟨hblank, hlength, rfl⟩, ?_⟩
  rw [bind_eq_ok]
  refine ⟨_, (validateNonBlankText_eq_ok _ _ _ _).mpr ⟨hdescription.1, hdescription.2, rfl⟩, ?_⟩
  rw [bind_eq_ok]
  refine ⟨_, freezeTexts_self _ _ _ hcount ?_, ?_⟩
  · intro check hcheck
    have hshort := h.short check (hmem check hcheck)
    exact ⟨h.nonblank check (hmem check hcheck), by omega⟩
  rw [bind_eq_ok]
  refine ⟨_, (mapM_eq_ok _ _ _).mpr (List.forall₂_same.mpr ?_), rfl⟩
  intro check hcheck
  rw [require_bind_eq_ok]
  exact ⟨h.command check (hmem check hcheck), rfl⟩

/- The chunks of a list, in order, are its beginning. -/
theorem chunks_take {α : Type} (l : List α) (width n : ℕ) :
    ((List.range n).flatMap fun i => (l.take ((i + 1) * width)).drop (i * width)) =
      l.take (n * width) := by
  induction n with
  | zero => simp
  | succ n ih =>
    have hle : n * width ≤ (n + 1) * width := Nat.mul_le_mul_right width (Nat.le_succ n)
    have hcut : l.take (n * width) = (l.take ((n + 1) * width)).take (n * width) := by
      rw [List.take_take, Nat.min_eq_left hle]
    rw [List.range_succ, List.flatMap_append, ih, List.flatMap_singleton, hcut, List.take_append_drop]

theorem mapM_map {α β ε : Type} (f : α → Except ε β) (g : α → β) (l : List α)
    (h : ∀ a ∈ l, f a = .ok (g a)) : l.mapM f = .ok (l.map g) := by
  rw [mapM_eq_ok, List.forall₂_map_right_iff, List.forall₂_same]
  exact h

/-! ## The reference -/

/-- The letters of a reference. -/
def referenceLetters : Str := codes "approved-plan:0123456789abcdef"

theorem reference_clean (text : Str) (h : ∀ c ∈ text, c ∈ referenceLetters) :
    Operation.containsCredential isAlnum text = false := by
  have hall : ∀ pattern ∈ Redaction.patterns isAlnum, Regex.barred referenceLetters pattern = true := by
    simp only [Redaction.patterns, List.forall_mem_cons, List.not_mem_nil, false_imp_iff, implies_true,
      and_true]
    exact ⟨rfl, rfl, rfl, rfl, rfl⟩
  rw [Operation.containsCredential, List.any_eq_false]
  intro pattern hpattern
  rw [Regex.finditer_barred h pattern (hall pattern hpattern)]
  simp

theorem hexDigit_letter (d : ℕ) (h : d < 16) : hexDigit d ∈ referenceLetters := by
  have hall : ∀ d < 16, hexDigit d ∈ referenceLetters := by decide
  exact hall d h

theorem hexText_letters (id : UUID) : ∀ c ∈ hexText id, c ∈ referenceLetters := by
  intro c hc
  rw [hexText, List.mem_append, List.mem_map] at hc
  rcases hc with hc | ⟨d, hd, rfl⟩
  · rw [List.eq_of_mem_replicate hc]
    decide
  · exact hexDigit_letter d (Nat.digits_lt_base (by omega) (List.mem_reverse.mp hd))

theorem uuidText_letters (id : UUID) : ∀ c ∈ uuidText id, c ∈ referenceLetters := by
  have hhex := hexText_letters id
  have hhyphen : 45 ∈ referenceLetters := by decide
  intro c hc
  simp only [uuidText, List.mem_append, List.mem_singleton] at hc
  rcases hc with ((((((((hc | rfl) | hc) | rfl) | hc) | rfl) | hc) | rfl) | hc)
  · exact hhex c (List.mem_of_mem_take hc)
  · exact hhyphen
  · exact hhex c (List.mem_of_mem_drop (List.mem_of_mem_take hc))
  · exact hhyphen
  · exact hhex c (List.mem_of_mem_drop (List.mem_of_mem_take hc))
  · exact hhyphen
  · exact hhex c (List.mem_of_mem_drop (List.mem_of_mem_take hc))
  · exact hhyphen
  · exact hhex c (List.mem_of_mem_drop hc)

theorem digest_letters (d : Digest) : ∀ c ∈ d.text, c ∈ referenceLetters := by
  have hall : ∀ c < 103, (48 ≤ c ∧ c ≤ 57) ∨ (97 ≤ c ∧ c ≤ 102) → c ∈ referenceLetters := by decide
  have hhex := d.hex
  simp only [Bool.and_eq_true, List.all_eq_true, Json.isDigit, Bool.or_eq_true, decide_eq_true_eq] at hhex
  intro c hc
  have hletter := hhex.2 c hc
  exact hall c (by omega) hletter

theorem planReference_clean (planAttemptId : UUID) (planDigest : Digest) (approvalId : UUID) :
    Operation.containsCredential isAlnum (planReference planAttemptId planDigest approvalId) = false := by
  apply reference_clean
  have hlead : ∀ c ∈ codes "approved-plan:", c ∈ referenceLetters := by decide
  have hcolon : ∀ c ∈ codes ":", c ∈ referenceLetters := by decide
  intro c hc
  simp only [planReference, List.mem_append] at hc
  rcases hc with ((((hc | hc) | hc) | hc) | hc) | hc
  · exact hlead c hc
  · exact uuidText_letters planAttemptId c hc
  · exact hcolon c hc
  · exact digest_letters planDigest c hc
  · exact hcolon c hc
  · exact uuidText_letters approvalId c hc

/-! ## The contract -/

/-- Every accepted plan with a scope, approved for a primary task, has a contract: its
criteria carry the checks of the plan in their order, each under its own id. -/
theorem approved_plan_representable (raw original : LogicalTaskContract Budget)
    (hraw : raw.validate p isAlnum = .ok original) (hprimary : original.purpose = .primary)
    (fields plan : ScopedPlanOutput) (hplan : fields.validate p = .ok plan) (planAttemptId : UUID)
    (planDigest : Digest) (approvalId : UUID) :
    ∃ contract, approvedImplementationContract p isAlnum original (.scoped plan) planAttemptId planDigest
        approvalId = .ok contract ∧
      contract.typedAcceptance.flatMap (·.requiredCheckNames) = plan.requiredChecks ∧
      (contract.typedAcceptance.map (·.criterionId)).Nodup := by
  obtain ⟨horiginal, rfl⟩ := (validate_eq_ok raw original).mp hraw
  have haccepted := plan_accepted p fields plan hplan
  have hcount := haccepted.count
  have hcriteria : (List.range ((plan.requiredChecks.length + 31) / 32)).mapM
      (approvedCriterion plan.requiredChecks) =
      .ok ((List.range ((plan.requiredChecks.length + 31) / 32)).map
        (builtCriterion plan.requiredChecks)) := by
    apply mapM_map
    intro index hindex
    rw [List.mem_range] at hindex
    exact approvedCriterion_ok plan haccepted index (by omega)
  have hids : (((List.range ((plan.requiredChecks.length + 31) / 32)).map
      (builtCriterion plan.requiredChecks)).map (·.criterionId)).Nodup := by
    rw [List.map_map]
    exact List.nodup_range.map criterionId_injective
  rw [approvedImplementationContract]
  simp only [ApprovedPlan.output, ApprovedPlan.paths]
  refine ⟨_, (bind_eq_ok _ _ _).mpr ⟨_, hcriteria, (validate_eq_ok _ _).mpr ⟨?_, rfl⟩⟩, ?_, hids⟩
  · constructor
    case runId => exact horiginal.runId
    case taskId => exact horiginal.taskId
    case parent => exact horiginal.parent
    case route => exact horiginal.route
    case repairs => exact horiginal.repairs
    case dependencies => exact horiginal.dependencies
    case distinct => exact horiginal.distinct
    case paths => exact haccepted.paths
    case readOnly =>
      rw [hprimary]
      rfl
    case checks => exact namedCheck_ok plan haccepted
    case references =>
      intro ref href
      rcases List.mem_append.mp href with hold | hnew
      · exact horiginal.references ref hold
      · rw [List.mem_singleton.mp hnew]
        exact planReference_clean planAttemptId planDigest approvalId
    case criteria =>
      rw [List.length_map, List.length_range]
      omega
    case criterionIds => exact hids
  · rw [List.flatMap_map]
    have hchunks := chunks_take plan.requiredChecks 32 ((plan.requiredChecks.length + 31) / 32)
    rw [List.take_of_length_le (by omega)] at hchunks
    exact hchunks

def sampleRoute : Scheduling.RouteSpec := ⟨"openai", "codex", "gpt-5", .medium, .subscription, .allowanceOnly⟩

def samplePrimary : LogicalTaskContract Unit where
  runId := 1
  taskId := 2
  purpose := .primary
  route := ⟨sampleRoute, sampleRoute, none, true⟩
  budget := ()
  parentTaskId := none
  dependencyTaskIds := []
  ownedPaths := [codes "src"]
  typedAcceptance := []
  namedChecks := [codes "lint"]
  untrustedContextRefs := [codes "issue:7"]
  maxRepairs := 3

def samplePlan : ScopedPlanOutput where
  summary := codes "Split the parser"
  assumptions := []
  affectedComponents := []
  steps := [codes "Move the lexer"]
  requiredChecks := (List.range 33).map fun i => codes "unit-" ++ [97 + i / 26, 97 + i % 26]
  risks := [codes "None known"]
  securityConsiderations := []
  dependencyChanges := []
  ownedPaths := [codes "src/parser"]
  materialQuestions := []

def sampleDigest : Digest := ⟨List.replicate 64 97, rfl⟩

def asciiAlnum (c : ℕ) : Bool := isAsciiLetter c || Json.isDigit c

/- Thirty-three checks make two criteria. -/
theorem approved_plan_representable_sample :
    ∃ contract, approvedImplementationContract ⟨false, casefold⟩ asciiAlnum samplePrimary
        (.scoped samplePlan) 3 sampleDigest 4 = .ok contract ∧
      contract.typedAcceptance.flatMap (·.requiredCheckNames) = samplePlan.requiredChecks ∧
      (contract.typedAcceptance.map (·.criterionId)).Nodup :=
  approved_plan_representable samplePrimary samplePrimary rfl rfl samplePlan samplePlan rfl 3 sampleDigest 4

end ParallelForge.Delegation.PlanContract
