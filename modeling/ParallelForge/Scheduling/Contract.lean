import ParallelForge.Base.Text
import ParallelForge.Run.Snapshot

/-!
# Task contracts and routes (`domain/subscription.py`, `domain/subscription_quota.py`)

The parts of a logical task contract the scheduler reads: its place in the
task tree, its purpose, its paths, and the route a claim may substitute.
-/

namespace ParallelForge.Scheduling
open Base Run

inductive SpecialistPurpose
  | primary
  | routineImplementation
  | complexImplementation
  | independentReview
  | planning
  | exploration
  | security
  | integration
  | verification
  deriving DecidableEq, Repr

/-- `is_read_only`. -/
def isReadOnly (purpose : SpecialistPurpose) : Bool :=
  purpose == .independentReview || purpose == .planning || purpose == .security

inductive ToolName
  | repositoryListFiles
  | repositoryReadFile
  | repositorySearch
  | repositorySearchSemantic
  | repositoryReadInstructions
  | repositoryWriteFile
  | repositoryDeleteFile
  | repositoryRenameFile
  | gitStatus
  | gitDiff
  | gitCommit
  | buildRunNamedCheck
  | validationResultsRead
  | reviewArtifactsRead
  deriving DecidableEq, Repr

/-- `CANDIDATE_READ_TOOLS`. -/
def candidateReadTools : List ToolName :=
  [.repositoryListFiles, .repositoryReadFile, .repositorySearch, .repositorySearchSemantic,
    .repositoryReadInstructions, .gitStatus, .gitDiff, .validationResultsRead,
    .reviewArtifactsRead]

inductive ReasoningEffort
  | none
  | low
  | medium
  | high
  | maximum
  deriving DecidableEq, Repr

inductive AuthMode
  | subscription
  | apiKey
  deriving DecidableEq, Repr

inductive BillingMode
  | allowanceOnly
  | paidOptIn
  deriving DecidableEq, Repr

structure RouteSpec where
  provider : String
  client : String
  model : String
  effort : ReasoningEffort
  authMode : AuthMode
  billingMode : BillingMode
  deriving DecidableEq, Repr

structure RouteMapping where
  requested : RouteSpec
  effective : RouteSpec
  approvedBy : String
  approvalId : String
  reason : String
  deriving DecidableEq, Repr

structure RouteBinding where
  requested : RouteSpec
  effective : RouteSpec
  mappingApplied : Option RouteMapping
  isPrimary : Bool
  deriving DecidableEq, Repr

/-- The frozen per-run envelope: the bound route and the allowed fallbacks of
each purpose. `profileLabel` is the text of its `profile_id`. -/
structure ExecutionEnvelope where
  runId : UUID
  profileLabel : String
  profileVersion : ℕ
  routes : List (SpecialistPurpose × RouteBinding)
  allowedFallbacks : List (SpecialistPurpose × List RouteSpec)
  deriving DecidableEq, Repr

def ExecutionEnvelope.routeFor (e : ExecutionEnvelope) (purpose : SpecialistPurpose) :
    Option RouteBinding := e.routes.lookup purpose

def ExecutionEnvelope.fallbacksFor (e : ExecutionEnvelope) (purpose : SpecialistPurpose) :
    List RouteSpec := (e.allowedFallbacks.lookup purpose).getD []

structure LogicalTaskContract where
  runId : UUID
  taskId : UUID
  purpose : SpecialistPurpose
  route : RouteBinding
  parentTaskId : Option UUID
  dependencyTaskIds : List UUID
  ownedPaths : List String
  acceptanceIds : List String
  maxRepairs : ℕ
  deriving DecidableEq, Repr

/-- `is_approved_plan_primary_contract`. -/
def isApprovedPlanPrimaryContract (c : LogicalTaskContract) : Bool :=
  c.purpose == .primary && c.acceptanceIds.contains "approved-plan"

inductive CandidateKind
  | current
  | preferred
  | fallback
  deriving DecidableEq, Repr

/-- `task_candidate_routes` (`domain/subscription_quota.py:117-144`). -/
def taskCandidateRoutes (c : LogicalTaskContract) (envelope : Option ExecutionEnvelope) :
    List (RouteSpec × CandidateKind) :=
  let current := (c.route.effective, CandidateKind.current)
  if c.purpose = .primary ∨ c.route.isPrimary = true then [current]
  else match envelope.bind fun e => (e.routeFor c.purpose).map fun p => (e, p) with
    | none => [current]
    | some (e, preferred) =>
      if c.route.requested ≠ preferred.requested then [current]
      else
        let usable := (preferred.effective :: e.fallbacksFor c.purpose).filter fun r =>
          r.billingMode == c.route.effective.billingMode && r.authMode == c.route.effective.authMode
        current :: usable.map fun r =>
          (r, if r = preferred.effective then .preferred else .fallback)

/-- `route_for_task` (`subscription_quota.py:309-354`); `available` says which
routes the runtime has, `eligible` which the quota pools allow. -/
def routeForTask (c : LogicalTaskContract) (envelope : Option ExecutionEnvelope)
    (available eligible : RouteSpec → Bool) : Option RouteBinding :=
  if available c.route.effective && eligible c.route.effective then some c.route
  else if c.purpose = .primary ∨ c.route.isPrimary = true then none
  else match envelope with
    | none => none
    | some e =>
      match (taskCandidateRoutes c envelope).tail.find? fun r => available r.1 && eligible r.1 with
      | none => none
      | some (_, .preferred) => e.routeFor c.purpose
      | some (route, _) =>
        let mapping : RouteMapping :=
          { requested := c.route.requested
            effective := route
            approvedBy := "profile:" ++ e.profileLabel
            approvalId := "profile:" ++ e.profileLabel ++ ":version:" ++ toString e.profileVersion
            reason := if available c.route.effective then
                "Confirmed quota exhaustion; frozen specialist fallback"
              else "Runtime route unavailable; frozen specialist fallback" }
        some { c.route with effective := route, mappingApplied := some mapping }

/- A primary task keeps its route. -/
theorem routeForTask_primary (c : LogicalTaskContract) (envelope : Option ExecutionEnvelope)
    (available eligible : RouteSpec → Bool) (r : RouteBinding) (hp : c.purpose = .primary)
    (h : routeForTask c envelope available eligible = some r) : r = c.route := by
  unfold routeForTask at h
  split at h
  · exact (Option.some.inj h).symm
  · rw [if_pos (Or.inl hp)] at h
    cases h

/-- `run_allows_subscription_attempt`: no pending gate and not in a state that
waits or has ended. -/
def runAllowsSubscriptionAttempt (state : RunState) (pendingGate : Option ApprovalGate) : Bool :=
  pendingGate.isNone && !(state == .paused || isTerminalState state || isApprovalState state
    || state == .awaitingHumanIntervention)

/-- `left.startswith(f"{right}/")`. -/
def isBelow (left right : String) : Bool := (right.toList ++ ['/']).isPrefixOf left.toList

/-- `_paths_overlap` (`scheduling.py:1408-1409`). -/
def pathsOverlap (left right : String) : Bool := left == right || isBelow left right || isBelow right left

/-- One path is a directory prefix of the other: the same text, a slash, and
something below it. -/
def DirectoryPrefix (dir path : String) : Prop := ∃ below, path = dir ++ "/" ++ below

theorem isBelow_iff (left right : String) : isBelow left right = true ↔ DirectoryPrefix right left := by
  unfold isBelow DirectoryPrefix
  rw [List.isPrefixOf_iff_prefix]
  constructor
  · rintro ⟨t, ht⟩
    refine ⟨String.ofList t, ?_⟩
    apply String.toList_injective
    have hback : (String.ofList t).toList = t := String.toList_ofList
    rw [String.toList_append, String.toList_append, hback]
    exact ht.symm
  · rintro ⟨below, rfl⟩
    refine ⟨below.toList, ?_⟩
    rw [String.toList_append, String.toList_append]
    rfl

theorem pathsOverlap_iff (left right : String) :
    pathsOverlap left right = true ↔
      left = right ∨ DirectoryPrefix right left ∨ DirectoryPrefix left right := by
  simp only [pathsOverlap, Bool.or_eq_true, beq_iff_eq, isBelow_iff, or_assoc]

theorem pathsOverlap_comm (left right : String) : pathsOverlap left right = pathsOverlap right left := by
  rw [Bool.eq_iff_iff, pathsOverlap_iff, pathsOverlap_iff]
  constructor
  · rintro (h | h | h)
    · exact Or.inl h.symm
    · exact Or.inr (Or.inr h)
    · exact Or.inr (Or.inl h)
  · rintro (h | h | h)
    · exact Or.inl h.symm
    · exact Or.inr (Or.inr h)
    · exact Or.inr (Or.inl h)

end ParallelForge.Scheduling
