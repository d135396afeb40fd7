import ParallelForge.Usage.Totals
import Mathlib.Logic.Relation

/-!
# The observation writer (`persistence/repositories/task_usage_observations.py`)

Work units and observations as rows of two tables. A row holds columns, not
typed facts: what was appended is recognised again by decoding its row. The
database keeps the unique constraints and the widths of its text columns; what
else it checks, and every way in which it may fail, is a parameter.
-/

namespace ParallelForge.Usage.Writer
open Base

/-- A value of a `varchar(n)` column. -/
structure Varchar (n : ℕ) where
  text : String
  fits : text.length ≤ n
  deriving DecidableEq

/-- The assignment to a `varchar(n)` column: a longer text is refused, except that
spaces beyond the width are dropped. -/
def varchar (n : ℕ) (s : String) : Option (Varchar n) :=
  if h : s.length ≤ n then some ⟨s, h⟩
  else if ((s.toList.drop n).all (· == ' ')) = true then
    some ⟨String.ofList (s.toList.take n), by
      rw [String.length_ofList]
      exact List.length_take_le n s.toList⟩
  else none

def nullableVarchar (n : ℕ) : Option String → Option (Option (Varchar n))
  | none => some none
  | some s => (varchar n s).map some

/-- A value of the stored JSON. -/
inductive Cell
  | null
  | text (s : String)
  | int (n : ℤ)
  | other
  deriving DecidableEq, Repr

/-- An object of a `..._route_members` column: what `value.get` reads of it. -/
structure StoredMember where
  role : Cell
  provider : Cell
  model : Cell
  ordinal : Cell
  reasoningEffort : Cell
  deriving DecidableEq, Repr

def optionalText : Option String → Cell
  | none => .null
  | some s => .text s

/-- `_members`. -/
def members (route : RouteCohort) : List StoredMember :=
  route.members.map fun m =>
    ⟨.text m.role, .text m.provider, .text m.model, .int m.ordinal, optionalText m.reasoningEffort⟩

/-- The effort of a stored member: null or a text. -/
def storedEffort : Cell → Option (Option String)
  | .null => some none
  | .text s => some (some s)
  | _ => none

/-- `RouteMember` with its checks. -/
def routeMember (role provider model : String) (ordinal : ℤ) (effort : Option String) :
    Except String RouteMember :=
  if (role == "" || provider == "" || model == "") = true then
    .error "route member labels must be nonempty"
  else if ordinal < 0 ∨ (maxSignedBigint : ℤ) < ordinal then
    .error "route ordinal must be a nonnegative signed-64-bit integer"
  else if effort = some "" then .error "reasoning effort must be a nonempty label"
  else .ok ⟨role, provider, model, ordinal.toNat, effort⟩

/-- `_member`. -/
def member (value : StoredMember) : Except String RouteMember :=
  match value.role, value.provider, value.model, value.ordinal, storedEffort value.reasoningEffort with
  | .text role, .text provider, .text model, .int ordinal, some effort =>
    routeMember role provider model ordinal effort
  | _, _, _, _, _ => .error "stored route member is malformed"

/-- `RouteCohort` with its checks; `digest` is `digest_members`. -/
def routeCohort (digest : List RouteMember → String) (fingerprint : String)
    (members : List RouteMember) : Except String RouteCohort :=
  if isHexOfLength 64 fingerprint = false then
    .error "route fingerprint must be a lowercase SHA-256 digest"
  else if members = [] then .error "route cohort requires at least one member"
  else if ¬ (members.map fun m => (m.role, m.ordinal)).Nodup then
    .error "route member identity is duplicated"
  else if fingerprint ≠ digest members then .error "route fingerprint does not match members"
  else .ok ⟨fingerprint, members⟩

/-- `TaskUsageWorkUnit`, the columns `decode_binding` reads. -/
structure TaskUsageWorkUnit where
  id : UUID
  projectId : UUID
  subjectKind : String
  subjectId : UUID
  admittedPhaseId : String
  configuredRouteDigest : String
  configuredRouteMembers : List StoredMember
  effectiveRouteDigest : String
  effectiveRouteMembers : List StoredMember
  sourceKind : String
  sourceId : UUID
  subscriptionTaskId : Option UUID
  deriving DecidableEq, Repr

def subjectKindValue : SubjectKind → String
  | .run => "run"
  | .authoringJob => "authoring_job"

def sourceKindValue : SourceKind → String
  | .agentExecution => "agent_execution"
  | .subscriptionAttempt => "subscription_attempt"
  | .authoringAttempt => "authoring_attempt"

def subjectKindOf (value : String) : Except String SubjectKind :=
  if value = "run" then .ok .run
  else if value = "authoring_job" then .ok .authoringJob
  else .error "unknown subject kind"

def sourceKindOf (value : String) : Except String SourceKind :=
  if value = "agent_execution" then .ok .agentExecution
  else if value = "subscription_attempt" then .ok .subscriptionAttempt
  else if value = "authoring_attempt" then .ok .authoringAttempt
  else .error "unknown source kind"

/-- `SourceBinding` with its checks. -/
def sourceBinding (kind : String) (sourceId : UUID) (parentId : Option UUID) :
    Except String SourceBinding := do
  let kind ← sourceKindOf kind
  require (kind = .subscriptionAttempt → parentId ≠ none) "subscription source requires task parent"
  require (kind ≠ .subscriptionAttempt → parentId = none)
    "only subscription sources have a task parent"
  return ⟨kind, sourceId, parentId⟩

/-- `decode_binding` (`task_usage_observations.py:62-84`). -/
def decodeBinding (digest : List RouteMember → String) (row : TaskUsageWorkUnit) :
    Except String WorkUnitBinding := do
  let configuredMembers ← row.configuredRouteMembers.mapM member
  let configured ← routeCohort digest row.configuredRouteDigest configuredMembers
  let effectiveMembers ← row.effectiveRouteMembers.mapM member
  let effective ← routeCohort digest row.effectiveRouteDigest effectiveMembers
  let subjectKind ← subjectKindOf row.subjectKind
  let source ← sourceBinding row.sourceKind row.sourceId row.subscriptionTaskId
  require (row.admittedPhaseId ≠ "" ∧ row.admittedPhaseId.length ≤ 96) "admitted phase is invalid"
  require (source.sourceId ≠ row.subjectId) "source binding is invalid"
  require (subjectKind = .run ↔ source.kind ≠ .authoringAttempt)
    "source kind does not match subject"
  return ⟨⟨row.projectId, subjectKind, row.subjectId⟩, row.id, row.admittedPhaseId, configured,
    effective, source⟩

/-- `TaskUsageObservation`. The token columns are nonnegative by its checks. -/
structure TaskUsageObservation where
  projectId : UUID
  workUnitId : UUID
  eventId : Varchar 256
  sequence : ℕ
  counterKind : Varchar 16
  counterEpoch : Varchar 96
  scope : Varchar 16
  inputTokens : Option ℕ
  outputTokens : Option ℕ
  cachedInputTokens : Option ℕ
  reasoningOutputTokens : Option ℕ
  contextOccupiedTokens : Option ℕ
  contextCapacityTokens : Option ℕ
  compactionCount : Option ℕ
  unknownDimensions : List String
  final : Bool
  finalStatus : Option (Varchar 32)
  reconcilesEventId : Option (Varchar 256)
  observedAt : ℤ
  deriving DecidableEq

def counterKindValue : CounterKind → String
  | .cumulative => "cumulative"
  | .delta => "delta"

/-- `CounterKind(value)`. -/
def counterKindOf (value : String) : Except String CounterKind :=
  if value = "cumulative" then .ok .cumulative
  else if value = "delta" then .ok .delta
  else .error "not a valid CounterKind"

/-- The keys of `values` in `Observation.__post_init__`. -/
def dimensionName : Dimension → String
  | .tokens .input => "input_tokens"
  | .tokens .output => "output_tokens"
  | .tokens .cachedInput => "cached_input_tokens"
  | .tokens .reasoningOutput => "reasoning_output_tokens"
  | .contextOccupied => "context_occupied_tokens"
  | .contextCapacity => "context_capacity_tokens"
  | .compactionCount => "compaction_count"

def dimensionOf (name : String) : Option Dimension :=
  [Dimension.tokens .input, .tokens .output, .tokens .cachedInput, .tokens .reasoningOutput,
    .contextOccupied, .contextCapacity, .compactionCount].find? fun d => dimensionName d == name

/-- Why the final fields are refused. -/
def finalFault (final : Bool) (finalStatus reconciles : Option String) : String :=
  if (final && !finalStatus.any (· != "")) = true then "final observation requires status"
  else if (!final && (finalStatus.isSome || reconciles.isSome)) = true then
    "live observation cannot reconcile final state"
  else "observation cannot reconcile itself"

section
variable (binding : WorkUnitBinding) (eventId : String) (sequence : ℕ) (counterKind : CounterKind)
  (tokens : TokenCounts) (counterEpoch : String) (observedAt : Option ℤ)
  (context : Option ContextWindow) (scope : String) (unknownDimensions : List String) (final : Bool)
  (finalStatus reconcilesEventId : Option String)

/-- `Observation(...)`: the constructor with its checks (`task_usage_contract.py:263-313`). -/
def observation : Except String Observation :=
  if hidentity : (eventId != "" && eventId.length ≤ 256) = true then
    if hsequence : (1 ≤ sequence && sequence ≤ maxSignedBigint) = true then
      if hepoch : (strip counterEpoch != "" && counterEpoch.length ≤ 96) = true then
        match unknownDimensions.mapM dimensionOf with
        | some unknown =>
          if hunknown : unknown.Nodup ∧ ∀ d ∈ unknown, measurement tokens context d = none then
            if scope ≠ "source" then .error "only source-scoped observations are admitted"
            else if hfinal : (finalShape final finalStatus reconcilesEventId &&
                reconcilesEventId != some eventId) = true then
              .ok {
                binding, eventId, sequence, counterKind, tokens, counterEpoch, observedAt, context,
                final, finalStatus, reconcilesEventId
                unknownDimensions := unknown
                identity_ok := by
                  rw [Bool.and_assoc, hidentity, Bool.true_and]
                  exact hsequence
                epoch_ok := hepoch
                unknown_ok := hunknown
                final_ok := hfinal }
            else .error (finalFault final finalStatus reconcilesEventId)
          else .error "unknown dimensions must be unique unmeasured fields"
        | none => .error "unknown dimensions must be unique unmeasured fields"
      else .error "counter epoch must be a bounded nonblank identity"
    else .error "sequence must be a positive signed-64-bit integer"
  else .error "observation identity is invalid"

end

/-- The context of a row: three nulls are no context at all. -/
def decodeContext (occupied capacity compactions : Option ℕ) : Except String (Option ContextWindow) :=
  if occupied = none ∧ capacity = none ∧ compactions = none then .ok none
  else (ContextWindow.make occupied capacity compactions).map some

/-- `decode_observation` (`task_usage_observations.py:87-123`). -/
def decodeObservation (row : TaskUsageObservation) (binding : WorkUnitBinding) :
    Except String Observation := do
  let context ← decodeContext row.contextOccupiedTokens row.contextCapacityTokens row.compactionCount
  let counterKind ← counterKindOf row.counterKind.text
  let tokens ← TokenCounts.make row.inputTokens row.outputTokens row.cachedInputTokens
    row.reasoningOutputTokens
  observation binding row.eventId.text row.sequence counterKind tokens row.counterEpoch.text
    (some row.observedAt) context row.scope.text row.unknownDimensions row.final
    (row.finalStatus.map (·.text)) (row.reconcilesEventId.map (·.text))

/-- An observation as it is passed to the writer. Its time, when there is one, equals the
stored instant only when it is aware of its zone and `fold` does not change its offset. -/
structure Sent where
  facts : Observation
  zoned : Bool

/-- The row of the insert; `none` when a text does not fit its column. -/
def taskUsageObservation (o : Observation) (now : ℤ) : Option TaskUsageObservation := do
  let eventId ← varchar 256 o.eventId
  let counterKind ← varchar 16 (counterKindValue o.counterKind)
  let counterEpoch ← varchar 96 o.counterEpoch
  let scope ← varchar 16 "source"
  let finalStatus ← nullableVarchar 32 o.finalStatus
  let reconcilesEventId ← nullableVarchar 256 o.reconcilesEventId
  return {
    projectId := o.binding.subject.projectId
    workUnitId := o.binding.workUnitId
    eventId := eventId
    sequence := o.sequence
    counterKind := counterKind
    counterEpoch := counterEpoch
    scope := scope
    inputTokens := o.tokens.inputTokens
    outputTokens := o.tokens.outputTokens
    cachedInputTokens := o.tokens.cachedInputTokens
    reasoningOutputTokens := o.tokens.reasoningOutputTokens
    contextOccupiedTokens := o.context.bind (·.occupiedTokens)
    contextCapacityTokens := o.context.bind (·.capacityTokens)
    compactionCount := o.context.bind (·.compactionCount)
    unknownDimensions := o.unknownDimensions.map dimensionName
    final := o.final
    finalStatus := finalStatus
    reconcilesEventId := reconcilesEventId
    observedAt := o.observedAt.getD now }

def unitSource (u : TaskUsageWorkUnit) : UUID × String × UUID × String × UUID :=
  (u.projectId, u.subjectKind, u.subjectId, u.sourceKind, u.sourceId)

def observationEvent (r : TaskUsageObservation) : UUID × String := (r.workUnitId, r.eventId.text)

def observationSequence (r : TaskUsageObservation) : UUID × ℕ := (r.workUnitId, r.sequence)

/-- The two tables with their unique constraints. -/
structure Store where
  workUnits : List TaskUsageWorkUnit
  observations : List TaskUsageObservation
  unit_id : (workUnits.map (·.id)).Nodup
  unit_source : (workUnits.map unitSource).Nodup
  event : (observations.map observationEvent).Nodup
  sequence : (observations.map observationSequence).Nodup

/-- What is not in the repository: the digest of a route, and whether the database takes a
row (its foreign keys, its other checks, its connection). -/
structure Database where
  digest : List RouteMember → String
  takesUnit : Store → WorkUnitBinding → Bool
  takesObservation : Store → TaskUsageObservation → Bool

/-- The rows of a unit, `ORDER BY sequence`. -/
def Store.ofUnit (s : Store) (unit : UUID) : List TaskUsageObservation :=
  (s.observations.filter fun r => r.workUnitId == unit).insertionSort
    fun a b => a.sequence ≤ b.sequence

def Store.insertObservation (s : Store) (db : Database) (row : TaskUsageObservation) :
    Except String Store :=
  if h : ((s.observations ++ [row]).map observationEvent).Nodup ∧
      ((s.observations ++ [row]).map observationSequence).Nodup then
    if db.takesObservation s row = true then
      .ok { s with
        observations := s.observations ++ [row]
        event := h.1
        sequence := h.2 }
    else .error "the database refuses the row"
  else .error "duplicate key value violates unique constraint"

/-- The comparison of a replay with the decoded row. -/
def Sent.recognises (o : Sent) (decoded : Observation) : Bool :=
  (if o.facts.observedAt = none then { decoded with observedAt := none } else decoded) == o.facts &&
    (o.facts.observedAt.isNone || o.zoned)

/-- `append_observation` (`task_usage_observations.py:184-244`). -/
def appendObservation (db : Database) (s : Store) (now : ℤ) (o : Sent) :
    Except String (Bool × Store) := do
  let unit ← orRaise (s.workUnits.find? fun u => u.id == o.facts.binding.workUnitId)
    "observation binding was not admitted"
  let binding ← decodeBinding db.digest unit
  require (binding = o.facts.binding) "observation binding was not admitted"
  let existing := s.ofUnit o.facts.binding.workUnitId
  match existing.find? fun r => r.eventId.text == o.facts.eventId with
  | some same => do
    let decoded ← decodeObservation same o.facts.binding
    require (o.recognises decoded = true) "observation event replay conflicts"
    return (false, s)
  | none => do
    require (¬ existing.any (fun r => r.sequence == o.facts.sequence) = true)
      "observation sequence conflicts"
    let history ← existing.mapM fun r => decodeObservation r o.facts.binding
    let _usage ← projectSource (history ++ [o.facts])
    let row ← orRaise (taskUsageObservation o.facts now) "value too long for type character varying"
    let stored ← s.insertObservation db row
    return (true, stored)

/-- The row of `bind`. -/
def taskUsageWorkUnit (b : WorkUnitBinding) : TaskUsageWorkUnit where
  id := b.workUnitId
  projectId := b.subject.projectId
  subjectKind := subjectKindValue b.subject.kind
  subjectId := b.subject.subjectId
  admittedPhaseId := b.admittedPhaseId
  configuredRouteDigest := b.configuredRoute.fingerprint
  configuredRouteMembers := members b.configuredRoute
  effectiveRouteDigest := b.effectiveRoute.fingerprint
  effectiveRouteMembers := members b.effectiveRoute
  sourceKind := sourceKindValue b.source.kind
  sourceId := b.source.sourceId
  subscriptionTaskId := b.source.parentId

/-- `INSERT ... ON CONFLICT DO NOTHING`. -/
def Store.insertUnit (s : Store) (db : Database) (b : WorkUnitBinding) : Except String Store :=
  if h : ((s.workUnits ++ [taskUsageWorkUnit b]).map (·.id)).Nodup ∧
      ((s.workUnits ++ [taskUsageWorkUnit b]).map unitSource).Nodup then
    if db.takesUnit s b = true then
      .ok { s with
        workUnits := s.workUnits ++ [taskUsageWorkUnit b]
        unit_id := h.1
        unit_source := h.2 }
    else .error "binding source lineage conflicts"
  else .ok s

/-- `bind` (`task_usage_observations.py:136-182`). -/
def bind (db : Database) (s : Store) (b : WorkUnitBinding) : Except String Store := do
  let stored ← s.insertUnit db b
  let row ← orRaise (stored.workUnits.find? fun u => unitSource u == unitSource (taskUsageWorkUnit b))
    "source binding replay conflicts"
  let decoded ← decodeBinding db.digest row
  require (decoded = b) "source binding replay conflicts"
  return stored

/-- One committed transaction of the writer. -/
inductive Step (db : Database) (s s' : Store) : Prop
  | append (now : ℤ) (o : Sent) (inserted : Bool)
      (h : appendObservation db s now o = .ok (inserted, s'))
  | bind (b : WorkUnitBinding) (h : bind db s b = .ok s')

abbrev Run (db : Database) : Store → Store → Prop := Relation.ReflTransGen (Step db)

/-- Appending `o` again, in every store reached from `s`, is recognised and changes nothing. -/
def ReplayHarmless (db : Database) (s : Store) (o : Sent) : Prop :=
  ∀ later now, Run db s later → appendObservation db later now o = .ok (false, later)

/-- The row of `o` in `s` decodes to `o`, up to its time when that was omitted. -/
def StoredAs (s : Store) (o : Sent) : Prop :=
  ∃ row ∈ s.observations, observationEvent row = (o.facts.binding.workUnitId, o.facts.eventId) ∧
    ∃ decoded, decodeObservation row o.facts.binding = .ok decoded ∧ o.recognises decoded = true

/-- The context is not a window that measures nothing, no text was cut to its column, and a
time that was given is one that equals its instant. -/
structure Lossless (o : Sent) : Prop where
  context : ∀ w, o.facts.context = some w →
    ¬ (w.occupiedTokens = none ∧ w.capacityTokens = none ∧ w.compactionCount = none)
  finalStatus : ∀ status, o.facts.finalStatus = some status → status.length ≤ 32
  reconciles : ∀ event, o.facts.reconcilesEventId = some event → event.length ≤ 256
  observedAt : o.facts.observedAt ≠ none → o.zoned = true

end ParallelForge.Usage.Writer
