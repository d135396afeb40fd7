import ParallelForge.Base.Latest
import ParallelForge.Base.Uuid
import ParallelForge.Usage.Observation
import Mathlib.Data.List.Lex
import Mathlib.Data.Prod.Lex
import Mathlib.Order.Lattice.Nat
import Mathlib.Algebra.Order.Group.Int

/-!
# The cohort of a usage baseline (`domain/task_usage_baselines.py`)

The samples a baseline is computed from: accessible, inside the window, of the
asked kind and route, finalized with a comparable outcome, and of those the
latest. With too few measured ones in the project itself, the route is looked up
across the accessible projects.
-/

namespace ParallelForge.Usage
open Base

inductive Outcome
  | accepted
  | completed
  | failed
  | cancelled
  | truncated
  | unknown
  deriving DecidableEq, Repr

/-- An aware datetime: the microseconds of the local clock since the first day of year 1, the
`tzinfo` object, and which of two readings of a repeated hour is meant. -/
structure DateTime where
  clock : ℤ
  zone : ℕ
  fold : Bool := false
  deriving DecidableEq, Repr

/-- `tzinfo.utcoffset`: how far the clock of a zone is ahead of UTC. -/
abbrev Offsets := ℕ → ℤ → Bool → ℤ

namespace DateTime
variable (utcoffset : Offsets)

def instant (t : DateTime) : ℤ := t.clock - utcoffset t.zone t.clock t.fold

/-- Under one `tzinfo` the clocks are compared, else the instants. -/
def lt (a b : DateTime) : Bool :=
  if a.zone = b.zone then a.clock < b.clock else a.instant utcoffset < b.instant utcoffset

def le (a b : DateTime) : Bool :=
  if a.zone = b.zone then a.clock ≤ b.clock else a.instant utcoffset ≤ b.instant utcoffset

def foldDependent (t : DateTime) : Bool :=
  utcoffset t.zone t.clock (!t.fold) != utcoffset t.zone t.clock t.fold

/-- A time whose offset depends on the fold equals no time of another zone. -/
def eq (a b : DateTime) : Bool :=
  if a.zone = b.zone then a.clock = b.clock
  else a.instant utcoffset = b.instant utcoffset && !a.foldDependent utcoffset &&
    !b.foldDependent utcoffset

end DateTime

/-- The clock of the zone is ahead of UTC by the same time always. -/
def FixedOffset (utcoffset : Offsets) (zone : ℕ) : Prop :=
  ∀ clock fold clock' fold', utcoffset zone clock fold = utcoffset zone clock' fold'

def microsecondsPerDay : ℤ := 86400 * 1000000

/-- The days a `timedelta` holds at most. -/
def maxTimedeltaDays : ℕ := 999999999

/-- A member of a route: the role, the provider, the model and the effort. -/
abbrev SampleMember := String × String × String × Option String

/-- `BaselineSample`, with what the selection reads of it. -/
structure BaselineSample where
  projectId : UUID
  subjectKind : SubjectKind
  subjectId : UUID
  completedAt : DateTime
  totalTokens : Option ℕ
  outcome : Outcome
  finalized : Bool
  measured : Bool
  configuredRoute : Option String
  effectiveRoute : Option String
  taskKind : String := "implementation"
  provider : Option String := none
  model : Option String := none
  effort : Option String := none
  routeMembers : List SampleMember := []
  total_ok : totalTokens.all (· ≤ maxSignedBigint) = true
  measured_ok : measured = totalTokens.isSome
  deriving DecidableEq

/-- `SamplingRules`, with what the selection reads of it. -/
structure SamplingRules where
  historyLimit : ℕ := 50
  minimumComparables : ℕ := 20
  windowDays : Option ℕ := none
  allowCrossProjectFallback : Bool := true
  limits_ok : (1 ≤ minimumComparables && minimumComparables ≤ historyLimit &&
    historyLimit ≤ maxSignedBigint) = true
  window_ok : windowDays.all (fun days => 1 ≤ days && days ≤ maxSignedBigint) = true

/-- The arguments of `select_cohort` besides the samples. -/
structure CohortQuery where
  rules : SamplingRules
  asOf : DateTime
  projectIds : Option (List UUID) := none
  subjectKind : Option SubjectKind := none
  taskKind : Option String := none
  configuredRoute : Option String := none
  effectiveRoute : Option String := none
  targetProjectId : Option UUID := none
  provider : Option String := none
  model : Option String := none
  effort : Option String := none
  overview : Bool := false

inductive CohortSource
  | none
  | overview
  | exactProjectRoute
  | accessibleCrossProject
  deriving DecidableEq, Repr

structure CohortSelection where
  samples : List BaselineSample
  excludedCount : ℕ
  cohortSource : CohortSource
  inaccessible : Bool := false
  deriving DecidableEq

/-- `wanted is None or wanted == value`. -/
def admits {α : Type} [DecidableEq α] (wanted : Option α) (value : α) : Bool :=
  wanted.all fun w => w == value

def admitsSome {α : Type} [DecidableEq α] (wanted value : Option α) : Bool :=
  wanted.all fun w => value == some w

namespace CohortQuery
variable (utcoffset : Offsets) (q : CohortQuery)

/-- `matches_member`. -/
def matchesMember (member : SampleMember) : Bool :=
  admits q.provider member.2.1 && admits q.model member.2.2.1 && admitsSome q.effort member.2.2.2

/-- `matches_route_member`. -/
def matchesRouteMember (s : BaselineSample) : Bool :=
  if s.routeMembers.isEmpty then
    admitsSome q.provider s.provider && admitsSome q.model s.model && admitsSome q.effort s.effort
  else s.routeMembers.any q.matchesMember

def accessible (s : BaselineSample) : Bool := q.projectIds.all fun ids => ids.contains s.projectId

/-- `as_of - timedelta(days=...)`, or the first time of the clock on overflow. -/
def lowerBound : Option DateTime :=
  q.rules.windowDays.map fun days =>
    if maxTimedeltaDays < days ∨ q.asOf.clock < days * microsecondsPerDay then ⟨0, q.asOf.zone, false⟩
    else ⟨q.asOf.clock - days * microsecondsPerDay, q.asOf.zone, false⟩

def inWindow (s : BaselineSample) : Bool :=
  s.completedAt.le utcoffset q.asOf && q.lowerBound.all fun bound => bound.le utcoffset s.completedAt

def filtered (s : BaselineSample) : Bool :=
  admits q.subjectKind s.subjectKind && admits q.taskKind s.taskKind && q.matchesRouteMember s

def onRoute (s : BaselineSample) : Bool :=
  q.overview || (admitsSome q.configuredRoute s.configuredRoute &&
    admitsSome q.effectiveRoute s.effectiveRoute)

def inProject (s : BaselineSample) : Bool :=
  q.overview || q.targetProjectId.all (· == s.projectId)

end CohortQuery

/-- `sample.finalized and sample.outcome in {"accepted", "completed"}`. -/
def BaselineSample.comparable (s : BaselineSample) : Bool :=
  s.finalized && (s.outcome == .accepted || s.outcome == .completed)

section select
variable (utcoffset : Offsets)

/-- The keys are `(completed_at, str(subject_id))`: tuples compare at the first entries that are
not equal. -/
def BaselineSample.before (a b : BaselineSample) : Bool :=
  if a.completedAt.eq utcoffset b.completedAt then uuidText a.subjectId < uuidText b.subjectId
  else a.completedAt.lt utcoffset b.completedAt

/-- `sorted` is stable: a sample stays in front of those that are not before it. Where `before` is
no order, only lists of which no member is before an earlier one are known to stay as they are. -/
def sortedSamples (samples : List BaselineSample) : List BaselineSample :=
  samples.insertionSort fun a b => (!b.before utcoffset a) = true

def CohortQuery.routeScope (q : CohortQuery) (samples : List BaselineSample) : List BaselineSample :=
  (((samples.filter q.accessible).filter (q.inWindow utcoffset)).filter q.filtered).filter q.onRoute

/-- The latest of the comparable samples of a scope, and how many are not comparable. -/
def CohortQuery.selectFrom (q : CohortQuery) (scope : List BaselineSample) (source : CohortSource) :
    CohortSelection :=
  let eligible := scope.filter BaselineSample.comparable
  ⟨(sortedSamples utcoffset eligible).drop (eligible.length - q.rules.historyLimit),
    scope.length - eligible.length, source, false⟩

/-- `select_cohort` (`task_usage_baselines.py:204-278`). -/
def selectCohort (q : CohortQuery) (samples : List BaselineSample) : CohortSelection :=
  let routeScope := q.routeScope utcoffset samples
  let narrow := q.selectFrom utcoffset (routeScope.filter q.inProject)
    (if q.overview then .overview else .exactProjectRoute)
  if q.targetProjectId.any fun target => q.projectIds.any fun ids => !ids.contains target then
    ⟨[], 0, .none, true⟩
  else if !q.overview && (narrow.samples.filter (·.measured)).length < q.rules.minimumComparables &&
      q.rules.allowCrossProjectFallback && q.targetProjectId.isSome then
    q.selectFrom utcoffset routeScope .accessibleCrossProject
  else narrow

/-- What a sample of the cohort of a source has to be. -/
def CohortQuery.eligible (q : CohortQuery) (source : CohortSource) (s : BaselineSample) : Bool :=
  q.accessible s && q.inWindow utcoffset s && q.filtered s && q.onRoute s &&
    (source == .accessibleCrossProject || q.inProject s) && s.comparable

end select

/-! ## Times of a fixed offset -/

section fixed
variable {utcoffset : Offsets}

theorem DateTime.lt_fixed {a b : DateTime} (ha : FixedOffset utcoffset a.zone) :
    a.lt utcoffset b = true ↔ a.instant utcoffset < b.instant utcoffset := by
  unfold DateTime.lt
  split
  · next hzone =>
    have hoffset : utcoffset b.zone b.clock b.fold = utcoffset a.zone a.clock a.fold := by
      rw [← hzone]
      exact ha _ _ _ _
    simp only [decide_eq_true_eq, DateTime.instant, hoffset]
    omega
  · rw [decide_eq_true_eq]

theorem DateTime.eq_fixed {a b : DateTime} (ha : FixedOffset utcoffset a.zone)
    (hb : FixedOffset utcoffset b.zone) :
    a.eq utcoffset b = true ↔ a.instant utcoffset = b.instant utcoffset := by
  have hfold : ∀ t : DateTime, FixedOffset utcoffset t.zone → t.foldDependent utcoffset = false := by
    intro t ht
    simp only [DateTime.foldDependent, ht t.clock (!t.fold) t.clock t.fold, bne_self_eq_false]
  unfold DateTime.eq
  split
  · next hzone =>
    have hoffset : utcoffset b.zone b.clock b.fold = utcoffset a.zone a.clock a.fold := by
      rw [← hzone]
      exact ha _ _ _ _
    simp only [decide_eq_true_eq, DateTime.instant, hoffset]
    omega
  · simp only [hfold a ha, hfold b hb, Bool.not_false, Bool.and_true, decide_eq_true_eq]

variable (utcoffset) in
/-- The instant of a sample, then the text of its subject's id. -/
def BaselineSample.key (s : BaselineSample) : ℤ ×ₗ Str :=
  toLex (s.completedAt.instant utcoffset, uuidText s.subjectId)

theorem before_iff {a b : BaselineSample} (ha : FixedOffset utcoffset a.completedAt.zone)
    (hb : FixedOffset utcoffset b.completedAt.zone) :
    a.before utcoffset b = true ↔ a.key utcoffset < b.key utcoffset := by
  unfold BaselineSample.before BaselineSample.key
  rw [Prod.Lex.toLex_lt_toLex]
  split
  · next heq =>
    rw [DateTime.eq_fixed ha hb] at heq
    simp [heq]
  · next hne =>
    rw [DateTime.eq_fixed ha hb] at hne
    rw [DateTime.lt_fixed ha]
    simp [hne]

/- Of samples with fixed offsets the sort is that by key. -/
theorem sortedSamples_byKey (l : List BaselineSample)
    (h : ∀ s ∈ l, FixedOffset utcoffset s.completedAt.zone) :
    sortedSamples utcoffset l = byKey (BaselineSample.key utcoffset) l := by
  have hsame := List.map_insertionSort (fun a b : BaselineSample => (!b.before utcoffset a) = true)
    (fun a b => a.key utcoffset ≤ b.key utcoffset) id l (by
      intro a ha b hb
      rw [Bool.not_eq_true', Bool.eq_false_iff, ne_eq, before_iff (h b hb) (h a ha), not_lt]
      rfl)
  simp only [List.map_id] at hsame
  exact hsame

end fixed

/-- The accessible samples are of zones with a fixed offset. -/
def CohortQuery.Fixed (utcoffset : Offsets) (q : CohortQuery) (samples : List BaselineSample) : Prop :=
  ∀ s ∈ samples, q.accessible s = true → FixedOffset utcoffset s.completedAt.zone

section law
variable (utcoffset : Offsets) (q : CohortQuery) {samples : List BaselineSample}

theorem nodup_keys (hn : (samples.map (·.subjectId)).Nodup) :
    (samples.map (BaselineSample.key utcoffset)).Nodup := by
  have htexts : ((samples.map (·.subjectId)).map uuidText).Nodup := hn.map uuidText_injective
  refine List.Nodup.of_map (fun k => (ofLex k).2) ?_
  rw [List.map_map] at htexts ⊢
  exact htexts

theorem nodup_filter (p : BaselineSample → Bool) (hn : (samples.map (·.subjectId)).Nodup) :
    ((samples.filter p).map (·.subjectId)).Nodup :=
  hn.sublist (List.filter_sublist.map _)

/- The cohort of the project itself, or of the overview. -/
theorem narrow_eligible (source : CohortSource) (hs : source ≠ .accessibleCrossProject) :
    ((q.routeScope utcoffset samples).filter q.inProject).filter BaselineSample.comparable =
      samples.filter (q.eligible utcoffset source) := by
  have hsource : (source == .accessibleCrossProject) = false := by simpa using hs
  unfold CohortQuery.routeScope CohortQuery.eligible
  simp only [List.filter_filter, hsource, Bool.false_or]
  congr 1
  funext s
  ac_rfl

theorem wide_eligible :
    (q.routeScope utcoffset samples).filter BaselineSample.comparable =
      samples.filter (q.eligible utcoffset .accessibleCrossProject) := by
  unfold CohortQuery.routeScope CohortQuery.eligible
  simp only [List.filter_filter, beq_self_eq_true, Bool.true_or, Bool.and_true]
  congr 1
  funext s
  ac_rfl

variable {samples' scope scope' : List BaselineSample}

theorem routeScope_perm (h : (samples.filter q.accessible).Perm (samples'.filter q.accessible)) :
    (q.routeScope utcoffset samples).Perm (q.routeScope utcoffset samples') :=
  ((h.filter _).filter _).filter _

theorem nodup_routeScope (hn : (samples.map (·.subjectId)).Nodup) :
    ((q.routeScope utcoffset samples).map (·.subjectId)).Nodup :=
  nodup_filter _ (nodup_filter _ (nodup_filter _ (nodup_filter _ hn)))

theorem fixed_routeScope (hf : q.Fixed utcoffset samples) :
    ∀ s ∈ q.routeScope utcoffset samples, FixedOffset utcoffset s.completedAt.zone := by
  intro s hs
  have haccessible := List.mem_of_mem_filter (List.mem_of_mem_filter (List.mem_of_mem_filter hs))
  exact hf s (List.mem_of_mem_filter haccessible) (List.mem_filter.mp haccessible).2

/- A selection of a scope with fixed offsets is of the latest by key. -/
theorem selectFrom_latest (source : CohortSource)
    (hf : ∀ s ∈ scope, FixedOffset utcoffset s.completedAt.zone) :
    q.selectFrom utcoffset scope source =
      ⟨latest (BaselineSample.key utcoffset) q.rules.historyLimit (scope.filter BaselineSample.comparable),
        scope.length - (scope.filter BaselineSample.comparable).length, source, false⟩ := by
  have hsorted := sortedSamples_byKey (scope.filter BaselineSample.comparable)
    fun s hs => hf s (List.mem_of_mem_filter hs)
  simp only [CohortQuery.selectFrom, latest, hsorted]

/- A selection is a matter of the members of its scope. -/
theorem selectFrom_perm (source : CohortSource) (hn : (scope.map (·.subjectId)).Nodup)
    (hf : ∀ s ∈ scope, FixedOffset utcoffset s.completedAt.zone) (h : scope.Perm scope') :
    q.selectFrom utcoffset scope source = q.selectFrom utcoffset scope' source := by
  have heligible := h.filter BaselineSample.comparable
  have hkeys := nodup_keys utcoffset (nodup_filter BaselineSample.comparable hn)
  have hf' : ∀ s ∈ scope', FixedOffset utcoffset s.completedAt.zone :=
    fun s hs => hf s (h.mem_iff.mpr hs)
  rw [selectFrom_latest utcoffset q source hf, selectFrom_latest utcoffset q source hf',
    latest_perm q.rules.historyLimit hkeys heligible, h.length_eq, heligible.length_eq]

theorem selectCohort_perm (hn : (samples.map (·.subjectId)).Nodup) (hf : q.Fixed utcoffset samples)
    (h : (samples.filter q.accessible).Perm (samples'.filter q.accessible)) :
    selectCohort utcoffset q samples' = selectCohort utcoffset q samples := by
  have hwide := routeScope_perm utcoffset q h
  have hnwide := nodup_routeScope utcoffset q hn
  have hfwide := fixed_routeScope utcoffset q hf
  have hnarrow := hwide.filter q.inProject
  have hnnarrow := nodup_filter q.inProject hnwide
  have hfnarrow : ∀ s ∈ (q.routeScope utcoffset samples).filter q.inProject,
      FixedOffset utcoffset s.completedAt.zone := fun s hs => hfwide s (List.mem_of_mem_filter hs)
  unfold selectCohort
  simp only [selectFrom_perm utcoffset q _ hnwide hfwide hwide,
    selectFrom_perm utcoffset q _ hnnarrow hfnarrow hnarrow]

/-- The four ways the selection goes. -/
inductive Selects (utcoffset : Offsets) (q : CohortQuery) (samples : List BaselineSample) :
    CohortSelection → Prop
  | inaccessible : Selects utcoffset q samples ⟨[], 0, .none, true⟩
  | narrow (source : CohortSource) (hs : source ≠ .accessibleCrossProject) :
      Selects utcoffset q samples
        (q.selectFrom utcoffset ((q.routeScope utcoffset samples).filter q.inProject) source)
  | wide (hfew : ((q.selectFrom utcoffset ((q.routeScope utcoffset samples).filter q.inProject)
        .exactProjectRoute).samples.filter (·.measured)).length < q.rules.minimumComparables) :
      Selects utcoffset q samples
        (q.selectFrom utcoffset (q.routeScope utcoffset samples) .accessibleCrossProject)

theorem selectCohort_selects : Selects utcoffset q samples (selectCohort utcoffset q samples) := by
  have hsource : (if q.overview then CohortSource.overview else .exactProjectRoute) ≠
      .accessibleCrossProject := by
    cases q.overview <;> decide
  have hexact : q.overview = false →
      (if q.overview then CohortSource.overview else .exactProjectRoute) = .exactProjectRoute := by
    intro hview
    rw [hview]
    rfl
  unfold selectCohort
  generalize (if q.overview then CohortSource.overview else .exactProjectRoute) = source at *
  by_cases hinaccessible :
      q.targetProjectId.any fun target => q.projectIds.any fun ids => !ids.contains target
  · rw [if_pos hinaccessible]
    exact .inaccessible
  rw [if_neg hinaccessible]
  split
  · next hfew =>
    simp only [Bool.and_eq_true, Bool.not_eq_true', decide_eq_true_eq] at hfew
    rw [hexact hfew.1.1.1] at hfew
    exact .wide hfew.1.1.2
  · exact .narrow source hsource

/-- With fixed offsets, the selection of a cohort is the same for samples in another order
and for other samples of inaccessible projects. It is made of the latest eligible samples
of its source, and the source spans projects only where the latest of the project
itself hold too few measured ones. -/
theorem select_cohort_exact (hn : (samples.map fun s : BaselineSample => s.subjectId).Nodup)
    (hf : q.Fixed utcoffset samples) :
    let r := selectCohort utcoffset q samples
    (∀ samples', (samples.filter q.accessible).Perm (samples'.filter q.accessible) →
      selectCohort utcoffset q samples' = r) ∧
    r.samples.length ≤ q.rules.historyLimit ∧
    (if r.inaccessible then r.samples = [] else
      Latest (BaselineSample.key utcoffset) q.rules.historyLimit
        (samples.filter (q.eligible utcoffset r.cohortSource)) r.samples) ∧
    (r.cohortSource = .accessibleCrossProject →
      ((latest (BaselineSample.key utcoffset) q.rules.historyLimit
        (samples.filter (q.eligible utcoffset .exactProjectRoute))).filter (·.measured)).length <
          q.rules.minimumComparables) := by
  intro r
  have hlatest : ∀ source, Latest (BaselineSample.key utcoffset) q.rules.historyLimit
      (samples.filter (q.eligible utcoffset source)) (latest (BaselineSample.key utcoffset)
        q.rules.historyLimit (samples.filter (q.eligible utcoffset source))) :=
    fun source => latest_latest _ (nodup_keys utcoffset (nodup_filter _ hn))
  have hbound : ∀ source, (latest (BaselineSample.key utcoffset) q.rules.historyLimit
      (samples.filter (q.eligible utcoffset source))).length ≤ q.rules.historyLimit := by
    intro source
    rw [(hlatest source).count]
    exact Nat.min_le_left _ _
  have hwide := fixed_routeScope utcoffset q hf
  have hnarrow : ∀ s ∈ (q.routeScope utcoffset samples).filter q.inProject,
      FixedOffset utcoffset s.completedAt.zone := fun s hs => hwide s (List.mem_of_mem_filter hs)
  refine ⟨fun samples' h => selectCohort_perm utcoffset q hn hf h, ?_⟩
  have hselects : Selects utcoffset q samples r := selectCohort_selects utcoffset q
  clear_value r
  cases hselects with
  | inaccessible => exact ⟨Nat.zero_le _, rfl, nofun⟩
  | narrow source hs =>
    simp only [selectFrom_latest utcoffset q _ hnarrow, narrow_eligible utcoffset q source hs]
    exact ⟨hbound source, hlatest source, fun hsource => absurd hsource hs⟩
  | wide hfew =>
    simp only [selectFrom_latest utcoffset q _ hnarrow,
      narrow_eligible utcoffset q .exactProjectRoute (by decide)] at hfew
    simp only [selectFrom_latest utcoffset q _ hwide, wide_eligible]
    exact ⟨hbound _, hlatest _, fun _ => hfew⟩

end law

/-- Two comparable samples of the project, the later one unmeasured, and one of another project. -/
def cohortSamples : List BaselineSample :=
  [⟨1, .run, 10, ⟨100, 0, false⟩, some 5, .accepted, true, true, none, none, "implementation", none, none,
      none, [], rfl, rfl⟩,
    ⟨1, .run, 11, ⟨200, 0, false⟩, none, .completed, true, false, none, none, "implementation", none, none,
      none, [], rfl, rfl⟩,
    ⟨2, .run, 12, ⟨300, 0, false⟩, some 9, .accepted, true, true, none, none, "implementation", none, none,
      none, [], rfl, rfl⟩]

def cohortQuery : CohortQuery where
  rules := ⟨2, 1, none, true, rfl, rfl⟩
  asOf := ⟨1000, 0, false⟩
  projectIds := some [1]
  targetProjectId := some 1

theorem select_cohort_exact_sample :
    selectCohort (fun _ _ _ => 0) cohortQuery (cohortSamples.take 2).reverse =
        selectCohort (fun _ _ _ => 0) cohortQuery cohortSamples ∧
      (selectCohort (fun _ _ _ => 0) cohortQuery cohortSamples).samples = cohortSamples.take 2 := by
  have hn : (cohortSamples.map (·.subjectId)).Nodup := by decide
  have hf : cohortQuery.Fixed (fun _ _ _ => 0) cohortSamples := fun _ _ _ _ _ _ _ => rfl
  obtain ⟨hsame, -, -, -⟩ := select_cohort_exact (fun _ _ _ => 0) cohortQuery hn hf
  exact ⟨hsame _ (by decide), by decide⟩

/-! ## A repeated hour -/

def hour : ℤ := 3600 * 1000000

/-- UTC, and New York about the third of November 2024, when the hour from one o'clock was repeated. -/
def newYork : Offsets := fun zone clock fold =>
  if zone = 0 then 0
  else if clock < 739192 * 24 * hour + hour then -4 * hour
  else if clock < 739192 * 24 * hour + 2 * hour ∧ fold = false then -4 * hour
  else -5 * hour

/-- The first half past one in New York, and the same instant in UTC. -/
def foldSamples : List BaselineSample :=
  [⟨1, .run, 10, ⟨63866194200000000, 1, false⟩, some 5, .accepted, true, true, none, none,
      "implementation", none, none, none, [], rfl, rfl⟩,
    ⟨1, .run, 11, ⟨63866208600000000, 0, false⟩, some 9, .accepted, true, true, none, none,
      "implementation", none, none, none, [], rfl, rfl⟩]

def foldQuery : CohortQuery where
  rules := ⟨1, 1, none, true, rfl, rfl⟩
  asOf := ⟨63866275200000000, 0, false⟩

/-- Neither of the two times is before the other and they are not equal, so the order of the
samples decides which one is kept. -/
theorem select_cohort_exact_fold :
    (foldSamples.map (·.subjectId)).Nodup ∧ foldSamples.reverse.Perm foldSamples ∧
    (selectCohort newYork foldQuery foldSamples).samples.map (·.subjectId) = [11] ∧
    (selectCohort newYork foldQuery foldSamples.reverse).samples.map (·.subjectId) = [10] := by
  decide

end ParallelForge.Usage
