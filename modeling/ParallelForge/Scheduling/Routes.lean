import ParallelForge.Scheduling.System

/-!
# Frozen routes

The envelope of a run freezes, for each purpose, one preferred binding and the
fallbacks an operator approved. `permits_route` is the predicate every reader of
a contract applies; the claim and the reassignment choose a new binding by
conditions of their own. Both stay inside what the predicate permits, so a task
keeps an authorised route through any sequence of them.
-/

namespace ParallelForge.Scheduling
open Base Run

/-- `RouteBinding.__post_init__` (`domain/subscription.py:354-374`). -/
def RouteBinding.wellFormed (b : RouteBinding) : Bool :=
  (b.requested == b.effective || b.mappingApplied.any fun m =>
    m.requested == b.requested && m.effective == b.effective) &&
    (!b.isPrimary || b.requested == b.effective)

/-- Constructing a binding checks it. -/
def RouteBinding.build (b : RouteBinding) : Except String RouteBinding :=
  if b.requested ≠ b.effective ∧ b.mappingApplied.isNone = true then
    .error "differing requested and effective route requires explicit approved mapping"
  else if b.requested ≠ b.effective ∧ b.mappingApplied.any (fun m => m.requested != b.requested) then
    .error "mapping requested route does not match requested route"
  else if b.requested ≠ b.effective ∧ b.mappingApplied.any (fun m => m.effective != b.effective) then
    .error "mapping effective route does not match effective route"
  else if b.isPrimary = true ∧ b.requested ≠ b.effective then
    .error "primary route substitution is prohibited"
  else .ok b

/-- The checks of `ExecutionEnvelope.__post_init__` on routes and fallbacks
(`domain/subscription.py:459-535`), the bindings included. -/
def ExecutionEnvelope.wellFormed (e : ExecutionEnvelope) : Bool :=
  (e.routes.map Prod.fst).Nodup && (e.allowedFallbacks.map Prod.fst).Nodup &&
    (e.routes.all fun r => r.2.wellFormed &&
      (r.1 != .primary || r.2.requested == r.2.effective)) &&
    e.allowedFallbacks.all fun f =>
      (e.routeFor f.1).any (fun b => !f.2.contains b.effective) && f.2.length ≤ 16 &&
        (f.1 != .primary || f.2.isEmpty)

/-- `permits_route` (`domain/subscription.py:567-584`). -/
def ExecutionEnvelope.permitsRoute (e : ExecutionEnvelope) (purpose : SpecialistPurpose)
    (binding : RouteBinding) : Bool :=
  match e.routeFor purpose with
  | none => false
  | some preferred => binding == preferred ||
      (!preferred.isPrimary && !binding.isPrimary && binding.requested == preferred.requested &&
        (e.fallbacksFor purpose).contains binding.effective &&
        binding.effective.authMode == preferred.effective.authMode &&
        binding.effective.billingMode == preferred.effective.billingMode)

/- The two ways a binding is permitted. -/
theorem permitsRoute_iff (e : ExecutionEnvelope) (purpose : SpecialistPurpose) (b : RouteBinding) :
    e.permitsRoute purpose b = true ↔ ∃ preferred, e.routeFor purpose = some preferred ∧
      (b = preferred ∨ (preferred.isPrimary = false ∧ b.isPrimary = false ∧
        b.requested = preferred.requested ∧ b.effective ∈ e.fallbacksFor purpose ∧
        b.effective.authMode = preferred.effective.authMode ∧
        b.effective.billingMode = preferred.effective.billingMode)) := by
  unfold ExecutionEnvelope.permitsRoute
  cases e.routeFor purpose with
  | none => simp
  | some preferred => simp [and_assoc]

theorem permitsRoute_preferred (e : ExecutionEnvelope) (purpose : SpecialistPurpose)
    (preferred : RouteBinding) (h : e.routeFor purpose = some preferred) :
    e.permitsRoute purpose preferred = true :=
  (permitsRoute_iff e purpose preferred).mpr ⟨preferred, h, .inl rfl⟩

/-- Authentication and billing, which no substitution may change. -/
def RouteSpec.modes (r : RouteSpec) : AuthMode × BillingMode := (r.authMode, r.billingMode)

/- Every permitted binding has the modes of the preferred one. -/
theorem permitsRoute_modes (e : ExecutionEnvelope) (purpose : SpecialistPurpose)
    (b preferred : RouteBinding) (hp : e.routeFor purpose = some preferred)
    (h : e.permitsRoute purpose b = true) : b.effective.modes = preferred.effective.modes := by
  obtain ⟨p, hp', h⟩ := (permitsRoute_iff e purpose b).mp h
  cases hp.symm.trans hp'
  rcases h with rfl | ⟨-, -, -, -, ha, hb⟩
  · rfl
  · exact Prod.ext ha hb

theorem permitted_modes_eq (e : ExecutionEnvelope) (purpose : SpecialistPurpose)
    (b b' : RouteBinding) (h : e.permitsRoute purpose b = true)
    (h' : e.permitsRoute purpose b' = true) : b'.effective.modes = b.effective.modes := by
  obtain ⟨preferred, hp, -⟩ := (permitsRoute_iff e purpose b).mp h
  exact (permitsRoute_modes e purpose b' preferred hp h').trans
    (permitsRoute_modes e purpose b preferred hp h).symm

/- A candidate beyond the current route comes from the frozen lists, with the
current route's modes. -/
theorem candidate_tail (c : LogicalTaskContract) (e : ExecutionEnvelope) (r : RouteSpec)
    (kind : CandidateKind) (h : (r, kind) ∈ (taskCandidateRoutes c (some e)).tail) :
    ∃ preferred, e.routeFor c.purpose = some preferred ∧
      c.route.requested = preferred.requested ∧ r.modes = c.route.effective.modes ∧
      r ∈ preferred.effective :: e.fallbacksFor c.purpose ∧
      kind = if r = preferred.effective then .preferred else .fallback := by
  unfold taskCandidateRoutes at h
  simp only at h
  split at h
  · simp at h
  · split at h
    · simp at h
    · next e' preferred he =>
      simp only [Option.bind_some, Option.map_eq_some_iff, Prod.mk.injEq] at he
      obtain ⟨p, hp, rfl, rfl⟩ := he
      split at h
      · simp at h
      · next hreq =>
        simp only [List.tail_cons, List.mem_map, List.mem_filter, Bool.and_eq_true, beq_iff_eq,
          Prod.mk.injEq] at h
        obtain ⟨r', ⟨hmem, hb, ha⟩, rfl, hk⟩ := h
        exact ⟨p, hp, not_not.mp hreq, Prod.ext ha hb, hmem, hk.symm⟩

/-- The route a claim takes is permitted if the contract's own is, whatever the
runtime offers and whatever state the quota pools are in. -/
theorem routeForTask_permitted (e : ExecutionEnvelope) (c : LogicalTaskContract)
    (available eligible : RouteSpec → Bool) (b : RouteBinding)
    (hc : e.permitsRoute c.purpose c.route = true)
    (h : routeForTask c (some e) available eligible = some b) :
    e.permitsRoute c.purpose b = true := by
  unfold routeForTask at h
  split at h
  · cases h
    exact hc
  · split at h
    · cases h
    · next hprimary =>
      simp only at h
      split at h
      · cases h
      · exact permitsRoute_preferred e c.purpose b h
      · next route kind hkind hfind =>
        cases h
        obtain ⟨preferred, hp, hreq, hmodes, hmem, hk⟩ :=
          candidate_tail c e route kind (List.mem_of_find?_eq_some hfind)
        -- a candidate that is not the preferred route is one of the fallbacks
        have hne : route ≠ preferred.effective := by
          intro heq
          rw [if_pos heq] at hk
          exact hkind hk
        have hfall : route ∈ e.fallbacksFor c.purpose := (List.mem_cons.mp hmem).resolve_left hne
        have hown : c.route.isPrimary = false := by
          rw [not_or] at hprimary
          exact Bool.eq_false_iff.mpr hprimary.2
        have hpref : preferred.isPrimary = false := by
          obtain ⟨p, hp', hperm⟩ := (permitsRoute_iff e c.purpose c.route).mp hc
          cases hp.symm.trans hp'
          rcases hperm with hsame | ⟨hnot, -⟩
          · rw [← hsame]
            exact hown
          · exact hnot
        have hmodes' := hmodes.trans (permitsRoute_modes e c.purpose c.route preferred hp hc)
        rw [permitsRoute_iff]
        exact ⟨preferred, hp, .inr ⟨hpref, hown, hreq, hfall, congrArg Prod.fst hmodes',
          congrArg Prod.snd hmodes'⟩⟩

theorem build_eq_ok (b b' : RouteBinding) (h : b.build = .ok b') : b' = b ∧ b.wellFormed = true := by
  unfold RouteBinding.build at h
  iterate 4 (split at h; · cases h)
  next hnone hreq heff hprimary =>
  cases h
  refine ⟨rfl, ?_⟩
  unfold RouteBinding.wellFormed
  by_cases hsame : b.requested = b.effective
  · simp [hsame]
  · cases hm : b.mappingApplied with
    | none => exact absurd ⟨hsame, by rw [hm]; rfl⟩ hnone
    | some m => simp_all

/-- What a reassignment reads of the stopped attempt and of its result. A digest
of a payload stands for the payload itself. -/
structure SourceAttempt where
  id : UUID
  runId : UUID
  taskRowId : UUID
  task : LogicalTaskContract
  envelope : ExecutionEnvelope
  route : RouteBinding
  taskVersion : ℕ
  candidateEpoch : ℕ
  deriving DecidableEq, Repr

structure ProposalContext where
  task : LogicalTaskContract
  envelope : ExecutionEnvelope
  route : RouteBinding
  taskVersion : ℕ
  candidateEpoch : ℕ
  deriving DecidableEq, Repr

structure StoppedResult where
  accepted : Bool
  disposition : Disposition
  resultDigest : String
  proposalContext : Option ProposalContext
  deriving DecidableEq, Repr

structure BoundReassignDecision where
  taskId : UUID
  sourceAttemptId : UUID
  expectedTaskVersion : ℕ
  newRoute : RouteSpec
  preservePartialWork : Bool
  deriving DecidableEq, Repr

structure ReassignmentReceipt where
  responseResultDigest : String
  sourceAttemptId : UUID
  sourceResultDigest : String
  sourceHistoryDigest : String
  childTaskId : UUID
  childVersion : ℕ
  priorTask : LogicalTaskContract
  updatedTask : LogicalTaskContract
  deriving DecidableEq, Repr

/-- The stored evidence of one decision: the attempt it names, that attempt's
result, and the digest of its settled history, absent where that raises. -/
structure ReassignmentEvidence where
  source : Option SourceAttempt
  result : Option StoppedResult
  history : Option String
  deriving DecidableEq, Repr

/-- The immutable history is the one the source attempt froze. -/
def sourceProven (parent : LogicalTaskContract) (e : ExecutionEnvelope)
    (decision : BoundReassignDecision) (source : SourceAttempt) (context : ProposalContext) : Bool :=
  let original := context.task
  original.runId == parent.runId && original.taskId == decision.taskId &&
    original.parentTaskId == some parent.taskId && original.purpose != .primary &&
    original == source.task && context.envelope == e && context.envelope == source.envelope &&
    context.route == original.route && context.route == source.route &&
    context.taskVersion == source.taskVersion && context.candidateEpoch == source.candidateEpoch &&
    e.permitsRoute original.purpose original.route

/-- `reassignment_proof` (`subscription_reassignment.py:33-117`). A decision that is
not accepted yields nothing; a history that differs, and a binding that fails its
own check, raise. -/
def reassignmentProof (parent : LogicalTaskContract) (e : ExecutionEnvelope)
    (decision : BoundReassignDecision) (responseDigest : String) (ev : ReassignmentEvidence) :
    Except String (Option (SourceAttempt × LogicalTaskContract × ReassignmentReceipt)) :=
  match ev.source.filter fun s => s.runId == parent.runId && s.taskRowId == decision.taskId &&
      decision.preservePartialWork with
  | none => .ok none
  | some source =>
    match ev.result.filter fun r => r.accepted && (reassignableState r.disposition).isSome with
    | none => .ok none
    | some result => do
      let differs := "reassignment stopped source proof differs"
      let history ← orRaise ev.history differs
      let context ← orRaise result.proposalContext differs
      require (sourceProven parent e decision source context = true) differs
      let original := context.task
      match reassignedRoute original e decision.newRoute with
      | none => .ok none
      | some chosen => do
        let binding ← chosen.build
        let updated := { original with route := binding }
        return some (source, updated,
          { responseResultDigest := responseDigest
            sourceAttemptId := source.id
            sourceResultDigest := result.resultDigest
            sourceHistoryDigest := history
            childTaskId := original.taskId
            childVersion := decision.expectedTaskVersion
            priorTask := source.task
            updatedTask := updated })

theorem lookup_mem {α β : Type} [BEq α] [LawfulBEq α] (l : List (α × β)) (a : α) (b : β)
    (h : l.lookup a = some b) : (a, b) ∈ l := by
  induction l with
  | nil => cases h
  | cons p l ih =>
    rw [List.lookup_cons] at h
    cases hp : a == p.1 with
    | true =>
      rw [hp] at h
      cases h
      rw [LawfulBEq.eq_of_beq hp]
      exact List.mem_cons_self
    | false =>
      rw [hp] at h
      exact List.mem_cons_of_mem _ (ih h)

theorem routeFor_wellFormed (e : ExecutionEnvelope) (purpose : SpecialistPurpose)
    (b : RouteBinding) (he : e.wellFormed = true) (h : e.routeFor purpose = some b) :
    b.wellFormed = true := by
  have hmem := lookup_mem e.routes purpose b h
  simp only [ExecutionEnvelope.wellFormed, Bool.and_eq_true, List.all_eq_true] at he
  exact (he.1.2 _ hmem).1

/- A binding built for a reassignment is permitted: a preferred binding marked
primary has no other effective route it could take and still be built. -/
theorem reassignedRoute_permitted (e : ExecutionEnvelope) (c : LogicalTaskContract)
    (route : RouteSpec) (b : RouteBinding) (he : e.wellFormed = true)
    (h : reassignedRoute c e route = some b) (hb : b.wellFormed = true) :
    e.permitsRoute c.purpose b = true := by
  unfold reassignedRoute at h
  rw [Option.bind_eq_some_iff] at h
  obtain ⟨preferred, hp, h⟩ := h
  split at h
  · cases h
  · next hguard =>
    simp only [not_or, not_not, List.contains_iff_mem] at hguard
    obtain ⟨-, hmem, hauth, hbill⟩ := hguard
    split at h
    · cases h
      exact permitsRoute_preferred e c.purpose _ hp
    · next hne =>
      cases h
      have hfall : route ∈ e.fallbacksFor c.purpose := (List.mem_cons.mp hmem).resolve_left hne
      have hprimary : preferred.isPrimary = false := by
        by_contra hpri
        rw [Bool.not_eq_false] at hpri
        have hown : preferred.requested = preferred.effective := by
          have := routeFor_wellFormed e c.purpose preferred he hp
          simp only [RouteBinding.wellFormed, Bool.and_eq_true, hpri] at this
          simpa using this.2
        have hnew : preferred.requested = route := by
          simp only [RouteBinding.wellFormed, Bool.and_eq_true, hpri] at hb
          simpa using hb.2
        exact hne (hnew.symm.trans hown)
      rw [permitsRoute_iff]
      exact ⟨preferred, hp, .inr ⟨hprimary, hprimary, rfl, hfall, hauth, hbill⟩⟩

/-- What an accepted decision leaves: the contract the source attempt froze, with
a permitted binding. -/
theorem reassignmentProof_permitted (e : ExecutionEnvelope) (parent : LogicalTaskContract)
    (decision : BoundReassignDecision) (responseDigest : String) (ev : ReassignmentEvidence)
    (source : SourceAttempt) (updated : LogicalTaskContract) (receipt : ReassignmentReceipt)
    (he : e.wellFormed = true)
    (h : reassignmentProof parent e decision responseDigest ev
      = .ok (some (source, updated, receipt))) :
    updated = { source.task with route := updated.route } ∧ source.task.purpose ≠ .primary ∧
      e.permitsRoute source.task.purpose source.task.route = true ∧
      e.permitsRoute updated.purpose updated.route = true := by
  unfold reassignmentProof at h
  split at h
  · cases h
  · split at h
    · cases h
    · simp only [bind_eq_ok, orRaise_eq_ok, require_eq_ok] at h
      obtain ⟨history, -, context, -, -, hproven, h⟩ := h
      simp only [sourceProven, Bool.and_eq_true, beq_iff_eq, bne_iff_ne] at hproven
      obtain ⟨⟨⟨⟨⟨⟨⟨⟨⟨-, hprimary⟩, htask⟩, -⟩, -⟩, -⟩, -⟩, -⟩, -⟩, hperm⟩ := hproven
      split at h
      · cases h
      · next chosen hchosen =>
        rw [bind_eq_ok] at h
        obtain ⟨binding, hbuild, h⟩ := h
        obtain ⟨rfl, hwf⟩ := build_eq_ok chosen binding hbuild
        cases h
        rw [← htask]
        exact ⟨rfl, hprimary, hperm, reassignedRoute_permitted e context.task _ _ he hchosen hwf⟩

/-- What may happen to the route of a task: a claim in some state of the runtime
and the quota pools, or a reassignment on some stored evidence. -/
inductive RouteAction
  | claim (available eligible : RouteSpec → Bool)
  | reassign (parent : LogicalTaskContract) (decision : BoundReassignDecision)
      (responseDigest : String) (ev : ReassignmentEvidence)

/-- A claim writes the substituted route (`scheduling.py:566-575`); a reassignment
replaces the contract its source attempt ran under, if it is still the child's
(`subscription_reassignment.py:198-201`). -/
def routeStep (e : ExecutionEnvelope) (c : LogicalTaskContract) : RouteAction → LogicalTaskContract
  | .claim available eligible =>
    match routeForTask c (some e) available eligible with
    | none => c
    | some route => if c.route = route then c else { c with route := route }
  | .reassign parent decision responseDigest ev =>
    match reassignmentProof parent e decision responseDigest ev with
    | .ok (some (source, updated, _)) => if c = source.task then updated else c
    | _ => c

/-- The task keeps its purpose and a permitted route with the modes of the first
one, and a primary keeps the route itself. -/
structure Authorised (e : ExecutionEnvelope) (c c' : LogicalTaskContract) : Prop where
  purpose : c'.purpose = c.purpose
  permitted : e.permitsRoute c'.purpose c'.route = true
  modes : c'.route.effective.modes = c.route.effective.modes
  primary : c.purpose = .primary → c'.route = c.route

theorem Authorised.trans {e : ExecutionEnvelope} {a b c : LogicalTaskContract}
    (h : Authorised e a b) (k : Authorised e b c) : Authorised e a c where
  purpose := k.purpose.trans h.purpose
  permitted := k.permitted
  modes := k.modes.trans h.modes
  primary := fun hp => (k.primary (h.purpose.trans hp)).trans (h.primary hp)

/- A new permitted route on a contract whose purpose stays. -/
theorem authorised_of_permitted (e : ExecutionEnvelope) (c c' : LogicalTaskContract)
    (hpurpose : c'.purpose = c.purpose) (hc : e.permitsRoute c.purpose c.route = true)
    (hc' : e.permitsRoute c'.purpose c'.route = true)
    (hprimary : c.purpose = .primary → c'.route = c.route) : Authorised e c c' where
  purpose := hpurpose
  permitted := hc'
  modes := permitted_modes_eq e c.purpose c.route c'.route hc (hpurpose ▸ hc')
  primary := hprimary

theorem routeStep_authorised (e : ExecutionEnvelope) (c : LogicalTaskContract) (a : RouteAction)
    (he : e.wellFormed = true) (hc : e.permitsRoute c.purpose c.route = true) :
    Authorised e c (routeStep e c a) := by
  have hrefl : Authorised e c c := authorised_of_permitted e c c rfl hc hc fun _ => rfl
  cases a with
  | claim available eligible =>
    simp only [routeStep]
    split
    · exact hrefl
    · next route hr =>
      split
      · exact hrefl
      · exact authorised_of_permitted e c _ rfl hc
          (routeForTask_permitted e c available eligible route hc hr)
          fun hp => routeForTask_primary c (some e) available eligible route hp hr
  | reassign parent decision digest ev =>
    simp only [routeStep]
    split
    · next source updated receipt hproof =>
      obtain ⟨hupd, hprimary, -, hperm⟩ :=
        reassignmentProof_permitted e parent decision digest ev source updated receipt he hproof
      split
      · next hsame =>
        subst hsame
        have hpurpose : updated.purpose = source.task.purpose := by rw [hupd]
        exact authorised_of_permitted e source.task updated hpurpose hc hperm
          fun hp => absurd hp hprimary
      · exact hrefl
    · exact hrefl

theorem run_authorised (e : ExecutionEnvelope) (c : LogicalTaskContract) (actions : List RouteAction)
    (he : e.wellFormed = true) (hc : e.permitsRoute c.purpose c.route = true) :
    Authorised e c (run (routeStep e) c actions) := by
  induction actions generalizing c with
  | nil => exact authorised_of_permitted e c c rfl hc hc fun _ => rfl
  | cons a actions ih =>
    have hstep := routeStep_authorised e c a he hc
    exact hstep.trans (ih (routeStep e c a) hstep.permitted)

/-- Frozen-route authority. -/
theorem route_authority (e : ExecutionEnvelope) (c : LogicalTaskContract)
    (he : e.wellFormed = true) (hc : e.permitsRoute c.purpose c.route = true) :
    (∀ available eligible b, routeForTask c (some e) available eligible = some b →
      e.permitsRoute c.purpose b = true) ∧
    (∀ parent decision digest ev source updated receipt,
      reassignmentProof parent e decision digest ev = .ok (some (source, updated, receipt)) →
      e.permitsRoute updated.purpose updated.route = true) ∧
    ∀ actions, Authorised e c (run (routeStep e) c actions) := by
  refine ⟨?_, ?_, ?_⟩
  · intro available eligible b h
    exact routeForTask_permitted e c available eligible b hc h
  · intro parent decision digest ev source updated receipt h
    exact (reassignmentProof_permitted e parent decision digest ev source updated receipt he h).2.2.2
  · intro actions
    exact run_authorised e c actions he hc

/-- A worker whose route is exhausted falls back, and is later reassigned to the
preferred route. -/
def fallbackSpec : RouteSpec :=
  ⟨"other", "client", "model", .medium, .subscription, .allowanceOnly⟩

def fallbackEnvelope : ExecutionEnvelope where
  runId := 9
  profileLabel := "profile"
  profileVersion := 1
  routes := [(.primary, sampleRoute true), (.routineImplementation, sampleRoute false)]
  allowedFallbacks := [(.routineImplementation, [fallbackSpec])]

theorem route_authority_fallback :
    let c := sampleContract 2 (some 1) [] []
    let e := fallbackEnvelope
    let actions := [RouteAction.claim (fun _ => true) fun r => r == fallbackSpec]
    (run (routeStep e) c actions).route.effective = fallbackSpec ∧
      Authorised e c (run (routeStep e) c actions) :=
  ⟨by decide, (route_authority fallbackEnvelope (sampleContract 2 (some 1) [] []) (by decide)
    (by decide)).2.2 _⟩

end ParallelForge.Scheduling
