import ParallelForge.Usage.ObservationStore

/-!
# Replayed observations

An accepted append leaves a row for its event, and the row stays where it is
whatever is written afterwards; so a replay is a comparison with that row. The
comparison succeeds exactly for the observations the row does not change: the
columns cannot say that there was a context that measured nothing.
-/

namespace ParallelForge.Usage.Writer
open Base

/-! ## Columns -/

theorem varchar_of_le (n : ℕ) (s : String) (h : s.length ≤ n) : varchar n s = some ⟨s, h⟩ := dif_pos h

theorem nullableVarchar_text (n : ℕ) (s : Option String) (v : Option (Varchar n))
    (hs : ∀ t, s = some t → t.length ≤ n) (h : nullableVarchar n s = some v) :
    v.map (·.text) = s := by
  cases s with
  | none =>
    cases h
    rfl
  | some t =>
    simp only [nullableVarchar, varchar_of_le n t (hs t rfl), Option.map_some, Option.some.injEq] at h
    rw [← h]
    rfl

theorem nullableVarchar_fits (n : ℕ) (v : Option (Varchar n)) (t : String)
    (h : v.map (·.text) = some t) : t.length ≤ n := by
  rw [Option.map_eq_some_iff] at h
  obtain ⟨c, -, rfl⟩ := h
  exact c.fits

theorem dimensionOf_name (d : Dimension) : dimensionOf (dimensionName d) = some d := by
  cases d with
  | tokens d => cases d <;> decide
  | contextOccupied => decide
  | contextCapacity => decide
  | compactionCount => decide

theorem mapM_dimensionOf (l : List Dimension) : (l.map dimensionName).mapM dimensionOf = some l := by
  induction l with
  | nil => rfl
  | cons d l ih => simp [dimensionOf_name, ih]

theorem counterKindOf_value (k : CounterKind) : counterKindOf (counterKindValue k) = .ok k := by
  cases k <;> decide

theorem tokens_make (t : TokenCounts) :
    TokenCounts.make t.inputTokens t.outputTokens t.cachedInputTokens t.reasoningOutputTokens = .ok t :=
  dif_pos t.valid

theorem context_make (w : ContextWindow) :
    ContextWindow.make w.occupiedTokens w.capacityTokens w.compactionCount = .ok w :=
  dif_pos w.valid

/-! ## What a row keeps -/

/- The constructor gives back an observation that has passed its checks. -/
theorem observation_self (o : Observation) (at' : Option ℤ) :
    observation o.binding o.eventId o.sequence o.counterKind o.tokens o.counterEpoch at' o.context
      "source" (o.unknownDimensions.map dimensionName) o.final o.finalStatus o.reconcilesEventId =
      .ok { o with observedAt := at' } := by
  have hid := o.identity_ok
  rw [Bool.and_assoc, Bool.and_eq_true] at hid
  unfold observation
  rw [dif_pos hid.1, dif_pos hid.2, dif_pos o.epoch_ok, mapM_dimensionOf]
  simp only [ne_eq, not_true_eq_false, if_false]
  rw [dif_pos o.unknown_ok, dif_pos o.final_ok]

theorem decodeContext_bind (c : Option ContextWindow)
    (h : ∀ w, c = some w →
      ¬ (w.occupiedTokens = none ∧ w.capacityTokens = none ∧ w.compactionCount = none)) :
    decodeContext (c.bind (·.occupiedTokens)) (c.bind (·.capacityTokens))
      (c.bind (·.compactionCount)) = .ok c := by
  cases c with
  | none => rfl
  | some w =>
    simp only [Option.bind_some, decodeContext]
    rw [if_neg (h w rfl), context_make]
    rfl

theorem decodeContext_measures (a b c : Option ℕ) (w : ContextWindow)
    (h : decodeContext a b c = .ok (some w)) :
    ¬ (w.occupiedTokens = none ∧ w.capacityTokens = none ∧ w.compactionCount = none) := by
  unfold decodeContext at h
  split at h
  · cases h
  · next hsome =>
    rw [map_eq_ok] at h
    obtain ⟨w', hw', he⟩ := h
    cases he
    unfold ContextWindow.make at hw'
    split at hw'
    · cases hw'
      exact hsome
    · split at hw' <;> cases hw'

/- What is decoded again from the row of a lossless observation. -/
theorem decode_row (o : Sent) (now : ℤ) (row : TaskUsageObservation) (hl : Lossless o)
    (h : taskUsageObservation o.facts now = some row) :
    decodeObservation row o.facts.binding = .ok (stamp now o.facts) := by
  have hid := o.facts.identity_ok
  simp only [Bool.and_eq_true, decide_eq_true_eq] at hid
  have hepoch := o.facts.epoch_ok
  simp only [Bool.and_eq_true, decide_eq_true_eq] at hepoch
  have hkind : (counterKindValue o.facts.counterKind).length ≤ 16 := by
    cases o.facts.counterKind <;> decide
  simp only [taskUsageObservation, varchar_of_le _ _ hid.1.1.2, varchar_of_le _ _ hkind,
    varchar_of_le _ _ hepoch.2, varchar_of_le 16 "source" (by decide), Option.bind_eq_bind,
    Option.bind_some, Option.bind_eq_some_iff] at h
  obtain ⟨status, hstatus, reconciles, hreconciles, hrow⟩ := h
  have hs := nullableVarchar_text 32 _ _ hl.finalStatus hstatus
  have hr := nullableVarchar_text 256 _ _ hl.reconciles hreconciles
  rw [Option.pure_def, Option.some.injEq] at hrow
  rw [← hrow]
  simp only [decodeObservation]
  rw [decodeContext_bind _ hl.context, counterKindOf_value, tokens_make, hs, hr]
  exact observation_self o.facts _

/-- The parts of a decoded row. -/
structure DecodedFrom (row : TaskUsageObservation) (d : Observation) : Prop where
  context : decodeContext row.contextOccupiedTokens row.contextCapacityTokens row.compactionCount =
    .ok d.context
  finalStatus : row.finalStatus.map (·.text) = d.finalStatus
  reconciles : row.reconcilesEventId.map (·.text) = d.reconcilesEventId

theorem observation_eq_ok (b : WorkUnitBinding) (eventId : String) (sequence : ℕ) (kind : CounterKind)
    (tokens : TokenCounts) (epoch : String) (at' : Option ℤ) (context : Option ContextWindow)
    (scope : String) (unknown : List String) (final : Bool) (finalStatus reconciles : Option String)
    (d : Observation)
    (h : observation b eventId sequence kind tokens epoch at' context scope unknown final finalStatus
      reconciles = .ok d) :
    d.context = context ∧ d.finalStatus = finalStatus ∧ d.reconcilesEventId = reconciles := by
  unfold observation at h
  split at h
  case isFalse => cases h
  split at h
  case isFalse => cases h
  split at h
  case isFalse => cases h
  split at h
  case h_2 => cases h
  split at h
  case isFalse => cases h
  split at h
  case isTrue => cases h
  split at h
  case isFalse => cases h
  cases h
  exact ⟨rfl, rfl, rfl⟩

theorem decodeObservation_eq_ok (row : TaskUsageObservation) (b : WorkUnitBinding) (d : Observation)
    (h : decodeObservation row b = .ok d) : DecodedFrom row d := by
  unfold decodeObservation at h
  rw [bind_eq_ok] at h
  obtain ⟨context, hcontext, h⟩ := h
  rw [bind_eq_ok] at h
  obtain ⟨kind, -, h⟩ := h
  rw [bind_eq_ok] at h
  obtain ⟨tokens, -, h⟩ := h
  obtain ⟨hc, hs, hr⟩ := observation_eq_ok _ _ _ _ _ _ _ _ _ _ _ _ _ _ h
  refine ⟨?_, hs.symm, hr.symm⟩
  rw [hc]
  exact hcontext

theorem recognises_iff (o : Sent) (d : Observation) : o.recognises d = true ↔
    (if o.facts.observedAt = none then { d with observedAt := none } else d) = o.facts ∧
      (o.facts.observedAt ≠ none → o.zoned = true) := by
  rw [Sent.recognises, Bool.and_eq_true, beq_iff_eq]
  cases o.facts.observedAt with
  | none => simp
  | some t => simp

/- An observation that some row is recognised as is lossless. -/
theorem recognised_lossless (row : TaskUsageObservation) (o : Sent) (b : WorkUnitBinding)
    (d : Observation) (hd : decodeObservation row b = .ok d) (h : o.recognises d = true) :
    Lossless o := by
  have hparts := decodeObservation_eq_ok row b d hd
  obtain ⟨hsame, hzoned⟩ := (recognises_iff o d).mp h
  have hfields : d.context = o.facts.context ∧ d.finalStatus = o.facts.finalStatus ∧
      d.reconcilesEventId = o.facts.reconcilesEventId := by
    rw [← hsame]
    split
    · exact ⟨rfl, rfl, rfl⟩
    · exact ⟨rfl, rfl, rfl⟩
  obtain ⟨hcontext, hstatus, hreconciles⟩ := hfields
  constructor
  case context =>
    intro w hw
    apply decodeContext_measures _ _ _ w
    rw [hparts.context, hcontext, hw]
  case finalStatus =>
    intro status hs
    apply nullableVarchar_fits 32 row.finalStatus
    rw [hparts.finalStatus, hstatus, hs]
  case reconciles =>
    intro event he
    apply nullableVarchar_fits 256 row.reconcilesEventId
    rw [hparts.reconciles, hreconciles, he]
  case observedAt => exact hzoned

/- The row of a lossless observation is recognised. -/
theorem stamp_recognised (o : Sent) (now : ℤ) (hl : Lossless o) :
    o.recognises (stamp now o.facts) = true := by
  rw [recognises_iff]
  refine ⟨?_, hl.observedAt⟩
  split
  · next htime =>
    unfold stamp
    rw [← htime]
  · next htime =>
    obtain ⟨t, ht⟩ := Option.ne_none_iff_exists'.mp htime
    unfold stamp
    rw [ht, Option.getD_some, ← ht]

/-! ## The tables -/

/- With a unique key, a lookup finds the row that is there. -/
theorem find_of_mem {α κ : Type} [DecidableEq κ] (key : α → κ) (l : List α) (hn : (l.map key).Nodup)
    (a : α) (ha : a ∈ l) (p : α → Bool) (hp : p a = true) (hkey : ∀ b ∈ l, p b = true → key b = key a) :
    l.find? p = some a := by
  induction l with
  | nil => cases ha
  | cons b l ih =>
    rw [List.map_cons, List.nodup_cons] at hn
    rw [List.find?_cons]
    rcases List.mem_cons.mp ha with rfl | hmem
    · rw [hp]
    · have hb : p b = false := by
        rw [Bool.eq_false_iff]
        intro h
        exact hn.1 (hkey b List.mem_cons_self h ▸ List.mem_map_of_mem hmem)
      rw [hb]
      exact ih hn.2 hmem fun c hc => hkey c (List.mem_cons_of_mem b hc)

theorem mem_ofUnit (s : Store) (unit : UUID) (r : TaskUsageObservation) :
    r ∈ s.ofUnit unit ↔ r ∈ s.observations ∧ r.workUnitId = unit := by
  rw [Store.ofUnit, (List.perm_insertionSort _ _).mem_iff, List.mem_filter, beq_iff_eq]

/-- The unit of `o` is admitted with its binding, and the row of its event is `row`. -/
structure Held (db : Database) (s : Store) (o : Sent) (row : TaskUsageObservation) : Prop where
  admitted : ∃ u ∈ s.workUnits, u.id = o.facts.binding.workUnitId ∧
    decodeBinding db.digest u = .ok o.facts.binding
  stored : row ∈ s.observations
  event : observationEvent row = (o.facts.binding.workUnitId, o.facts.eventId)

theorem Held.find_unit {db : Database} {s : Store} {o : Sent} {row : TaskUsageObservation}
    (h : Held db s o row) :
    ∃ u, s.workUnits.find? (fun u => u.id == o.facts.binding.workUnitId) = some u ∧
      decodeBinding db.digest u = .ok o.facts.binding := by
  obtain ⟨u, hu, hid, hdecode⟩ := h.admitted
  refine ⟨u, ?_, hdecode⟩
  refine find_of_mem (·.id) s.workUnits s.unit_id u hu _ ?_ ?_
  · exact beq_iff_eq.mpr hid
  · intro v _ hv
    rw [hid]
    exact beq_iff_eq.mp hv

theorem Held.find_row {db : Database} {s : Store} {o : Sent} {row : TaskUsageObservation}
    (h : Held db s o row) :
    (s.ofUnit o.facts.binding.workUnitId).find? (fun r => r.eventId.text == o.facts.eventId) =
      some row := by
  have hrow := Prod.mk.inj h.event
  have hsub : ((s.ofUnit o.facts.binding.workUnitId).map observationEvent).Nodup := by
    rw [Store.ofUnit, ((List.perm_insertionSort _ _).map observationEvent).nodup_iff]
    exact s.event.sublist (List.filter_sublist.map observationEvent)
  refine find_of_mem observationEvent _ hsub row ((mem_ofUnit s _ row).mpr ⟨h.stored, hrow.1⟩) _ ?_ ?_
  · exact beq_iff_eq.mpr hrow.2
  · intro r hr hevent
    rw [h.event, observationEvent, ((mem_ofUnit s _ r).mp hr).2, beq_iff_eq.mp hevent]

/-! ## The operations -/

theorem insertObservation_eq_ok (s s' : Store) (db : Database) (row : TaskUsageObservation)
    (h : s.insertObservation db row = .ok s') :
    s'.workUnits = s.workUnits ∧ s'.observations = s.observations ++ [row] := by
  unfold Store.insertObservation at h
  split at h
  · split at h
    · cases h
      exact ⟨rfl, rfl⟩
    · cases h
  · cases h

theorem insertUnit_eq_ok (s s' : Store) (db : Database) (b : WorkUnitBinding)
    (h : s.insertUnit db b = .ok s') :
    s.workUnits <+: s'.workUnits ∧ s'.observations = s.observations := by
  unfold Store.insertUnit at h
  split at h
  · split at h
    · cases h
      exact ⟨List.prefix_append _ _, rfl⟩
    · cases h
  · cases h
    exact ⟨List.prefix_rfl, rfl⟩

/-- Everything an accepted append has done: it compared the row of its event, or it
inserted one. -/
theorem appendObservation_eq_ok (db : Database) (s s' : Store) (now : ℤ) (o : Sent) (inserted : Bool)
    (h : appendObservation db s now o = .ok (inserted, s')) :
    (∃ u ∈ s.workUnits, u.id = o.facts.binding.workUnitId ∧
      decodeBinding db.digest u = .ok o.facts.binding) ∧
    ((∃ row ∈ s.observations, observationEvent row = (o.facts.binding.workUnitId, o.facts.eventId) ∧
      s' = s ∧ ∃ d, decodeObservation row o.facts.binding = .ok d ∧ o.recognises d = true) ∨
    (∃ row, taskUsageObservation o.facts now = some row ∧ s.insertObservation db row = .ok s')) := by
  unfold appendObservation at h
  rw [bind_eq_ok] at h
  obtain ⟨u, hu, h⟩ := h
  rw [orRaise_eq_ok] at hu
  rw [bind_eq_ok] at h
  obtain ⟨binding, hbinding, h⟩ := h
  rw [require_bind_eq_ok] at h
  obtain ⟨rfl, h⟩ := h
  have hid : u.id = o.facts.binding.workUnitId := by simpa using List.find?_some hu
  refine ⟨⟨u, List.mem_of_find?_eq_some hu, hid, hbinding⟩, ?_⟩
  simp only at h
  split at h
  · next same hsame =>
    rw [bind_eq_ok] at h
    obtain ⟨d, hd, h⟩ := h
    rw [require_bind_eq_ok] at h
    obtain ⟨hrec, h⟩ := h
    cases h
    obtain ⟨hmem, hunit⟩ := (mem_ofUnit s _ same).mp (List.mem_of_find?_eq_some hsame)
    have hevent : same.eventId.text = o.facts.eventId := by simpa using List.find?_some hsame
    exact Or.inl ⟨same, hmem, by rw [observationEvent, hunit, hevent], rfl, d, hd, hrec⟩
  · next hnone =>
    rw [require_bind_eq_ok] at h
    obtain ⟨-, h⟩ := h
    rw [bind_eq_ok] at h
    obtain ⟨history, -, h⟩ := h
    rw [bind_eq_ok] at h
    obtain ⟨usage, -, h⟩ := h
    rw [bind_eq_ok] at h
    obtain ⟨row, hrow, h⟩ := h
    rw [bind_eq_ok] at h
    obtain ⟨stored, hstored, h⟩ := h
    cases h
    exact Or.inr ⟨row, (orRaise_eq_ok _ _ _).mp hrow, hstored⟩

/- The texts of the identity always fit, so the row has the event of its observation. -/
theorem row_event (o : Observation) (now : ℤ) (row : TaskUsageObservation)
    (h : taskUsageObservation o now = some row) :
    observationEvent row = (o.binding.workUnitId, o.eventId) := by
  have hid := o.identity_ok
  simp only [Bool.and_eq_true, decide_eq_true_eq] at hid
  simp only [taskUsageObservation, varchar_of_le _ _ hid.1.1.2, Option.bind_eq_bind, Option.bind_some,
    Option.bind_eq_some_iff] at h
  obtain ⟨_, -, _, -, _, -, _, -, _, -, hrow⟩ := h
  rw [Option.pure_def, Option.some.injEq] at hrow
  rw [← hrow]
  rfl

/- After an accepted append the row of the event is there, and its decoding is told by what
the append did. -/
theorem append_held (db : Database) (s s' : Store) (now : ℤ) (o : Sent) (inserted : Bool)
    (h : appendObservation db s now o = .ok (inserted, s')) :
    ∃ row, Held db s' o row ∧
      ((∃ d, decodeObservation row o.facts.binding = .ok d ∧ o.recognises d = true) ∨
        taskUsageObservation o.facts now = some row) := by
  obtain ⟨hunit, hrow⟩ := appendObservation_eq_ok db s s' now o inserted h
  rcases hrow with ⟨row, hmem, hevent, rfl, hdecoded⟩ | ⟨row, hrow, hinsert⟩
  · exact ⟨row, ⟨hunit, hmem, hevent⟩, Or.inl hdecoded⟩
  · obtain ⟨hunits, hobs⟩ := insertObservation_eq_ok s s' db row hinsert
    refine ⟨row, ⟨?_, ?_, row_event o.facts now row hrow⟩, Or.inr hrow⟩
    · rw [hunits]
      exact hunit
    · rw [hobs]
      exact List.mem_append_right _ List.mem_cons_self

/- No transaction of the writer takes a row away. -/
theorem Step.keeps {db : Database} {s s' : Store} (h : Step db s s') :
    s.workUnits ⊆ s'.workUnits ∧ s.observations ⊆ s'.observations := by
  cases h with
  | append now o inserted h =>
    rcases (appendObservation_eq_ok db s s' now o inserted h).2 with
      ⟨row, -, -, rfl, -⟩ | ⟨row, -, hinsert⟩
    · exact ⟨List.Subset.refl _, List.Subset.refl _⟩
    · obtain ⟨hunits, hobs⟩ := insertObservation_eq_ok s s' db row hinsert
      rw [hunits, hobs]
      exact ⟨List.Subset.refl _, List.subset_append_left _ _⟩
  | bind b h =>
    unfold Writer.bind at h
    rw [bind_eq_ok] at h
    obtain ⟨stored, hstored, h⟩ := h
    rw [bind_eq_ok] at h
    obtain ⟨row, -, h⟩ := h
    rw [bind_eq_ok] at h
    obtain ⟨decoded, -, h⟩ := h
    rw [require_bind_eq_ok] at h
    cases h.2
    obtain ⟨hunits, hobs⟩ := insertUnit_eq_ok s s' db b hstored
    rw [hobs]
    exact ⟨hunits.subset, List.Subset.refl _⟩

theorem Held.step {db : Database} {s s' : Store} {o : Sent} {row : TaskUsageObservation}
    (h : Held db s o row) (hs : Step db s s') : Held db s' o row := by
  obtain ⟨hunits, hobs⟩ := hs.keeps
  obtain ⟨u, hu, hrest⟩ := h.admitted
  exact ⟨⟨u, hunits hu, hrest⟩, hobs h.stored, h.event⟩

theorem Held.run {db : Database} {s s' : Store} {o : Sent} {row : TaskUsageObservation}
    (h : Held db s o row) (hr : Run db s s') : Held db s' o row := by
  induction hr with
  | refl => exact h
  | tail _ hstep ih => exact ih.step hstep

/- While the row of its event is held, an append is the comparison with it. -/
theorem Held.append {db : Database} {s : Store} {o : Sent} {row : TaskUsageObservation}
    (h : Held db s o row) (now : ℤ) :
    appendObservation db s now o = (do
      let decoded ← decodeObservation row o.facts.binding
      require (o.recognises decoded = true) "observation event replay conflicts"
      return (false, s)) := by
  obtain ⟨u, hu, hbinding⟩ := h.find_unit
  simp only [appendObservation]
  rw [hu, h.find_row]
  simp only [orRaise]
  change (decodeBinding db.digest u >>= _) = _
  rw [hbinding]
  change (require (o.facts.binding = o.facts.binding) _ >>= _) = _
  rw [require, if_pos rfl]
  rfl

theorem Held.replay_iff {db : Database} {s : Store} {o : Sent} {row : TaskUsageObservation}
    (h : Held db s o row) (now : ℤ) : appendObservation db s now o = .ok (false, s) ↔
      ∃ d, decodeObservation row o.facts.binding = .ok d ∧ o.recognises d = true := by
  rw [h.append now, bind_eq_ok]
  constructor
  · rintro ⟨d, hd, hrest⟩
    exact ⟨d, hd, ((require_bind_eq_ok _ _ _ _).mp hrest).1⟩
  · rintro ⟨d, hd, hrec⟩
    exact ⟨d, hd, (require_bind_eq_ok _ _ _ _).mpr ⟨hrec, rfl⟩⟩

/-- After an accepted append, replays are harmless exactly when the observation is one its
row does not change, and then the row decodes to it. -/
theorem replay_exact (db : Database) (s s' : Store) (now : ℤ) (o : Sent) (inserted : Bool)
    (h : appendObservation db s now o = .ok (inserted, s')) :
    (ReplayHarmless db s' o ↔ Lossless o) ∧ (StoredAs s' o ↔ Lossless o) := by
  obtain ⟨row, hheld, hdecoded⟩ := append_held db s s' now o inserted h
  have hrecognised : Lossless o →
      ∃ d, decodeObservation row o.facts.binding = .ok d ∧ o.recognises d = true := by
    intro hl
    rcases hdecoded with hd | hrow
    · exact hd
    · exact ⟨_, decode_row o now row hl hrow, stamp_recognised o now hl⟩
  constructor
  case left =>
    constructor
    · intro hharmless
      obtain ⟨d, hd, hrec⟩ := (hheld.replay_iff now).mp (hharmless s' now .refl)
      exact recognised_lossless row o _ d hd hrec
    · intro hl later time hrun
      exact ((hheld.run hrun).replay_iff time).mpr (hrecognised hl)
  case right =>
    constructor
    · rintro ⟨r, -, -, d, hd, hrec⟩
      exact recognised_lossless r o _ d hd hrec
    · intro hl
      exact ⟨row, hheld.stored, hheld.event, hrecognised hl⟩

/-! ## A report whose context measured nothing -/

def sampleDigest : String := "148a8b2d5a5d375eb5308f0a35a5a00f619e44b8c35072006c5b128f41aa11c6"

def sampleRoute : RouteCohort := ⟨sampleDigest, [⟨"primary", "codex", "gpt-5", 0, none⟩]⟩

def admittedBinding : WorkUnitBinding where
  subject := ⟨1, .run, 2⟩
  workUnitId := 3
  admittedPhaseId := "implement"
  configuredRoute := sampleRoute
  effectiveRoute := sampleRoute
  source := ⟨.agentExecution, 4, none⟩

def sampleDatabase : Database where
  digest := fun _ => sampleDigest
  takesUnit := fun _ _ => true
  takesObservation := fun _ _ => true

def admittedStore : Store where
  workUnits := [taskUsageWorkUnit admittedBinding]
  observations := []
  unit_id := by simp
  unit_source := by simp
  event := by simp
  sequence := by simp

def reported (context : Option ContextWindow) : Sent where
  facts := {
    binding := admittedBinding
    eventId := "turn"
    sequence := 1
    counterKind := .delta
    tokens := ⟨some 10, some 4, some 8, none, by decide⟩
    counterEpoch := "source"
    observedAt := none
    context := context
    unknownDimensions := []
    final := false
    finalStatus := none
    reconcilesEventId := none
    identity_ok := by decide
    epoch_ok := by decide
    unknown_ok := by simp
    final_ok := by decide }
  zoned := false

def occupied : ContextWindow := ⟨some 7, none, none, by decide⟩

theorem replay_exact_occupied : ∃ s', appendObservation sampleDatabase admittedStore 5
      (reported (some occupied)) = .ok (true, s') ∧
    (ReplayHarmless sampleDatabase s' (reported (some occupied)) ↔ Lossless (reported (some occupied))) ∧
    (StoredAs s' (reported (some occupied)) ↔ Lossless (reported (some occupied))) := by
  have happend : ∃ s', appendObservation sampleDatabase admittedStore 5 (reported (some occupied)) =
    .ok (true, s') := ⟨_, rfl⟩
  obtain ⟨s', hs'⟩ := happend
  exact ⟨s', hs', replay_exact sampleDatabase admittedStore s' 5 (reported (some occupied)) true hs'⟩

def unmeasured : ContextWindow := ⟨none, none, none, by decide⟩

/- The report is accepted, and sent again it conflicts with its own row. -/
theorem replay_conflicts : ∃ s', appendObservation sampleDatabase admittedStore 5
      (reported (some unmeasured)) = .ok (true, s') ∧
    appendObservation sampleDatabase s' 6 (reported (some unmeasured)) =
      .error "observation event replay conflicts" ∧
    ¬ ReplayHarmless sampleDatabase s' (reported (some unmeasured)) ∧
    ¬ StoredAs s' (reported (some unmeasured)) := by
  have happend : ∃ s', appendObservation sampleDatabase admittedStore 5 (reported (some unmeasured)) =
      .ok (true, s') ∧ appendObservation sampleDatabase s' 6 (reported (some unmeasured)) =
      .error "observation event replay conflicts" := ⟨_, rfl, rfl⟩
  obtain ⟨s', hs', hreplay⟩ := happend
  refine ⟨s', hs', hreplay, ?_, ?_⟩
  · intro hharmless
    rw [hharmless s' 6 .refl] at hreplay
    cases hreplay
  · rintro ⟨row, -, -, d, hd, hrec⟩
    exact (recognised_lossless row _ _ d hd hrec).context unmeasured rfl ⟨rfl, rfl, rfl⟩

end ParallelForge.Usage.Writer
