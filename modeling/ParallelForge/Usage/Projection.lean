import ParallelForge.Base.Result
import ParallelForge.Base.Total
import ParallelForge.Usage.Observation
import Mathlib.Algebra.GroupWithZero.Nat
import Mathlib.Data.List.Sort

/-!
# The projection of one source (`application/services/task_usage_observations.py`)

Observations arrive in any order and more than once. They are first reduced to
one observation an event, ordered by sequence; everything else is computed
from that ordered list. So the result depends on the set of observations only,
and a live observation added to it can only add to a known total.
-/

namespace ParallelForge.Usage
open Base

inductive Completeness
  | unknown
  | lowerBound
  | complete
  deriving DecidableEq, Repr

structure SourceUsage where
  inputTokens : Option ℕ
  outputTokens : Option ℕ
  cachedInputTokens : Option ℕ
  reasoningOutputTokens : Option ℕ
  contextOccupiedTokens : Option ℕ
  contextCapacityTokens : Option ℕ
  compactionCount : Option ℕ
  completeness : Completeness
  final : Bool
  finalStatus : Option String
  eventId : Option String
  sequence : ℕ
  disagreements : List String
  deriving DecidableEq, Repr

def unknownUsage : SourceUsage where
  inputTokens := none
  outputTokens := none
  cachedInputTokens := none
  reasoningOutputTokens := none
  contextOccupiedTokens := none
  contextCapacityTokens := none
  compactionCount := none
  completeness := .unknown
  final := false
  finalStatus := none
  eventId := none
  sequence := 0
  disagreements := []

/-- `_checked_sum` (`task_usage_observations.py:40-44`). -/
def checkedSum (values : List ℕ) : Except String ℕ :=
  if maxSignedBigint < values.sum then .error "observed usage exceeds signed-64-bit range"
  else .ok values.sum

/-- One turn of the first loop; `seen` holds the values of `by_event`, which are
those of `by_sequence`. -/
def ingestStep (binding : WorkUnitBinding) (seen : List Observation) (item : Observation) :
    Except String (List Observation) :=
  if item.binding ≠ binding then .error "source projection mixes bindings"
  else match seen.find? fun o => o.eventId == item.eventId with
    | some prior => if prior ≠ item then .error "event replay conflicts" else .ok seen
    | none =>
      if seen.any fun o => o.sequence == item.sequence then
        .error "observation sequence conflicts"
      else .ok (seen ++ [item])

def bySequence (seen : List Observation) : List Observation :=
  seen.insertionSort fun a b => a.sequence ≤ b.sequence

/-- The counters of each epoch so far. -/
abbrev Epochs := Table String (CounterKind × Option ℕ)

/-- One turn of the loop over the provisional observations, for one dimension
(`task_usage_observations.py:78-108`). -/
def epochStep (d : TokenDimension) (epochs : Epochs) (item : Observation) : Except String Epochs :=
  let prior := epochs.get item.counterEpoch
  if prior.any fun p => p.1 ≠ item.counterKind then .error "counter kind changes within epoch"
  else match item.counterKind, item.tokens.get d with
    | .delta, some value => do
      let total ← checkedSum [(prior.bind Prod.snd).getD 0, value]
      return epochs.put item.counterEpoch (.delta, some total)
    | .delta, none => .ok (epochs.put item.counterEpoch (.delta, prior.bind Prod.snd))
    | .cumulative, some value =>
      if (prior.bind Prod.snd).any fun p => value < p then
        .error "cumulative counter decrement within epoch"
      else .ok (epochs.put item.counterEpoch (.cumulative, some value))
    | .cumulative, none =>
      if prior.isNone then .ok (epochs.put item.counterEpoch (.cumulative, none)) else .ok epochs

def epochTotals (d : TokenDimension) (provisional : List Observation) : Except String Epochs :=
  provisional.foldlM (epochStep d) Table.empty

/-- The known totals of the epochs. -/
def knownTotals (epochs : Epochs) : List ℕ := epochs.rows.filterMap fun r => r.2.2

def liveTotal (epochs : Epochs) : Except String (Option ℕ) :=
  if (knownTotals epochs).isEmpty then .ok none else (checkedSum (knownTotals epochs)).map some

/-- A live total and whether some epoch of the dimension is unknown. -/
structure Live where
  total : Option ℕ
  unknownEpoch : Bool

def live (d : TokenDimension) (provisional : List Observation) : Except String Live := do
  let epochs ← epochTotals d provisional
  let total ← liveTotal epochs
  return ⟨total, epochs.any fun _ r => r.2.isNone⟩

/-- The total of one dimension: the final observation's value where it has one;
without it a positive live measurement stays as a lower bound. -/
def settledTotal (final : Option Observation) (d : TokenDimension) (live : Option ℕ) : Option ℕ :=
  match final with
  | none => live
  | some f =>
    match f.tokens.get d with
    | some v => some v
    | none => live.filter (0 < ·)

def finalBelowLive (final : Option Observation) (d : TokenDimension) (live : Option ℕ) : Bool :=
  match final.bind fun f => f.tokens.get d, live with
  | some v, some l => v < l
  | _, _ => false

/-- The dimension is declared unknown, or was not measured. -/
def requiredUnknown (d : TokenDimension) (o : Observation) : Bool :=
  o.unknownDimensions.contains (.tokens d) || (o.tokens.get d).isNone

/-- The projection of the ordered observations (`task_usage_observations.py:70-148`). -/
def projectOrdered (ordered : List Observation) : Except String SourceUsage := do
  let provisional := ordered.filter fun o => !o.final
  let final := ordered.reverse.find? fun o => o.final
  let input ← live .input provisional
  let output ← live .output provisional
  let cached ← live .cachedInput provisional
  let reasoning ← live .reasoningOutput provisional
  let inputTokens := settledTotal final .input input.total
  let outputTokens := settledTotal final .output output.total
  let below := finalBelowLive final .input input.total ||
    finalBelowLive final .output output.total ||
    finalBelowLive final .cachedInput cached.total ||
    finalBelowLive final .reasoningOutput reasoning.total
  let unknownRequired := match final with
    | some f => requiredUnknown .input f || requiredUnknown .output f
    | none => (provisional.any fun o => requiredUnknown .input o || requiredUnknown .output o) ||
        input.unknownEpoch || output.unknownEpoch
  let selected ← orRaise (final.or ordered.getLast?) "no observation"
  return {
    inputTokens := inputTokens
    outputTokens := outputTokens
    cachedInputTokens := settledTotal final .cachedInput cached.total
    reasoningOutputTokens := settledTotal final .reasoningOutput reasoning.total
    contextOccupiedTokens := selected.context.bind (·.occupiedTokens)
    contextCapacityTokens := selected.context.bind (·.capacityTokens)
    compactionCount := selected.context.bind (·.compactionCount)
    completeness := if inputTokens.isNone && outputTokens.isNone then .unknown
      else if unknownRequired then .lowerBound else .complete
    final := final.isSome
    finalStatus := final.bind (·.finalStatus)
    eventId := some selected.eventId
    sequence := selected.sequence
    disagreements := (if below then ["final_below_live"] else []) ++
      if 1 < (ordered.filter fun o => o.final).length then ["multiple_finals"] else [] }

/-- `project_source` (`task_usage_observations.py:47-148`). -/
def projectSource (observations : List Observation) : Except String SourceUsage :=
  match observations with
  | [] => .ok unknownUsage
  | first :: _ => do
    let seen ← observations.foldlM (ingestStep first.binding) []
    projectOrdered (bySequence seen)

/- The first loop: what it accepts is a property of the set of observations. -/

structure Consistent (binding : WorkUnitBinding) (l : List Observation) : Prop where
  binding : ∀ x ∈ l, x.binding = binding
  event : ∀ x ∈ l, ∀ y ∈ l, x.eventId = y.eventId → x = y
  sequence : ∀ x ∈ l, ∀ y ∈ l, x.sequence = y.sequence → x = y

theorem Consistent.subset {b : WorkUnitBinding} {l m : List Observation} (h : Consistent b l)
    (hm : ∀ x ∈ m, x ∈ l) : Consistent b m where
  binding := fun x hx => h.binding x (hm x hx)
  event := fun x hx y hy => h.event x (hm x hx) y (hm y hy)
  sequence := fun x hx y hy => h.sequence x (hm x hx) y (hm y hy)

/- A key that tells the observations apart still does with one that has a new key. -/
theorem injective_snoc {β : Type} (key : Observation → β) (seen : List Observation)
    (item : Observation) (hinj : ∀ x ∈ seen, ∀ y ∈ seen, key x = key y → x = y)
    (hnew : ∀ x ∈ seen, key x ≠ key item) :
    ∀ x ∈ seen ++ [item], ∀ y ∈ seen ++ [item], key x = key y → x = y := by
  intro x hx y hy hxy
  rw [List.mem_append, List.mem_singleton] at hx hy
  rcases hx with hx | rfl
  · rcases hy with hy | rfl
    · exact hinj x hx y hy hxy
    · exact absurd hxy (hnew x hx)
  · rcases hy with hy | rfl
    · exact absurd hxy.symm (hnew y hy)
    · rfl

theorem ingestStep_eq_ok (b : WorkUnitBinding) (seen seen' : List Observation) (item : Observation)
    (hs : Consistent b seen) (hn : seen.Nodup) (h : ingestStep b seen item = .ok seen') :
    Consistent b seen' ∧ seen'.Nodup ∧ ∀ x, x ∈ seen' ↔ x ∈ seen ∨ x = item := by
  unfold ingestStep at h
  split at h
  · cases h
  · next hb =>
    have hb' : item.binding = b := not_not.mp hb
    split at h
    · next prior hfind =>
      split at h
      · cases h
      · next heq =>
        cases h
        have hmem : item ∈ seen := by
          rw [← not_not.mp heq]
          exact List.mem_of_find?_eq_some hfind
        refine ⟨hs, hn, ?_⟩
        intro x
        constructor
        · exact Or.inl
        · rintro (hx | rfl)
          · exact hx
          · exact hmem
    · next hfind =>
      split at h
      · cases h
      · next hseq =>
        cases h
        have hev : ∀ x ∈ seen, x.eventId ≠ item.eventId := by
          simpa [List.find?_eq_none] using hfind
        have hsq : ∀ x ∈ seen, x.sequence ≠ item.sequence := by
          simpa using hseq
        have hmem : ∀ x, x ∈ seen ++ [item] ↔ x ∈ seen ∨ x = item := by simp
        refine ⟨⟨?_, ?_, ?_⟩, ?_, hmem⟩
        · intro x hx
          rcases (hmem x).mp hx with hx | rfl
          · exact hs.binding x hx
          · exact hb'
        · exact injective_snoc Observation.eventId seen item hs.event hev
        · exact injective_snoc Observation.sequence seen item hs.sequence hsq
        · have hnot : item ∉ seen := fun hx => hev item hx rfl
          rw [List.nodup_append]
          exact ⟨hn, List.nodup_singleton _, fun x hx y hy hxy => by
            rw [List.mem_singleton.mp hy] at hxy
            exact hnot (hxy ▸ hx)⟩

theorem ingestStep_accepts (b : WorkUnitBinding) (seen : List Observation) (item : Observation)
    (h : Consistent b (item :: seen)) : ∃ seen', ingestStep b seen item = .ok seen' := by
  have hself : item ∈ item :: seen := List.mem_cons_self
  have hb : item.binding = b := h.binding item hself
  unfold ingestStep
  rw [if_neg (not_not.mpr hb)]
  split
  · next prior hfind =>
    have hmem : prior ∈ item :: seen := List.mem_cons_of_mem _ (List.mem_of_find?_eq_some hfind)
    have hev : prior.eventId = item.eventId := by simpa using List.find?_some hfind
    rw [if_neg (not_not.mpr (h.event prior hmem item hself hev))]
    exact ⟨seen, rfl⟩
  · next hfind =>
    have hev : ∀ x ∈ seen, x.eventId ≠ item.eventId := by
      simpa [List.find?_eq_none] using hfind
    have hsq : ¬ (seen.any fun o => o.sequence == item.sequence) = true := by
      rw [List.any_eq_true]
      rintro ⟨x, hx, hxs⟩
      have hxi : x = item :=
        h.sequence x (List.mem_cons_of_mem _ hx) item hself (by simpa using hxs)
      exact hev x hx (by rw [hxi])
    rw [if_neg hsq]
    exact ⟨_, rfl⟩

theorem ingest_eq_ok (b : WorkUnitBinding) (items seen seen' : List Observation)
    (hs : Consistent b seen) (hn : seen.Nodup) (h : items.foldlM (ingestStep b) seen = .ok seen') :
    Consistent b seen' ∧ seen'.Nodup ∧ ∀ x, x ∈ seen' ↔ x ∈ seen ∨ x ∈ items := by
  induction items generalizing seen with
  | nil =>
    cases h
    exact ⟨hs, hn, by simp⟩
  | cons item items ih =>
    rw [List.foldlM_cons, bind_eq_ok] at h
    obtain ⟨mid, hmid, h⟩ := h
    obtain ⟨hc, hn', hmem⟩ := ingestStep_eq_ok b seen mid item hs hn hmid
    obtain ⟨hc', hn'', hmem'⟩ := ih mid hc hn' h
    refine ⟨hc', hn'', ?_⟩
    intro x
    rw [hmem', hmem, List.mem_cons, or_assoc]

theorem ingest_accepts (b : WorkUnitBinding) (items seen : List Observation) (hn : seen.Nodup)
    (h : Consistent b (seen ++ items)) : ∃ seen', items.foldlM (ingestStep b) seen = .ok seen' := by
  induction items generalizing seen with
  | nil => exact ⟨seen, rfl⟩
  | cons item items ih =>
    have hstep : Consistent b (item :: seen) := h.subset (by simp; tauto)
    have hseen : Consistent b seen := h.subset (by simp; tauto)
    obtain ⟨mid, hmid⟩ := ingestStep_accepts b seen item hstep
    obtain ⟨-, hn', hmem⟩ := ingestStep_eq_ok b seen mid item hseen hn hmid
    have hrest : Consistent b (mid ++ items) := by
      apply h.subset
      intro x hx
      rw [List.mem_append, hmem] at hx
      rw [List.mem_append, List.mem_cons]
      tauto
    obtain ⟨seen', hs'⟩ := ih mid hn' hrest
    exact ⟨seen', by rw [List.foldlM_cons, hmid]; exact hs'⟩

theorem pairwise_bySequence (l : List Observation) :
    (bySequence l).Pairwise fun a b => a.sequence ≤ b.sequence := by
  have htotal : Std.Total fun a b : Observation => a.sequence ≤ b.sequence :=
    ⟨fun a b => Nat.le_total a.sequence b.sequence⟩
  have htrans : IsTrans Observation fun a b => a.sequence ≤ b.sequence :=
    ⟨fun a b c => Nat.le_trans⟩
  exact List.pairwise_insertionSort _ l

/- Distinct observations with distinct sequence numbers have one order. -/
theorem bySequence_congr (b : WorkUnitBinding) (l m : List Observation) (hc : Consistent b l)
    (hl : l.Nodup) (hm : m.Nodup) (h : ∀ x, x ∈ l ↔ x ∈ m) : bySequence l = bySequence m := by
  have hperm : (bySequence l).Perm (bySequence m) :=
    (List.perm_insertionSort _ l).trans
      (((List.perm_ext_iff_of_nodup hl hm).mpr h).trans (List.perm_insertionSort _ m).symm)
  apply hperm.eq_of_pairwise
  · intro x y hx hy hxy hyx
    have hx' : x ∈ l := (List.perm_insertionSort _ l).mem_iff.mp hx
    have hy' : y ∈ l := (h y).mpr ((List.perm_insertionSort _ m).mem_iff.mp hy)
    exact hc.sequence x hx' y hy' (Nat.le_antisymm hxy hyx)
  · exact pairwise_bySequence l
  · exact pairwise_bySequence m

theorem consistent_nil (b : WorkUnitBinding) : Consistent b [] :=
  ⟨by simp, by simp, by simp⟩

/-- A list that is accepted at all has one ordered form. -/
theorem projectSource_eq_ok (obs : List Observation) (u : SourceUsage) (hne : obs ≠ []) :
    projectSource obs = .ok u ↔ ∃ b seen, Consistent b obs ∧ seen.Nodup ∧
      (∀ x, x ∈ seen ↔ x ∈ obs) ∧ projectOrdered (bySequence seen) = .ok u := by
  cases obs with
  | nil => exact absurd rfl hne
  | cons first rest =>
    simp only [projectSource, bind_eq_ok]
    constructor
    · rintro ⟨seen, hseen, hu⟩
      obtain ⟨hc, hn, hmem⟩ := ingest_eq_ok _ _ _ _ (consistent_nil _) List.nodup_nil hseen
      have hmem' : ∀ x, x ∈ seen ↔ x ∈ first :: rest := by simpa using hmem
      exact ⟨first.binding, seen, hc.subset fun x hx => (hmem' x).mpr hx, hn, hmem', hu⟩
    · rintro ⟨b, seen, hc, hn, hmem, hu⟩
      have hb : first.binding = b := hc.binding first List.mem_cons_self
      obtain ⟨seen', hs'⟩ := ingest_accepts b (first :: rest) [] List.nodup_nil (by simpa using hc)
      obtain ⟨-, hn', hmem'⟩ := ingest_eq_ok _ _ _ _ (consistent_nil _) List.nodup_nil hs'
      have hsame : bySequence seen' = bySequence seen := by
        refine bySequence_congr b seen' seen ?_ hn' hn ?_
        · exact hc.subset fun x hx => by simpa using (hmem' x).mp hx
        · intro x
          rw [hmem', hmem]
          simp
      exact ⟨seen', by rw [hb]; exact hs', by rw [hsame]; exact hu⟩

/- Only the set of observations matters. -/
theorem projectSource_same (obs obs' : List Observation) (u : SourceUsage)
    (h : ∀ x, x ∈ obs ↔ x ∈ obs') (hu : projectSource obs = .ok u) : projectSource obs' = .ok u := by
  by_cases hne : obs = []
  · have hne' : obs' = [] := by
      rw [List.eq_nil_iff_forall_not_mem]
      intro x hx
      have := (h x).mpr hx
      rw [hne] at this
      cases this
    rw [hne']
    rwa [hne] at hu
  · have hne' : obs' ≠ [] := by
      obtain ⟨x, hx⟩ := List.exists_mem_of_ne_nil obs hne
      exact List.ne_nil_of_mem ((h x).mp hx)
    obtain ⟨b, seen, hc, hn, hmem, hp⟩ := (projectSource_eq_ok obs u hne).mp hu
    rw [projectSource_eq_ok obs' u hne']
    exact ⟨b, seen, hc.subset fun x hx => (h x).mpr hx, hn, fun x => (hmem x).trans (h x), hp⟩

theorem toOption_congr {ε α : Type} (x y : Except ε α) (h : ∀ a, x = .ok a ↔ y = .ok a) :
    x.toOption = y.toOption := by
  cases x with
  | ok a =>
    rw [(h a).mp rfl]
  | error e =>
    cases y with
    | ok a => exact absurd ((h a).mpr rfl) (by simp)
    | error e' => rfl

theorem projectSource_toOption (obs obs' : List Observation) (h : ∀ x, x ∈ obs ↔ x ∈ obs') :
    (projectSource obs).toOption = (projectSource obs').toOption := by
  apply toOption_congr
  intro u
  exact ⟨projectSource_same obs obs' u h, projectSource_same obs' obs u fun x => (h x).symm⟩

/-! ## Live totals -/

/-- A known value stays known and does not decrease. -/
def Grows (a b : Option ℕ) : Prop := ∀ v, a = some v → ∃ v', b = some v' ∧ v ≤ v'

theorem Grows.refl (a : Option ℕ) : Grows a a := fun v h => ⟨v, h, Nat.le_refl v⟩

theorem grows_none (b : Option ℕ) : Grows none b := fun v h => by cases h

/-- The total of an epoch after one more observation of its kind. -/
def epochTotal : CounterKind → Option ℕ → Option ℕ → Option ℕ
  | .delta, some value, current => some (current.getD 0 + value)
  | .cumulative, some value, _ => some value
  | _, none, current => current

/-- What a turn of the loop does to the epochs, read key by key. -/
theorem epochStep_eq_ok (d : TokenDimension) (e e' : Epochs) (item : Observation)
    (h : epochStep d e item = .ok e') :
    (∀ p, e.get item.counterEpoch = some p → p.1 = item.counterKind) ∧
      Grows ((e.get item.counterEpoch).bind Prod.snd)
        (epochTotal item.counterKind (item.tokens.get d)
          ((e.get item.counterEpoch).bind Prod.snd)) ∧
      ∀ k, e'.get k = if k = item.counterEpoch then
        some (item.counterKind, epochTotal item.counterKind (item.tokens.get d)
          ((e.get item.counterEpoch).bind Prod.snd)) else e.get k := by
  unfold epochStep at h
  simp only at h
  split at h
  · cases h
  · next hkind =>
    have hk : ∀ p, e.get item.counterEpoch = some p → p.1 = item.counterKind := by
      intro p hp
      simpa [hp] using hkind
    refine ⟨hk, ?_⟩
    split at h
    · next value hck hval =>
      rw [bind_eq_ok] at h
      obtain ⟨total, ht, h⟩ := h
      cases h
      have htotal : total = ((e.get item.counterEpoch).bind Prod.snd).getD 0 + value := by
        unfold checkedSum at ht
        split at ht
        · cases ht
        · cases ht
          simp
      rw [hck, hval]
      subst htotal
      refine ⟨?_, fun k => Table.get_put _ _ _ _⟩
      intro v hv
      exact ⟨_, rfl, by rw [hv]; exact Nat.le_add_right v value⟩
    · next hck hval =>
      cases h
      rw [hck, hval]
      exact ⟨Grows.refl _, fun k => Table.get_put _ _ _ _⟩
    · next value hck hval =>
      split at h
      · cases h
      · next hdec =>
        cases h
        rw [hck, hval]
        refine ⟨?_, fun k => Table.get_put _ _ _ _⟩
        intro v hv
        rw [hv] at hdec
        exact ⟨value, rfl, by simpa using hdec⟩
    · next hck hval =>
      rw [hck, hval]
      split at h
      · next hnone =>
        cases h
        have hprior : e.get item.counterEpoch = none := by simpa using hnone
        rw [hprior]
        exact ⟨Grows.refl _, fun k => Table.get_put _ _ _ _⟩
      · next hsome =>
        cases h
        refine ⟨Grows.refl _, ?_⟩
        intro k
        split
        · next hke =>
          subst hke
          cases hp : e.get item.counterEpoch with
          | none => simp [hp] at hsome
          | some p =>
            have := hk p hp
            rw [hck] at this
            simp [epochTotal, ← this]
        · rfl

/-- Every epoch of the one table is in the other, of the same kind, and with at
least its total. -/
def Dominated (e e' : Epochs) : Prop :=
  ∀ k p, e.get k = some p → ∃ p', e'.get k = some p' ∧ p'.1 = p.1 ∧ Grows p.2 p'.2

theorem Dominated.current {e e' : Epochs} (h : Dominated e e') (k : String) :
    Grows ((e.get k).bind Prod.snd) ((e'.get k).bind Prod.snd) := by
  cases he : e.get k with
  | none => exact grows_none _
  | some p =>
    obtain ⟨p', hp', -, hg⟩ := h k p he
    rw [hp']
    exact hg

theorem epochTotal_mono (kind : CounterKind) (value a b : Option ℕ) (h : Grows a b) :
    Grows (epochTotal kind value a) (epochTotal kind value b) := by
  cases value with
  | none => cases kind <;> exact h
  | some x =>
    cases kind with
    | cumulative => exact Grows.refl _
    | delta =>
      intro v hv
      cases hv
      refine ⟨_, rfl, ?_⟩
      cases a with
      | none => simp
      | some va =>
        obtain ⟨vb, hb, hle⟩ := h va rfl
        rw [hb]
        simpa using hle

theorem epochStep_dominated (d : TokenDimension) (e e' : Epochs) (item : Observation)
    (h : epochStep d e item = .ok e') : Dominated e e' := by
  obtain ⟨hkind, hgrows, hget⟩ := epochStep_eq_ok d e e' item h
  intro k p hp
  rw [hget]
  split
  · next hk =>
    subst hk
    rw [hp] at hgrows ⊢
    exact ⟨_, rfl, (hkind p hp).symm, hgrows⟩
  · exact ⟨p, hp, rfl, Grows.refl _⟩

theorem epochStep_mono (d : TokenDimension) (e e' f f' : Epochs) (item : Observation)
    (hd : Dominated e e') (h : epochStep d e item = .ok f) (h' : epochStep d e' item = .ok f') :
    Dominated f f' := by
  obtain ⟨-, -, hget⟩ := epochStep_eq_ok d e f item h
  obtain ⟨-, -, hget'⟩ := epochStep_eq_ok d e' f' item h'
  intro k p hp
  rw [hget] at hp
  rw [hget']
  split at hp
  · next hk =>
    cases hp
    rw [if_pos hk]
    exact ⟨_, rfl, rfl, epochTotal_mono _ _ _ _ (hd.current _)⟩
  · next hk =>
    rw [if_neg hk]
    exact hd k p hp

theorem epochFold_mono (d : TokenDimension) (items : List Observation) (e e' f f' : Epochs)
    (hd : Dominated e e') (h : items.foldlM (epochStep d) e = .ok f)
    (h' : items.foldlM (epochStep d) e' = .ok f') : Dominated f f' := by
  induction items generalizing e e' with
  | nil =>
    cases h
    cases h'
    exact hd
  | cons item items ih =>
    rw [List.foldlM_cons, bind_eq_ok] at h h'
    obtain ⟨g, hg, h⟩ := h
    obtain ⟨g', hg', h'⟩ := h'
    exact ih g g' (epochStep_mono d e e' g g' item hd hg hg') h h'

/- One more observation, anywhere in the order. -/
theorem epochTotals_insert (d : TokenDimension) (l m : List Observation) (o : Observation)
    (f f' : Epochs) (h : epochTotals d (l ++ m) = .ok f) (h' : epochTotals d (l ++ o :: m) = .ok f') :
    Dominated f f' := by
  unfold epochTotals at h h'
  rw [List.foldlM_append, bind_eq_ok] at h h'
  obtain ⟨e, he, h⟩ := h
  obtain ⟨e', he', h'⟩ := h'
  cases he.symm.trans he'
  rw [List.foldlM_cons, bind_eq_ok] at h'
  obtain ⟨g, hg, h'⟩ := h'
  exact epochFold_mono d m e g f f' (epochStep_dominated d e g o hg) h h'

theorem knownTotals_sum (e : Epochs) :
    (knownTotals e).sum = e.total fun _ r => r.2.getD 0 := by
  unfold knownTotals Table.total
  induction e.rows with
  | nil => rfl
  | cons r rows ih =>
    cases hr : r.2.2 with
    | none => simp [hr, ih]
    | some v => simp [hr, ih]

theorem knownTotals_mem (e : Epochs) (v : ℕ) :
    v ∈ knownTotals e ↔ ∃ k p, e.get k = some p ∧ p.2 = some v := by
  rw [knownTotals, List.mem_filterMap]
  constructor
  · rintro ⟨⟨k, p⟩, hmem, hp⟩
    exact ⟨k, p, (Table.mem_rows_iff _ _ _).mp hmem, hp⟩
  · rintro ⟨k, p, hget, hp⟩
    exact ⟨(k, p), (Table.mem_rows_iff _ _ _).mpr hget, hp⟩

theorem knownTotals_sum_le (e e' : Epochs) (h : Dominated e e') :
    (knownTotals e).sum ≤ (knownTotals e').sum := by
  rw [knownTotals_sum, knownTotals_sum]
  apply Table.total_mono
  intro k p hp
  obtain ⟨p', hp', -, hg⟩ := h k p hp
  refine ⟨p', hp', ?_⟩
  cases hv : p.2 with
  | none => simp
  | some v =>
    obtain ⟨v', hv', hle⟩ := hg v hv
    simpa [hv'] using hle

theorem liveTotal_eq_ok (e : Epochs) (t : Option ℕ) (h : liveTotal e = .ok t) :
    t = if knownTotals e = [] then none else some (knownTotals e).sum := by
  unfold liveTotal at h
  split at h
  · next hempty =>
    cases h
    rw [if_pos (List.isEmpty_iff.mp hempty)]
  · next hne =>
    rw [map_eq_ok] at h
    obtain ⟨total, ht, rfl⟩ := h
    unfold checkedSum at ht
    split at ht
    · cases ht
    · cases ht
      rw [if_neg fun hc => hne (List.isEmpty_iff.mpr hc)]

theorem liveTotal_grows (e e' : Epochs) (t t' : Option ℕ) (hd : Dominated e e')
    (h : liveTotal e = .ok t) (h' : liveTotal e' = .ok t') : Grows t t' := by
  rw [liveTotal_eq_ok e t h, liveTotal_eq_ok e' t' h']
  intro v hv
  split at hv
  · cases hv
  · next hne =>
    cases hv
    obtain ⟨x, hx⟩ := List.exists_mem_of_ne_nil _ hne
    obtain ⟨k, p, hp, hpx⟩ := (knownTotals_mem e x).mp hx
    obtain ⟨p', hp', -, hg⟩ := hd k p hp
    obtain ⟨x', hx', -⟩ := hg x hpx
    have hmem : x' ∈ knownTotals e' := (knownTotals_mem e' x').mpr ⟨k, p', hp', hx'⟩
    rw [if_neg (List.ne_nil_of_mem hmem)]
    exact ⟨_, rfl, knownTotals_sum_le e e' hd⟩

theorem live_grows (d : TokenDimension) (l m : List Observation) (o : Observation) (t t' : Live)
    (h : live d (l ++ m) = .ok t) (h' : live d (l ++ o :: m) = .ok t') : Grows t.total t'.total := by
  unfold live at h h'
  rw [bind_eq_ok] at h h'
  obtain ⟨e, he, h⟩ := h
  obtain ⟨e', he', h'⟩ := h'
  rw [bind_eq_ok] at h h'
  obtain ⟨total, htotal, h⟩ := h
  obtain ⟨total', htotal', h'⟩ := h'
  cases h
  cases h'
  exact liveTotal_grows e e' total total' (epochTotals_insert d l m o e e' he he') htotal htotal'

/- Without a final observation the totals are the live totals. -/
theorem projectOrdered_live (ordered : List Observation) (u : SourceUsage)
    (hlive : ∀ x ∈ ordered, x.final = false) (h : projectOrdered ordered = .ok u) :
    ∃ i o, live .input ordered = .ok i ∧ live .output ordered = .ok o ∧
      u.inputTokens = i.total ∧ u.outputTokens = o.total := by
  have hprov : (ordered.filter fun x => !x.final) = ordered := by
    rw [List.filter_eq_self]
    intro x hx
    rw [hlive x hx]
    rfl
  have hfinal : (ordered.reverse.find? fun x => x.final) = none := by
    rw [List.find?_eq_none]
    intro x hx
    rw [hlive x (List.mem_reverse.mp hx)]
    exact Bool.false_ne_true
  unfold projectOrdered at h
  rw [hprov, hfinal] at h
  simp only [bind_eq_ok] at h
  obtain ⟨i, hi, o, ho, c, -, r, -, selected, -, h⟩ := h
  cases h
  exact ⟨i, o, hi, ho, rfl, rfl⟩

theorem projectOrdered_grows (l m : List Observation) (o : Observation) (u u' : SourceUsage)
    (hlive : ∀ x ∈ l ++ o :: m, x.final = false) (h : projectOrdered (l ++ m) = .ok u)
    (h' : projectOrdered (l ++ o :: m) = .ok u') :
    Grows u.inputTokens u'.inputTokens ∧ Grows u.outputTokens u'.outputTokens := by
  have hlive' : ∀ x ∈ l ++ m, x.final = false := by
    intro x hx
    apply hlive x
    rw [List.mem_append] at hx ⊢
    exact hx.imp id (List.mem_cons_of_mem o)
  obtain ⟨i, t, hi, ht, hui, hut⟩ := projectOrdered_live (l ++ m) u hlive' h
  obtain ⟨i', t', hi', ht', hui', hut'⟩ := projectOrdered_live (l ++ o :: m) u' hlive h'
  rw [hui, hut, hui', hut']
  exact ⟨live_grows .input l m o i i' hi hi', live_grows .output l m o t t' ht ht'⟩

/- The order of the observations with one more of them. -/
theorem bySequence_insert (seen : List Observation) (o : Observation) :
    ∃ l m, bySequence seen = l ++ m ∧ bySequence (o :: seen) = l ++ o :: m := by
  refine ⟨_, _, (List.takeWhile_append_dropWhile
    (p := fun b : Observation => ¬ o.sequence ≤ b.sequence)).symm, ?_⟩
  exact List.insertionSort_cons_eq_take_drop _ o seen

theorem projectSource_grows (l m : List Observation) (o : Observation) (u u' : SourceUsage)
    (hlive : ∀ x ∈ l ++ o :: m, x.final = false) (h : projectSource (l ++ m) = .ok u)
    (h' : projectSource (l ++ o :: m) = .ok u') :
    Grows u.inputTokens u'.inputTokens ∧ Grows u.outputTokens u'.outputTokens := by
  have hmem : ∀ x, x ∈ l ++ o :: m ↔ x = o ∨ x ∈ l ++ m := by
    intro x
    simp only [List.mem_append, List.mem_cons]
    tauto
  by_cases hold : o ∈ l ++ m
  · -- a replayed observation changes nothing
    have hsame : projectSource (l ++ o :: m) = .ok u := by
      apply projectSource_same (l ++ m) _ u _ h
      intro x
      rw [hmem]
      constructor
      · exact Or.inr
      · rintro (rfl | hx)
        · exact hold
        · exact hx
    cases hsame.symm.trans h'
    exact ⟨Grows.refl _, Grows.refl _⟩
  · by_cases hne : l ++ m = []
    · rw [hne] at h
      cases h
      exact ⟨grows_none _, grows_none _⟩
    · have hne' : l ++ o :: m ≠ [] := List.append_ne_nil_of_right_ne_nil _ (List.cons_ne_nil _ _)
      obtain ⟨b, seen, -, hn, hs, hp⟩ := (projectSource_eq_ok _ u hne).mp h
      obtain ⟨b', seen', hc', hn', hs', hp'⟩ := (projectSource_eq_ok _ u' hne').mp h'
      have hnot : o ∉ seen := fun hx => hold ((hs o).mp hx)
      have horder : bySequence seen' = bySequence (o :: seen) := by
        refine bySequence_congr b' seen' (o :: seen) ?_ hn' (List.nodup_cons.mpr ⟨hnot, hn⟩) ?_
        · exact hc'.subset fun x hx => (hs' x).mp hx
        · intro x
          rw [hs', hmem, List.mem_cons, hs]
      obtain ⟨p, q, hpq, hins⟩ := bySequence_insert seen o
      rw [hpq] at hp
      rw [horder, hins] at hp'
      apply projectOrdered_grows p q o u u' _ hp hp'
      intro x hx
      apply hlive x
      rw [← hins] at hx
      have hx' := (List.perm_insertionSort _ (o :: seen)).mem_iff.mp hx
      rw [List.mem_cons, hs] at hx'
      exact (hmem x).mpr hx'

/-- The projection gives the same result on every permutation and on every
duplication of its observations, and before a final observation a further live
one that is accepted never lowers a known total or makes it unknown. -/
theorem projectSource_stable (obs : List Observation) :
    (∀ obs', obs'.Perm obs → (projectSource obs').toOption = (projectSource obs).toOption) ∧
    (∀ l m o, obs = l ++ m → o ∈ obs →
      (projectSource (l ++ o :: m)).toOption = (projectSource obs).toOption) ∧
    ∀ l m o u u', obs = l ++ m → (∀ x ∈ l ++ o :: m, x.final = false) →
      projectSource obs = .ok u → projectSource (l ++ o :: m) = .ok u' →
      Grows u.inputTokens u'.inputTokens ∧ Grows u.outputTokens u'.outputTokens := by
  refine ⟨?_, ?_, ?_⟩
  · intro obs' hperm
    exact projectSource_toOption obs' obs fun x => hperm.mem_iff
  · rintro l m o rfl ho
    apply projectSource_toOption
    intro x
    rw [List.mem_append] at ho
    simp only [List.mem_append, List.mem_cons]
    constructor
    · rintro (hx | rfl | hx)
      · exact Or.inl hx
      · exact ho
      · exact Or.inr hx
    · rintro (hx | hx)
      · exact Or.inl hx
      · exact Or.inr (Or.inr hx)
  · rintro l m o u u' rfl hlive h h'
    exact projectSource_grows l m o u u' hlive h h'

end ParallelForge.Usage
