import ParallelForge.Base.Table
import ParallelForge.Usage.Observation
import Mathlib.Algebra.BigOperators.Group.List.Basic
import Mathlib.Algebra.GroupWithZero.Nat
import Mathlib.Data.List.Dedup
import Mathlib.Data.List.Lex
import Mathlib.Data.List.Sort
import Mathlib.Data.Prod.Lex
import Mathlib.Data.String.Basic
import Mathlib.Order.Lattice.Nat

/-!
# The breakdown of a baseline (`domain/task_usage_baselines.py:391-409`)

The parts of all samples are added up for each pair of a phase and a role. A pair with an
unknown part has no total, nor has one whose total does not fit; what was added before or
comes later does not bring it back.
-/

namespace ParallelForge.Usage
open Base

/-- The phase and the role, as they sort. -/
abbrev PhaseRole := String ×ₗ String

/-- A part of `phase_role_breakdown`; an amount that is `none` is unknown. -/
structure UsagePart where
  phase : String
  role : String
  amount : Option ℕ
  deriving DecidableEq, Repr

def UsagePart.key (part : UsagePart) : PhaseRole := toLex (part.phase, part.role)

/-- `BaselineSample`, with what the breakdown reads of it. -/
structure SampleParts where
  phaseRoleBreakdown : List UsagePart
  amounts_ok : (phaseRoleBreakdown.all fun part => part.amount.all (· ≤ maxSignedBigint)) = true

/-- `totals` and `unknown`. -/
structure Tally where
  totals : Table PhaseRole ℕ
  unknown : List PhaseRole

namespace Tally

def start : Tally := ⟨Table.empty, []⟩

/-- A turn of the inner loop of `_breakdown`. -/
def add (tally : Tally) (part : UsagePart) : Tally :=
  match part.amount with
  | none => { tally with unknown := part.key :: tally.unknown }
  | some amount =>
    let total := (tally.totals.get part.key).getD 0 + amount
    if maxSignedBigint < total then { tally with unknown := part.key :: tally.unknown }
    else { tally with totals := tally.totals.put part.key total }

/-- `set(totals) | unknown`. -/
def keys (tally : Tally) : List PhaseRole := (tally.totals.rows.map Prod.fst ++ tally.unknown).dedup

def entry (tally : Tally) (key : PhaseRole) : UsagePart :=
  ⟨(ofLex key).1, (ofLex key).2,
    if key ∈ tally.unknown then none else some ((tally.totals.get key).getD 0)⟩

end Tally

/-- `_breakdown`. -/
def breakdown (samples : List SampleParts) : List UsagePart :=
  let tally := (samples.map SampleParts.phaseRoleBreakdown).foldl (List.foldl Tally.add) Tally.start
  (tally.keys.insertionSort (· ≤ ·)).map tally.entry

/-! ### What is added up -/

def partsOf (samples : List SampleParts) : List UsagePart := samples.flatMap SampleParts.phaseRoleBreakdown

/-- The known amounts of a pair. -/
def amountsOf (key : PhaseRole) (parts : List UsagePart) : List ℕ :=
  (parts.filter fun part => part.key = key).filterMap UsagePart.amount

def UnknownPart (key : PhaseRole) (parts : List UsagePart) : Prop :=
  ∃ part ∈ parts, part.key = key ∧ part.amount = none

theorem amountsOf_append (key : PhaseRole) (done : List UsagePart) (part : UsagePart) :
    amountsOf key (done ++ [part]) =
      amountsOf key done ++ if part.key = key then part.amount.toList else [] := by
  rw [amountsOf, List.filter_append, List.filterMap_append, amountsOf]
  congr 1
  by_cases hkey : part.key = key
  · rw [if_pos hkey, List.filter_singleton, decide_eq_true hkey]
    cases hamount : part.amount <;> simp [hamount]
  · rw [if_neg hkey, List.filter_singleton, decide_eq_false hkey]
    rfl

theorem unknownPart_append (key : PhaseRole) (done : List UsagePart) (part : UsagePart) :
    UnknownPart key (done ++ [part]) ↔ UnknownPart key done ∨ part.key = key ∧ part.amount = none := by
  unfold UnknownPart
  constructor
  · rintro ⟨p, hp, hkey, hnone⟩
    rcases List.mem_append.mp hp with hp | hp
    · exact Or.inl ⟨p, hp, hkey, hnone⟩
    · rw [List.mem_singleton] at hp
      subst hp
      exact Or.inr ⟨hkey, hnone⟩
  · rintro (⟨p, hp, hkey, hnone⟩ | ⟨hkey, hnone⟩)
    · exact ⟨p, List.mem_append_left _ hp, hkey, hnone⟩
    · exact ⟨part, by simp, hkey, hnone⟩

/-- The tally of the parts so far: a total is exact as long as its pair is not unknown, and a pair is unknown
exactly for one of the two reasons. -/
structure Tallied (parts : List UsagePart) (tally : Tally) : Prop where
  unknown : ∀ key, key ∈ tally.unknown ↔ UnknownPart key parts ∨ maxSignedBigint < (amountsOf key parts).sum
  total : ∀ key, key ∉ tally.unknown → (tally.totals.get key).getD 0 = (amountsOf key parts).sum
  bound : ∀ key, (tally.totals.get key).getD 0 ≤ (amountsOf key parts).sum
  keys : ∀ key, ((tally.totals.get key).isSome ∨ key ∈ tally.unknown) ↔ ∃ part ∈ parts, part.key = key

theorem tallied_start : Tallied [] Tally.start := by
  have hget : ∀ key, Tally.start.totals.get key = none := Table.get_empty
  refine ⟨?_, ?_, ?_, ?_⟩
  · intro key
    simp [Tally.start, UnknownPart, amountsOf]
  · intro key _
    rw [hget]
    rfl
  · intro key
    rw [hget]
    exact Nat.zero_le _
  · intro key
    rw [hget]
    simp [Tally.start]

/- An unknown part. -/
theorem tallied_unknown {done : List UsagePart} {tally : Tally} (h : Tallied done tally) {part : UsagePart}
    (hreason : part.amount = none ∨ maxSignedBigint < (amountsOf part.key (done ++ [part])).sum) :
    Tallied (done ++ [part]) { tally with unknown := part.key :: tally.unknown } := by
  have hother : ∀ key, part.key ≠ key → amountsOf key (done ++ [part]) = amountsOf key done := by
    intro key hkey
    rw [amountsOf_append, if_neg hkey, List.append_nil]
  have hgrows : ∀ key, (amountsOf key done).sum ≤ (amountsOf key (done ++ [part])).sum := by
    intro key
    rw [amountsOf_append, List.sum_append]
    exact Nat.le_add_right _ _
  refine ⟨?_, ?_, ?_, ?_⟩
  · intro key
    rw [List.mem_cons, h.unknown, unknownPart_append]
    by_cases hkey : part.key = key
    · subst hkey
      constructor
      · intro _
        rcases hreason with hnone | hover
        · exact Or.inl (Or.inr ⟨rfl, hnone⟩)
        · exact Or.inr hover
      · exact fun _ => Or.inl rfl
    · rw [hother key hkey]
      simp only [hkey, Ne.symm hkey, false_and, false_or, or_false]
  · intro key hkey
    rw [List.mem_cons, not_or] at hkey
    rw [hother key (Ne.symm hkey.1)]
    exact h.total key hkey.2
  · intro key
    exact (h.bound key).trans (hgrows key)
  · intro key
    rw [List.mem_cons, or_left_comm, h.keys]
    simp only [List.mem_append, List.mem_singleton, or_and_right, exists_or, exists_eq_left]
    rw [or_comm, eq_comm]

/- A total that fits. -/
theorem tallied_total {done : List UsagePart} {tally : Tally} (h : Tallied done tally) {part : UsagePart} {amount : ℕ}
    (hamount : part.amount = some amount)
    (hfits : (tally.totals.get part.key).getD 0 + amount ≤ maxSignedBigint) :
    Tallied (done ++ [part]) { tally with
      totals := tally.totals.put part.key ((tally.totals.get part.key).getD 0 + amount) } := by
  have hown : (amountsOf part.key (done ++ [part])).sum = (amountsOf part.key done).sum + amount := by
    rw [amountsOf_append, if_pos rfl, hamount, List.sum_append]
    rfl
  have hother : ∀ key, part.key ≠ key → amountsOf key (done ++ [part]) = amountsOf key done := by
    intro key hkey
    rw [amountsOf_append, if_neg hkey, List.append_nil]
  have hunknown : ∀ key, UnknownPart key (done ++ [part]) ↔ UnknownPart key done := by
    intro key
    rw [unknownPart_append, hamount]
    simp
  refine ⟨?_, ?_, ?_, ?_⟩
  · intro key
    rw [hunknown, h.unknown]
    by_cases hkey : part.key = key
    · subst hkey
      by_cases hlost : part.key ∈ tally.unknown
      · have hreason := (h.unknown _).mp hlost
        rw [hown]
        exact ⟨fun _ => hreason.imp_right fun hover => by omega, fun _ => hreason⟩
      · have htotal := h.total _ hlost
        have hreason : ¬ (UnknownPart part.key done ∨ maxSignedBigint < (amountsOf part.key done).sum) :=
          fun hr => hlost ((h.unknown _).mpr hr)
        rw [hown]
        constructor
        · exact fun hr => absurd hr hreason
        · rintro (hr | hr)
          · exact Or.inl hr
          · omega
    · rw [hother key hkey]
  · intro key hlost
    by_cases hkey : part.key = key
    · subst hkey
      rw [Table.get_put_self, hown, ← h.total _ hlost]
      rfl
    · rw [Table.get_put_ne _ _ (Ne.symm hkey), hother key hkey]
      exact h.total key hlost
  · intro key
    by_cases hkey : part.key = key
    · subst hkey
      have hbound := h.bound part.key
      rw [Table.get_put_self, hown, Option.getD_some]
      omega
    · rw [Table.get_put_ne _ _ (Ne.symm hkey), hother key hkey]
      exact h.bound key
  · intro key
    simp only [List.mem_append, List.mem_singleton, or_and_right, exists_or, exists_eq_left, ← h.keys]
    by_cases hkey : part.key = key
    · subst hkey
      rw [Table.get_put_self]
      simp
    · rw [Table.get_put_ne _ _ (Ne.symm hkey)]
      simp [hkey]

theorem tallied_add {done : List UsagePart} {tally : Tally} (h : Tallied done tally) (part : UsagePart) :
    Tallied (done ++ [part]) (tally.add part) := by
  unfold Tally.add
  cases hamount : part.amount with
  | none => exact tallied_unknown h (Or.inl hamount)
  | some amount =>
    simp only
    split
    · next hover =>
      apply tallied_unknown h
      have hbound := h.bound part.key
      rw [amountsOf_append, if_pos rfl, hamount, List.sum_append]
      show Or _ (_ < _ + amount)
      right
      omega
    · next hfits => exact tallied_total h hamount (by omega)

theorem tallied_foldl (parts : List UsagePart) {done : List UsagePart} {tally : Tally} (h : Tallied done tally) :
    Tallied (done ++ parts) (parts.foldl Tally.add tally) := by
  induction parts generalizing done tally with
  | nil =>
    rw [List.append_nil]
    exact h
  | cons part parts ih =>
    rw [List.append_cons]
    exact ih (tallied_add h part)

theorem tallied_breakdown (samples : List SampleParts) : Tallied (partsOf samples)
    ((samples.map SampleParts.phaseRoleBreakdown).foldl (List.foldl Tally.add) Tally.start) := by
  rw [← List.foldl_flatten, partsOf, List.flatMap_def]
  exact tallied_foldl _ tallied_start

/-! ### The breakdown -/

theorem mem_keys {parts : List UsagePart} {tally : Tally} (h : Tallied parts tally) (key : PhaseRole) :
    key ∈ tally.keys ↔ ∃ part ∈ parts, part.key = key := by
  have hrow : key ∈ tally.totals.rows.map Prod.fst ↔ (tally.totals.get key).isSome := by
    rw [Option.isSome_iff_exists, List.mem_map]
    constructor
    · rintro ⟨⟨k, total⟩, hmem, rfl⟩
      exact ⟨total, (tally.totals.mem_rows_iff k total).mp hmem⟩
    · rintro ⟨total, hget⟩
      exact ⟨(key, total), (tally.totals.mem_rows_iff key total).mpr hget, rfl⟩
  rw [Tally.keys, List.mem_dedup, List.mem_append, hrow, h.keys]

/- What a pair comes to. -/
theorem entry_amount {parts : List UsagePart} {tally : Tally} (h : Tallied parts tally) (key : PhaseRole) :
    ((tally.entry key).amount = none ↔ UnknownPart key parts ∨ maxSignedBigint < (amountsOf key parts).sum) ∧
    ∀ total, (tally.entry key).amount = some total → total = (amountsOf key parts).sum := by
  have hentry : (tally.entry key).amount =
      if key ∈ tally.unknown then none else some ((tally.totals.get key).getD 0) := rfl
  rw [← h.unknown, hentry]
  by_cases hlost : key ∈ tally.unknown
  · rw [if_pos hlost]
    exact ⟨⟨fun _ => hlost, fun _ => rfl⟩, fun total htotal => nomatch htotal⟩
  · rw [if_neg hlost, h.total key hlost]
    exact ⟨⟨(fun hsome => nomatch hsome), fun hmem => absurd hmem hlost⟩, fun total htotal =>
      (Option.some.inj htotal).symm⟩

/- Two tallies of the same parts in any order report the same. -/
theorem entry_perm {parts parts' : List UsagePart} {tally tally' : Tally} (h : Tallied parts tally)
    (h' : Tallied parts' tally') (hperm : parts.Perm parts') (key : PhaseRole) :
    tally.entry key = tally'.entry key := by
  have hsum : (amountsOf key parts).sum = (amountsOf key parts').sum :=
    ((hperm.filter _).filterMap _).sum_nat
  have hunknown : UnknownPart key parts ↔ UnknownPart key parts' := by
    unfold UnknownPart
    simp only [hperm.mem_iff]
  have hlost : key ∈ tally.unknown ↔ key ∈ tally'.unknown := by
    rw [h.unknown, h'.unknown, hsum, hunknown]
  rw [Tally.entry, Tally.entry]
  by_cases hmem : key ∈ tally.unknown
  · rw [if_pos hmem, if_pos (hlost.mp hmem)]
  · have hmem' := fun hmem' => hmem (hlost.mpr hmem')
    rw [if_neg hmem, if_neg hmem', h.total key hmem, h'.total key hmem', hsum]

theorem keys_perm {parts parts' : List UsagePart} {tally tally' : Tally} (h : Tallied parts tally)
    (h' : Tallied parts' tally') (hperm : parts.Perm parts') : tally.keys.Perm tally'.keys := by
  have hnodup : ∀ tally : Tally, tally.keys.Nodup := fun _ => List.nodup_dedup _
  rw [List.perm_ext_iff_of_nodup (hnodup tally) (hnodup tally')]
  intro key
  rw [mem_keys h, mem_keys h']
  simp only [hperm.mem_iff]

/-- A pair of the parts is reported once: without a total exactly where an amount is unknown or the sum does
not fit, else with the sum. The order of the parts does not matter. -/
theorem breakdown_exact (samples : List SampleParts) :
    (∀ phase role, (∃ part ∈ partsOf samples, part.phase = phase ∧ part.role = role) →
      ∃ amount, (∀ part, part ∈ breakdown samples ∧ part.phase = phase ∧ part.role = role ↔
          part = ⟨phase, role, amount⟩) ∧
        (amount = none ↔ UnknownPart (toLex (phase, role)) (partsOf samples) ∨
          maxSignedBigint < (amountsOf (toLex (phase, role)) (partsOf samples)).sum) ∧
        ∀ total, amount = some total → total = (amountsOf (toLex (phase, role)) (partsOf samples)).sum) ∧
    ∀ samples', (partsOf samples).Perm (partsOf samples') → breakdown samples = breakdown samples' := by
  have h := tallied_breakdown samples
  constructor
  · rintro phase role ⟨part, hpart, rfl, rfl⟩
    have hamount := entry_amount h part.key
    refine ⟨_, ?_, hamount⟩
    intro other
    rw [breakdown, List.mem_map]
    constructor
    · rintro ⟨⟨key, hkey, rfl⟩, hphase, hrole⟩
      have hsame : key = part.key := by
        rw [UsagePart.key, ← hphase, ← hrole]
        rfl
      rw [hsame]
      rfl
    · rintro rfl
      refine ⟨⟨part.key, ?_, rfl⟩, rfl, rfl⟩
      rw [List.mem_insertionSort, mem_keys h]
      exact ⟨part, hpart, rfl⟩
  · intro samples' hperm
    have h' := tallied_breakdown samples'
    rw [breakdown, breakdown]
    generalize (samples.map SampleParts.phaseRoleBreakdown).foldl (List.foldl Tally.add) Tally.start = tally at h ⊢
    generalize (samples'.map SampleParts.phaseRoleBreakdown).foldl (List.foldl Tally.add) Tally.start = tally' at h' ⊢
    have hkeys := keys_perm h h' hperm
    have hsorted : tally.keys.insertionSort (· ≤ ·) = tally'.keys.insertionSort (· ≤ ·) := by
      apply List.Perm.eq_of_pairwise' (List.pairwise_insertionSort _ _) (List.pairwise_insertionSort _ _)
      exact (List.perm_insertionSort _ _).trans (hkeys.trans (List.perm_insertionSort _ _).symm)
    rw [hsorted]
    exact List.map_congr_left fun key _ => entry_perm h h' hperm key

end ParallelForge.Usage
