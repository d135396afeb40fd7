import ParallelForge.Usage.Totals
import Mathlib.Algebra.Order.BigOperators.Group.List
import Mathlib.Algebra.Order.Ring.Nat
import Mathlib.Data.List.Dedup

/-!
# Cached and reasoning tokens as subsets

A report never measures more cached input than input, nor more reasoning than
output. A total and its subset are projected apart, so the relation survives
where both are taken from the same reports. Which reports a dimension is taken
from is stated without the projection, and so is what they add up to; the
projection is shown to say just that.
-/

namespace ParallelForge.Usage
open Base

/-! ## What the observations of a unit say -/

def provisional (ordered : List Observation) : List Observation := ordered.filter fun o => !o.final

def lastFinal (ordered : List Observation) : Option Observation :=
  ordered.reverse.find? fun o => o.final

def ofEpoch (epoch : String) (l : List Observation) : List Observation :=
  l.filter fun o => o.counterEpoch == epoch

/-- Increments are added, of running totals the largest counts. -/
def amountOf : CounterKind → List ℕ → ℕ
  | .delta, values => values.sum
  | .cumulative, values => values.foldr max 0

def valuesOf (d : TokenDimension) (l : List Observation) : List ℕ := l.map fun o => (o.tokens.get d).getD 0

/-- The tokens the reports of one epoch add up to. -/
def epochAmount (d : TokenDimension) (l : List Observation) : ℕ :=
  amountOf (if (l.any fun o => o.counterKind == .delta) = true then .delta else .cumulative) (valuesOf d l)

def reported (d : TokenDimension) (ordered : List Observation) : ℕ :=
  ((((provisional ordered).map (·.counterEpoch)).dedup).map fun e =>
    epochAmount d (ofEpoch e (provisional ordered))).sum

/-- The last final report where it measures the dimension, else the provisional ones. -/
def observed (d : TokenDimension) (ordered : List Observation) : ℕ :=
  ((lastFinal ordered).bind fun f => f.tokens.get d).getD (reported d ordered)

/-- The reports the tokens are taken from: the last final one where it measures the dimension,
else the provisional ones that do. A final report drops a live zero. -/
def counted (d : TokenDimension) (ordered : List Observation) : List Observation :=
  match lastFinal ordered with
  | some f =>
    if (f.tokens.get d).isSome = true then [f]
    else (provisional ordered).filter fun o => 0 < (o.tokens.get d).getD 0
  | none => (provisional ordered).filter fun o => (o.tokens.get d).isSome

inductive Subset : TokenDimension → TokenDimension → Prop
  | cached : Subset .cachedInput .input
  | reasoning : Subset .reasoningOutput .output

/-- The epochs after the observations `l`: an entry for each epoch they name, with its kind and
the amount they add up to. -/
structure Counts (d : TokenDimension) (l : List Observation) (e : Epochs) : Prop where
  named : ∀ k, (e.get k).isSome = true ↔ k ∈ l.map (·.counterEpoch)
  kind : ∀ k p, e.get k = some p → ∀ o ∈ ofEpoch k l, o.counterKind = p.1
  amount : ∀ k p, e.get k = some p → p.2.getD 0 = epochAmount d (ofEpoch k l)
  known : ∀ k p, e.get k = some p → (p.2.isSome = true ↔ ∃ o ∈ ofEpoch k l, (o.tokens.get d).isSome)

/- An epoch without an entry has no observations yet. -/
theorem Counts.absent {d : TokenDimension} {l : List Observation} {e : Epochs} (h : Counts d l e)
    (k : String) (hk : e.get k = none) : ofEpoch k l = [] := by
  rw [ofEpoch, List.filter_eq_nil_iff]
  intro x hx heq
  have hin : k ∈ l.map (·.counterEpoch) := List.mem_map.mpr ⟨x, hx, by simpa using heq⟩
  rw [← h.named, hk] at hin
  cases hin

/- The total of the epochs is what their reports add up to. -/
theorem Counts.sum {d : TokenDimension} {l : List Observation} {e : Epochs} (h : Counts d l e) :
    (knownTotals e).sum = (((l.map (·.counterEpoch)).dedup).map fun k =>
      epochAmount d (ofEpoch k l)).sum := by
  have hkeys : (e.rows.map Prod.fst).Perm (l.map (·.counterEpoch)).dedup := by
    rw [List.perm_ext_iff_of_nodup e.unique (List.nodup_dedup _)]
    intro k
    rw [List.mem_dedup, ← h.named k, Option.isSome_iff_exists, List.mem_map]
    constructor
    · rintro ⟨⟨k', p⟩, hmem, rfl⟩
      exact ⟨p, (Table.mem_rows_iff _ _ _).mp hmem⟩
    · rintro ⟨p, hp⟩
      exact ⟨(k, p), (Table.mem_rows_iff _ _ _).mpr hp, rfl⟩
  have hrows : e.rows.map (fun r => r.2.2.getD 0) =
      (e.rows.map Prod.fst).map fun k => epochAmount d (ofEpoch k l) := by
    rw [List.map_map]
    apply List.map_congr_left
    rintro ⟨k, p⟩ hmem
    exact h.amount k p ((Table.mem_rows_iff _ _ _).mp hmem)
  rw [knownTotals_sum, Table.total, hrows]
  exact (hkeys.map _).sum_eq

theorem Counts.unknown {d : TokenDimension} {l : List Observation} {e : Epochs} (h : Counts d l e) :
    knownTotals e = [] ↔ ∀ o ∈ l, o.tokens.get d = none := by
  constructor
  · intro hnil o ho
    have hnamed : o.counterEpoch ∈ l.map (·.counterEpoch) := List.mem_map.mpr ⟨o, ho, rfl⟩
    obtain ⟨p, hp⟩ := Option.isSome_iff_exists.mp ((h.named _).mpr hnamed)
    have hin : o ∈ ofEpoch o.counterEpoch l := List.mem_filter.mpr ⟨ho, by simp⟩
    by_contra hsome
    have hknown := (h.known _ p hp).mpr ⟨o, hin, Option.isSome_iff_ne_none.mpr hsome⟩
    obtain ⟨v, hv⟩ := Option.isSome_iff_exists.mp hknown
    have hmem := (knownTotals_mem e v).mpr ⟨_, p, hp, hv⟩
    rw [hnil] at hmem
    cases hmem
  · intro hnone
    rw [List.eq_nil_iff_forall_not_mem]
    intro v hv
    obtain ⟨k, p, hp, hpv⟩ := (knownTotals_mem e v).mp hv
    obtain ⟨o, ho, hsome⟩ := (h.known k p hp).mp (by rw [hpv]; rfl)
    rw [hnone o (List.mem_of_mem_filter ho)] at hsome
    cases hsome

def SourceUsage.get (u : SourceUsage) : TokenDimension → Option ℕ
  | .input => u.inputTokens
  | .output => u.outputTokens
  | .cachedInput => u.cachedInputTokens
  | .reasoningOutput => u.reasoningOutputTokens

/-- The context of the last final report, or of the last one. -/
def selectedContext (ordered : List Observation) : Option ContextWindow :=
  ((lastFinal ordered).or ordered.getLast?).bind (·.context)

/-- The rows of a unit are distinct, of the unit, and project. -/
structure Stored (b : WorkUnitBinding) (rows : List Observation) : Prop where
  nodup : rows.Nodup
  consistent : Consistent b rows
  projects : ∃ u, projectSource (bySequence rows) = .ok u

end ParallelForge.Usage
