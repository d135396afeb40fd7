import ParallelForge.Base.Rotation
import ParallelForge.Scheduling.Tables
import Mathlib.Data.Finset.Card
import Mathlib.Data.List.Dedup

/-!
# The epic admission scan (`repositories/scheduling.py:217-253`)

`prepare_epic_claim` picks the runs of one claim, a page of at most 128 in the
order of the run ids, and leaves the cursor at the last one. The epic rows it
locks afterwards do not change what it returns.
-/

namespace ParallelForge.Scheduling
open Base Base.Rotation

/-- `EpicAdmissionScanCursor`, the row with id 1. -/
structure ScanCursor where
  lastRunId : Option UUID
  deriving DecidableEq, Repr

/-- `eligible`; a lease without an expiry compares to null. -/
def scanEligible (now : ℤ) (row : ScheduledTask) : Bool :=
  row.state == .queued || (row.state == .leased && row.leaseExpiresAt.any (· < now))

/-- `select(run_id).where(eligible).distinct()`. -/
def eligibleRuns (db : Db) (now : ℤ) : List UUID :=
  ((db.scheduled.rows.filter fun row => scanEligible now row.2).map fun row => row.2.runId).dedup

/-- A further condition, the order by run id and the limit. -/
def selectRuns (base : List UUID) (condition : UUID → Bool) (limit : ℕ) : List UUID :=
  ((base.filter condition).insertionSort (· ≤ ·)).take limit

/-- `prepare_epic_claim`, with the cursor row before and after. -/
def prepareEpicClaim (db : Db) (now : ℤ) (row : Option ScanCursor) : List UUID × ScanCursor :=
  let cursor := row.getD ⟨none⟩
  let base := eligibleRuns db now
  let selected := match cursor.lastRunId with
    | none => selectRuns base (fun _ => true) 128
    | some lastRunId =>
      let first := selectRuns base (fun runId => lastRunId < runId) 128
      if first.length < 128 then
        first ++ selectRuns base (fun runId => runId ≤ lastRunId) (128 - first.length)
      else first
  (selected, ⟨selected.getLast?⟩)

/-- The pages of consecutive calls, each with the rows and the time it finds. -/
def epicClaims (row : Option ScanCursor) : List (Db × ℤ) → List (List UUID)
  | [] => []
  | (db, now) :: calls =>
    let (selected, cursor) := prepareEpicClaim db now row
    selected :: epicClaims (some cursor) calls

/-- The eligible runs in the order of the scan. -/
def sortedRuns (base : List UUID) : List UUID := base.insertionSort (· ≤ ·)

theorem sortedRuns_pairwise (base : List UUID) (h : base.Nodup) :
    (sortedRuns base).Pairwise (· < ·) := by
  have hle : (sortedRuns base).Pairwise (· ≤ ·) := List.pairwise_insertionSort _ base
  have hne : (sortedRuns base).Nodup := (List.perm_insertionSort _ base).nodup_iff.mpr h
  exact hle.imp₂ (fun _ _ hab hne => lt_of_le_of_ne hab hne) hne

theorem sortedRuns_congr (base base' : List UUID) (h : base.Nodup) (h' : base'.Nodup)
    (hmem : ∀ x, x ∈ base ↔ x ∈ base') : sortedRuns base = sortedRuns base' := by
  have hperm : base.Perm base' := (List.perm_ext_iff_of_nodup h h').mpr hmem
  have hsorted : (sortedRuns base).Perm (sortedRuns base') :=
    (List.perm_insertionSort _ base).trans
      (hperm.trans (List.perm_insertionSort _ base').symm)
  exact hsorted.eq_of_pairwise (fun _ _ _ _ hab hba => le_antisymm hab hba)
    (List.pairwise_insertionSort _ base) (List.pairwise_insertionSort _ base')

/- A condition and the order commute. -/
theorem selectRuns_eq (base : List UUID) (condition : UUID → Bool) (limit : ℕ) :
    selectRuns base condition limit = ((sortedRuns base).filter condition).take limit := by
  have hperm : ((base.filter condition).insertionSort (· ≤ ·)).Perm
      ((sortedRuns base).filter condition) :=
    (List.perm_insertionSort _ _).trans
      ((List.perm_insertionSort (· ≤ ·) base).filter condition).symm
  have heq := hperm.eq_of_pairwise (fun _ _ _ _ hab hba => le_antisymm hab hba)
    (List.pairwise_insertionSort _ _)
    ((List.pairwise_insertionSort (· ≤ ·) base).sublist List.filter_sublist)
  exact congrArg (List.take limit) heq

theorem eligibleRuns_nodup (db : Db) (now : ℤ) : (eligibleRuns db now).Nodup := List.nodup_dedup _

/- The two queries read one page of the rotation. -/
theorem prepareEpicClaim_page (db : Db) (now : ℤ) (row : Option ScanCursor) :
    prepareEpicClaim db now row =
      (page 128 (sortedRuns (eligibleRuns db now)) (row.getD ⟨none⟩).lastRunId,
        ⟨pageEnd 128 (sortedRuns (eligibleRuns db now)) (row.getD ⟨none⟩).lastRunId⟩) := by
  have hselected : (prepareEpicClaim db now row).1 =
      page 128 (sortedRuns (eligibleRuns db now)) (row.getD ⟨none⟩).lastRunId := by
    unfold prepareEpicClaim page
    cases hlast : (row.getD ⟨none⟩).lastRunId with
    | none => simp only [hlast, selectRuns_eq, Rotation.rotation, List.filter_true]
    | some lastRunId =>
      simp only [hlast, selectRuns_eq, Rotation.rotation, List.take_append, List.length_take]
      generalize (sortedRuns (eligibleRuns db now)).filter (fun x => lastRunId < x) = later
      by_cases hshort : later.length < 128
      · have hmin : min 128 later.length = later.length := by omega
        rw [hmin, if_pos hshort]
      · have hmin : ¬min 128 later.length < 128 := by omega
        have hnone : 128 - later.length = 0 := by omega
        rw [if_neg hmin, hnone, List.take_zero, List.append_nil]
  exact Prod.ext hselected (congrArg (fun l : List UUID => ScanCursor.mk l.getLast?) hselected)

/- Calls that find the same eligible runs serve consecutive pages. -/
theorem epicClaims_pages (eligible : List UUID) (heligible : eligible.Nodup)
    (calls : List (Db × ℤ)) (hstable : ∀ call ∈ calls, ∀ runId,
      runId ∈ eligibleRuns call.1 call.2 ↔ runId ∈ eligible) (row : Option ScanCursor) :
    epicClaims row calls =
      pages 128 (sortedRuns eligible) (row.getD ⟨none⟩).lastRunId calls.length := by
  induction calls generalizing row with
  | nil => rfl
  | cons call calls ih =>
    obtain ⟨db, now⟩ := call
    have hsame : sortedRuns (eligibleRuns db now) = sortedRuns eligible :=
      sortedRuns_congr _ _ (eligibleRuns_nodup db now) heligible
        (hstable (db, now) List.mem_cons_self)
    have hrest := ih (fun call hcall => hstable call (List.mem_cons_of_mem _ hcall))
      (some ⟨pageEnd 128 (sortedRuns eligible) (row.getD ⟨none⟩).lastRunId⟩)
    simp only [epicClaims, prepareEpicClaim_page, hsame, hrest, List.length_cons, pages,
      Option.getD_some]

theorem mem_sortedRuns (base : List UUID) (x : UUID) : x ∈ sortedRuns base ↔ x ∈ base :=
  (List.perm_insertionSort _ base).mem_iff

/-- Calls that find the same `n` eligible runs: each serves at most 128 of them, none twice, and
any `⌈n / 128⌉` of them in a row serve them all, wherever the cursor stands. -/
theorem epic_scan_fair (eligible : Finset UUID) (calls : List (Db × ℤ))
    (hstable : ∀ call ∈ calls, (eligibleRuns call.1 call.2).toFinset = eligible)
    (row : Option ScanCursor) :
    (∀ selected ∈ epicClaims row calls, selected.length ≤ 128 ∧ selected.Nodup ∧
      ∀ runId ∈ selected, runId ∈ eligible) ∧
    ((eligible.card + 127) / 128 ≤ calls.length →
      ∀ runId ∈ eligible, ∃ selected ∈ epicClaims row calls, runId ∈ selected) := by
  have hfound : ∀ call ∈ calls, ∀ runId,
      runId ∈ eligibleRuns call.1 call.2 ↔ runId ∈ eligible.toList := by
    intro call hcall runId
    rw [Finset.mem_toList, ← hstable call hcall, List.mem_toFinset]
  have hsorted := sortedRuns_pairwise eligible.toList eligible.nodup_toList
  have hlen : (sortedRuns eligible.toList).length = eligible.card := by
    unfold sortedRuns
    rw [List.length_insertionSort, Finset.length_toList]
  rw [epicClaims_pages eligible.toList eligible.nodup_toList calls hfound row]
  refine ⟨fun selected hselected => ?_, fun hcalls runId hrun => ?_⟩
  · obtain ⟨hmost, hnodup, hfrom⟩ := pages_spec 128 _ hsorted _ _ selected hselected
    refine ⟨hmost, hnodup, fun runId hrun => ?_⟩
    have hin := (mem_sortedRuns _ _).mp (hfrom runId hrun)
    exact Finset.mem_toList.mp hin
  · have hall : (sortedRuns eligible.toList).length ≤ calls.length * 128 := by omega
    have hin := (mem_sortedRuns eligible.toList runId).mpr (Finset.mem_toList.mpr hrun)
    exact pages_cover 128 _ hsorted _ hall _ runId hin

/-- Three queued runs, found by one call. -/
def threeQueued : Db :=
  let row (runId : UUID) : ScheduledTask :=
    ⟨runId, none, "w", "claude", [], [], false, 0, 0, .queued, none, 0, none, false, false, 0⟩
  { Db.init ⟨fun _ => none, fun _ => none, fun _ => false, fun _ => false, [], []⟩ with
    scheduled := ((Table.empty.put 11 (row 3)).put 12 (row 1)).put 13 (row 2) }

theorem epic_scan_fair_three :
    (∀ selected ∈ epicClaims (some ⟨some 1⟩) [(threeQueued, 0)], selected.length ≤ 128 ∧
      selected.Nodup ∧ ∀ runId ∈ selected, runId ∈ ({1, 2, 3} : Finset UUID)) ∧
    ((({1, 2, 3} : Finset UUID).card + 127) / 128 ≤ 1 → ∀ runId ∈ ({1, 2, 3} : Finset UUID),
      ∃ selected ∈ epicClaims (some ⟨some 1⟩) [(threeQueued, 0)], runId ∈ selected) :=
  epic_scan_fair {1, 2, 3} [(threeQueued, 0)] (by
    intro call hcall
    rw [List.mem_singleton.mp hcall]
    decide) (some ⟨some 1⟩)

end ParallelForge.Scheduling
