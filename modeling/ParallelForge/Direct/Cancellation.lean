import ParallelForge.Direct.Repository

/-!
# When a cancelled run stays cancelled

Only `claim_next` decides under the row lock. The other methods decide on what
they loaded and write later, so an approval that loaded the run before it was
cancelled still queues it again, and `update_run` writes the state it is given.
Nothing else moves a cancelled run.
-/

namespace ParallelForge.Direct
open Base

/-- A call that commits while the run is cancelled is neither an approval (its
load was before) nor an update to a state other than CANCELLED and the one it
loaded. -/
def Kept (w : World) : Statement → Prop
  | .commit k => w.row.committed.state = .cancelled →
    match w.session k with
    | .flushed .approvePlan _ => False
    | .flushed (.updateRun fields) row =>
      ∀ s, fields.state = some s → s = .cancelled ∨ s = row.state
    | _ => True
  | _ => True

/-- What a session holds of the row, given where it is in its call. -/
def Agrees (row : LockedRow DirectRunRow) (k : ℕ) : Session → Prop
  | .idle => row.held k = none
  | .loaded call old =>
    (∃ f, call.assign old = .ok f) ∧
      (call = .claimNext →
        row.held k = some row.committed ∧ old = row.committed ∧ old.state = .queued) ∧
      (call ≠ .claimNext → row.held k = none)
  | .flushed call old =>
    ∃ f, call.assign old = .ok f ∧
      row.held k =
        (if (f.dirty old).isEmpty then none else some ((f.dirty old).apply row.committed)) ∧
      (call = .claimNext →
        (f.dirty old).isEmpty = false ∧ old = row.committed ∧ old.state = .queued)

def Inv (w : World) : Prop := ∀ k, Agrees w.row k (w.session k)

theorem inv_init (row : DirectRunRow) : Inv (World.init row) := fun _ => rfl

/- A session that holds what it held, under the same committed version. -/
theorem Agrees.same (row row' : LockedRow DirectRunRow) (k : ℕ) (s : Session)
    (hc : row'.committed = row.committed) (hh : row'.held k = row.held k) (h : Agrees row k s) :
    Agrees row' k s := by
  cases s with
  | idle => exact hh.trans h
  | loaded call old =>
    simp only [Agrees, hc, hh] at h ⊢
    exact h
  | flushed call old =>
    simp only [Agrees, hc, hh] at h ⊢
    exact h

/- A session that holds nothing does not see a commit of another. -/
theorem Agrees.unheld (row row' : LockedRow DirectRunRow) (k : ℕ) (s : Session)
    (hn : row.held k = none) (hh : row'.held k = none) (h : Agrees row k s) :
    Agrees row' k s := by
  cases s with
  | idle => exact hh
  | loaded call old =>
    obtain ⟨hf, hclaim, hother⟩ := h
    refine ⟨hf, fun hc => ?_, fun _ => hh⟩
    have := (hclaim hc).1
    rw [hn] at this
    cases this
  | flushed call old =>
    obtain ⟨f, hf, hheld, hclaim⟩ := h
    have he : (f.dirty old).isEmpty = true := by
      by_contra hne
      simp only [hn, hne] at hheld
      cases hheld
    refine ⟨f, hf, by simp only [hh, he, ite_true], fun hc => ?_⟩
    have := (hclaim hc).1
    rw [he] at this
    cases this

/- One session moves; the row keeps its committed version. -/
theorem Inv.move (w : World) (k : ℕ) (row : LockedRow DirectRunRow) (s : Session) (hi : Inv w)
    (hc : row.committed = w.row.committed) (hh : ∀ j, j ≠ k → row.held j = w.row.held j)
    (hs : Agrees row k s) : Inv (w.at k row s) := by
  intro j
  by_cases hj : j = k
  · subst hj
    simpa using hs
  · rw [at_row, at_session_other w k j row s hj]
    exact (hi j).same _ _ _ _ hc (hh j hj)

theorem claimNext_dirty (row : DirectRunRow) (h : row.state = .queued) :
    ((claimNext row).dirty row).isEmpty = false := by
  unfold claimNext
  by_cases hc : row.cancelRequested = true
  · simp [hc, h, Fields.dirty, Fields.isEmpty, changed]
  · simp [hc, h, Fields.dirty, Fields.isEmpty, changed]

theorem select_refused (w : World) (k : ℕ) (call : Call) (e : DirectError) (hcall : call ≠ .claimNext)
    (hf : call.assign (w.row.read k) = .error e) : w.select k call = w := by
  cases call with
  | claimNext => exact absurd rfl hcall
  | requestCancel => simp only [World.select, hf]
  | approvePlan => simp only [World.select, hf]
  | updateRun fields => simp only [World.select, hf]

theorem select_assigned (w : World) (k : ℕ) (call : Call) (f : Fields) (hcall : call ≠ .claimNext)
    (hf : call.assign (w.row.read k) = .ok f) :
    w.select k call = w.at k w.row (.loaded call (w.row.read k)) := by
  cases call with
  | claimNext => exact absurd rfl hcall
  | requestCancel => simp only [World.select, hf]
  | approvePlan => simp only [World.select, hf]
  | updateRun fields => simp only [World.select, hf]

theorem inv_select (w : World) (k : ℕ) (call : Call) (hi : Inv w) (hs : w.session k = .idle) :
    Inv (w.select k call) := by
  have hidle : w.row.held k = none := by
    have := hi k
    rwa [hs] at this
  by_cases hcall : call = .claimNext
  · subst hcall
    unfold World.select
    by_cases hq : w.row.committed.state = .queued
    · simp only [hq, ite_true]
      cases hr : w.row.claim k with
      | none => exact hi
      | some r =>
        obtain ⟨hc, hk, hh⟩ := LockedRow.claim_eq_some _ _ _ hr
        refine hi.move w k r _ hc hh ⟨⟨_, rfl⟩, fun _ => ?_, fun hne => absurd rfl hne⟩
        exact ⟨by rw [hk, hc], hc.symm, hq⟩
    · simpa only [hq, ite_false] using hi
  · cases hf : call.assign (w.row.read k) with
    | error e =>
      rw [select_refused w k call e hcall hf]
      exact hi
    | ok f =>
      rw [select_assigned w k call f hcall hf]
      exact hi.move w k w.row _ rfl (fun _ _ => rfl)
        ⟨⟨f, hf⟩, fun hc => absurd hc hcall, fun _ => hidle⟩

theorem inv_update (w : World) (k : ℕ) (call : Call) (old : DirectRunRow) (f : Fields)
    (hi : Inv w) (hs : w.session k = .loaded call old) (hf : call.assign old = .ok f) :
    Inv (w.update k call old f) := by
  have hk := hi k
  rw [hs] at hk
  obtain ⟨-, hclaim, hother⟩ := hk
  -- a claim always has something to write
  have hdirty : call = .claimNext → (f.dirty old).isEmpty = false := by
    intro hc
    subst hc
    cases hf
    exact claimNext_dirty old (hclaim rfl).2.2
  unfold World.update
  by_cases he : (f.dirty old).isEmpty = true
  · have hc : call ≠ .claimNext := by
      intro hc
      rw [hdirty hc] at he
      cases he
    simp only [he, ite_true]
    refine hi.move w k w.row _ rfl (fun _ _ => rfl) ⟨f, hf, ?_, fun h => absurd h hc⟩
    simp only [he, ite_true]
    exact hother hc
  · simp only [he]
    cases hr : w.row.write k (f.dirty old).apply with
    | none => simpa using hi
    | some r =>
      obtain ⟨hcom, hheld, hh⟩ := LockedRow.write_eq_some _ _ _ _ hr
      -- the lock was free, or held since the claim with nothing written
      have hread : w.row.read k = w.row.committed := by
        unfold LockedRow.read
        by_cases hc : call = .claimNext
        · rw [(hclaim hc).1]
          rfl
        · rw [hother hc]
          rfl
      refine hi.move w k r _ hcom hh ⟨f, hf, ?_, fun hc => ?_⟩
      · simp only [he]
        rw [hheld, hread, hcom]
        rfl
      · rw [hcom]
        exact ⟨hdirty hc, (hclaim hc).2⟩

theorem inv_commit (w : World) (k : ℕ) (hi : Inv w) : Inv (w.at k (w.row.commit k) .idle) := by
  intro j
  by_cases hj : j = k
  · subst hj
    simp only [at_row, at_session]
    exact w.row.commit_held j
  · rw [at_row, at_session_other w k j _ _ hj]
    have hh := w.row.commit_held_other j k hj
    cases hk : w.row.held k with
    | none =>
      have hc : (w.row.commit k).committed = w.row.committed := by
        rw [LockedRow.commit_committed, LockedRow.read, hk]
        rfl
      exact (hi j).same _ _ _ _ hc hh
    | some v =>
      have hn := w.row.held_unique j k v hk hj
      exact (hi j).unheld _ _ _ _ hn (hh.trans hn)

/- What a statement can do. -/
theorem step_cases (w : World) (i : Statement) :
    w.step i = w ∨
    (∃ k call, i = .select k call ∧ w.session k = .idle ∧ w.step i = w.select k call) ∨
    (∃ k call old f, i = .update k ∧ w.session k = .loaded call old ∧ call.assign old = .ok f ∧
      w.step i = w.update k call old f) ∨
    (∃ k call old, i = .commit k ∧ w.session k = .flushed call old ∧
      w.step i = w.at k (w.row.commit k) .idle) ∨
    (∃ k, i = .abort k ∧ w.step i = w.at k (w.row.rollback k) .idle) := by
  cases i with
  | select k call =>
    cases hs : w.session k with
    | idle => exact Or.inr (Or.inl ⟨k, call, rfl, hs, by simp only [World.step, hs]⟩)
    | loaded _ _ => exact Or.inl (by simp only [World.step, hs])
    | flushed _ _ => exact Or.inl (by simp only [World.step, hs])
  | update k =>
    cases hs : w.session k with
    | idle => exact Or.inl (by simp only [World.step, hs])
    | flushed _ _ => exact Or.inl (by simp only [World.step, hs])
    | loaded call old =>
      cases hf : call.assign old with
      | error e => exact Or.inl (by simp only [World.step, hs, hf])
      | ok f =>
        exact Or.inr (Or.inr (Or.inl ⟨k, call, old, f, rfl, hs, hf,
          by simp only [World.step, hs, hf]⟩))
  | commit k =>
    cases hs : w.session k with
    | idle => exact Or.inl (by simp only [World.step, hs])
    | loaded _ _ => exact Or.inl (by simp only [World.step, hs])
    | flushed call old =>
      exact Or.inr (Or.inr (Or.inr (Or.inl ⟨k, call, old, rfl, hs, by simp only [World.step, hs]⟩)))
  | abort k => exact Or.inr (Or.inr (Or.inr (Or.inr ⟨k, rfl, rfl⟩)))

theorem inv_step (w : World) (i : Statement) (hi : Inv w) : Inv (w.step i) := by
  obtain h | ⟨k, call, -, hs, h⟩ | ⟨k, call, old, f, -, hs, hf, h⟩ | ⟨k, call, old, -, hs, h⟩ |
    ⟨k, -, h⟩ := step_cases w i
  · rwa [h]
  · rw [h]
    exact inv_select w k call hi hs
  · rw [h]
    exact inv_update w k call old f hi hs hf
  · rw [h]
    exact inv_commit w k hi
  · rw [h]
    exact hi.move w k _ _ (w.row.rollback_committed k)
      (fun j hj => w.row.rollback_held_other j k hj) (w.row.rollback_held k)

theorem select_committed (w : World) (k : ℕ) (call : Call) :
    (w.select k call).row.committed = w.row.committed := by
  unfold World.select
  split
  · split
    · split
      · next r hr => exact (LockedRow.claim_eq_some _ _ _ hr).1
      · rfl
    · rfl
  · split <;> rfl

theorem update_committed (w : World) (k : ℕ) (call : Call) (old : DirectRunRow) (f : Fields) :
    (w.update k call old f).row.committed = w.row.committed := by
  unfold World.update
  split
  · rfl
  · split
    · next r hr => exact (LockedRow.write_eq_some _ _ _ _ hr).1
    · rfl

/- Nothing but a commit changes the stored version. -/
theorem step_committed (w : World) (i : Statement) (hne : ∀ k, i ≠ .commit k) :
    (w.step i).row.committed = w.row.committed := by
  obtain h | ⟨k, call, -, -, h⟩ | ⟨k, call, old, f, -, -, -, h⟩ | ⟨k, call, old, hc, -, -⟩ |
    ⟨k, -, h⟩ := step_cases w i
  · rw [h]
  · rw [h]
    exact select_committed w k call
  · rw [h]
    exact update_committed w k call old f
  · exact absurd hc (hne k)
  · rw [h]
    exact w.row.rollback_committed k

/- The state a dirty flush leaves. -/
theorem dirty_apply_state (f : Fields) (old row : DirectRunRow) :
    ((f.dirty old).apply row).state = ((changed old.state f.state).getD row.state) := rfl

theorem state_of_empty (f : Fields) (old : DirectRunRow) (h : (f.dirty old).isEmpty = true) :
    changed old.state f.state = none := by
  simp only [Fields.isEmpty, Fields.dirty, Bool.and_eq_true, Option.isNone_iff_eq_none] at h
  exact h.1.1.1

/- The stored state after a commit: the state the call assigned, if it differs
from the one loaded. -/
theorem commit_state (w : World) (k : ℕ) (call : Call) (old : DirectRunRow) (hi : Inv w)
    (hs : w.session k = .flushed call old) :
    ∃ f, call.assign old = .ok f ∧ (w.step (.commit k)).row.committed.state =
      (changed old.state f.state).getD w.row.committed.state := by
  have hk := hi k
  rw [hs] at hk
  obtain ⟨f, hf, hheld, -⟩ := hk
  refine ⟨f, hf, ?_⟩
  have hstep : (w.step (.commit k)).row = w.row.commit k := by
    unfold World.step
    simp only [hs]
    rfl
  rw [hstep, LockedRow.commit_committed, LockedRow.read, hheld]
  by_cases he : (f.dirty old).isEmpty = true
  · rw [state_of_empty f old he]
    simp only [he, ite_true]
    rfl
  · simp only [he]
    exact dirty_apply_state f old w.row.committed

theorem changed_cancelled_iff (old : DirectRunState) (new : Option DirectRunState) :
    (changed old new).getD .cancelled = .cancelled ↔
      ∀ s, new = some s → s = .cancelled ∨ s = old := by
  cases new with
  | none => simp [changed]
  | some s =>
    by_cases h : s = old
    · simp [changed, Option.filter, h]
    · simp [changed, Option.filter, h]

theorem commit_kept_iff (w : World) (k : ℕ) (hi : Inv w) :
    (w.row.committed.state = .cancelled →
      (w.step (.commit k)).row.committed.state = .cancelled) ↔ Kept w (.commit k) := by
  unfold Kept
  refine imp_congr_right fun hcan => ?_
  cases hs : w.session k with
  | idle => simp only [World.step, hs, hcan]
  | loaded _ _ => simp only [World.step, hs, hcan]
  | flushed call old =>
    obtain ⟨f, hf, hstate⟩ := commit_state w k call old hi hs
    rw [hstate, hcan, changed_cancelled_iff]
    cases call with
    | requestCancel =>
      cases hf
      simp only [iff_true]
      intro s hs'
      refine Or.inl ?_
      unfold requestCancel at hs'
      split at hs'
      · exact (Option.some.inj hs').symm
      · split at hs' <;> cases hs'
    | approvePlan =>
      simp only [Call.assign, approvePlan, bind_eq_ok, require_eq_ok] at hf
      obtain ⟨_, haw, hf⟩ := hf
      cases hf
      simp [haw]
    | claimNext =>
      -- a claim holds the lock since it saw the run queued
      have hk := hi k
      rw [hs] at hk
      obtain ⟨_, -, -, hclaim⟩ := hk
      obtain ⟨-, hold, hq⟩ := hclaim rfl
      rw [← hold, hq] at hcan
      cases hcan
    | updateRun fields =>
      cases hf
      exact Iff.rfl

theorem step_kept_iff (w : World) (i : Statement) (hi : Inv w) :
    (w.row.committed.state = .cancelled → (w.step i).row.committed.state = .cancelled) ↔
      Kept w i := by
  have other (h : ∀ k, i ≠ .commit k) (hk : Kept w i) :
      (w.row.committed.state = .cancelled → (w.step i).row.committed.state = .cancelled) ↔
        Kept w i := by
    rw [step_committed w i h]
    exact ⟨fun _ => hk, fun _ hc => hc⟩
  cases i with
  | commit k => exact commit_kept_iff w k hi
  | select k call => exact other (by simp) trivial
  | update k => exact other (by simp) trivial
  | abort k => exact other (by simp) trivial

/-- Over any statements of any sessions: a run once stored as cancelled stays
so, exactly when every commit over a cancelled run is a kept one. -/
theorem cancelled_stays_iff (row : DirectRunRow) (l : List Statement) :
    (∀ a b c, l = a ++ (b ++ c) →
      (run World.step (World.init row) a).row.committed.state = .cancelled →
        (run World.step (World.init row) (a ++ b)).row.committed.state = .cancelled) ↔
      Along World.step Kept (World.init row) l := by
  have hstays := stays_iff_along World.step (fun w => w.row.committed.state = .cancelled)
    (World.init row) l
  have hcongr := along_congr World.step
    (fun w i => w.row.committed.state = .cancelled → (w.step i).row.committed.state = .cancelled)
    Kept Inv inv_step (fun w i hi => step_kept_iff w i hi) (World.init row) l (inv_init row)
  exact hstays.trans hcongr

/-- A run that waits for its plan, a cancellation and an approval that loaded it
before. -/
def awaiting : DirectRunRow := ⟨.awaitingPlanApproval, false, false, fun _ => none⟩

def lateApproval : List Statement :=
  [.select 0 .approvePlan, .select 1 .requestCancel, .update 1, .commit 1, .update 0, .commit 0]

theorem cancelled_requeued :
    (run World.step (World.init awaiting) (lateApproval.take 4)).row.committed.state = .cancelled ∧
      (run World.step (World.init awaiting) lateApproval).row.committed.state = .queued := by
  decide

end ParallelForge.Direct
