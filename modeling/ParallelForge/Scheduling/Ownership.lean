import ParallelForge.Scheduling.Steps

/-!
# Path ownership

Two writers that are live at once in one worktree own no overlapping paths.
Only a claim makes a task live, and a claim compares the paths of its candidate
with those of every live writer. What keeps the comparison valid afterwards is
that paths are rewritten on idle tasks only, and that a task that counted as a
coordinator stays one.
-/

namespace ParallelForge.Scheduling
open Base Run

variable {pathKey : String → String}

/-- One path is the other, or a directory prefix of it. -/
def Overlap (p q : String) : Prop := p = q ∨ DirectoryPrefix q p ∨ DirectoryPrefix p q

/-- A leased or reconciling task that is neither read-only nor a coordinator. -/
def Writer (pathKey : String → String) (db : Db) (id : UUID) (r : ScheduledTask) : Prop :=
  r.live = true ∧ r.readOnly = false ∧ isCoordinator pathKey db id r = false

def PathsOwned (pathKey : String → String) (db : Db) : Prop :=
  ∀ i j a b, db.scheduled.get i = some a → db.scheduled.get j = some b → i ≠ j →
    Writer pathKey db i a → Writer pathKey db j b → a.worktreeId = b.worktreeId →
    ∀ p ∈ a.ownedPaths, ∀ q ∈ b.ownedPaths, ¬ Overlap p q

theorem anyOverlap_eq_false (left right : List String) :
    anyOverlap left right = false ↔ ∀ p ∈ left, ∀ q ∈ right, ¬ Overlap p q := by
  simp only [anyOverlap, List.any_eq_false, Bool.not_eq_true, ← pathsOverlap_iff, Overlap]

theorem overlap_comm (p q : String) : Overlap p q ↔ Overlap q p := by
  unfold Overlap
  rw [← pathsOverlap_iff, ← pathsOverlap_iff, pathsOverlap_comm]

/- A writer after a quiet change was one before, with the same paths. -/
theorem writer_of_evolves (db db' : Db)
    (ht : Table.Evolves Touch FreshTask db.scheduled db'.scheduled)
    (hl : Table.Evolves Stay (fun _ => True) db.logical db'.logical) (id : UUID) (r' : ScheduledTask)
    (hr : db'.scheduled.get id = some r') (hw : Writer pathKey db' id r') :
    ∃ r, db.scheduled.get id = some r ∧ Writer pathKey db id r ∧
      r'.worktreeId = r.worktreeId ∧ r'.ownedPaths = r.ownedPaths := by
  obtain ⟨hlive, hro, hco⟩ := hw
  rcases ht.back id r' hr with ⟨-, hfresh⟩ | ⟨r, hget, htouch⟩
  · rw [hfresh.1] at hlive
    cases hlive
  · refine ⟨r, hget, ⟨htouch.live hlive, htouch.readOnly ▸ hro, ?_⟩, htouch.worktree, ?_⟩
    · cases hc : isCoordinator pathKey db id r with
      | false => rfl
      | true =>
        have := isCoordinator_mono db db' id r r' hl htouch.runId htouch.parent htouch.readOnly
          (htouch.paths.imp (fun h => h) And.right) hc
        rw [hco] at this
        cases this
    · rcases htouch.paths with hp | ⟨hd, -⟩
      · exact hp
      · rw [hd] at hlive
        cases hlive

theorem pathsOwned_of_evolves (db db' : Db) (h : PathsOwned pathKey db)
    (ht : Table.Evolves Touch FreshTask db.scheduled db'.scheduled)
    (hl : Table.Evolves Stay (fun _ => True) db.logical db'.logical) : PathsOwned pathKey db' := by
  intro i j a b ha hb hij hwa hwb hwt
  obtain ⟨a0, ha0, hwa0, hwta, hpa⟩ := writer_of_evolves db db' ht hl i a ha hwa
  obtain ⟨b0, hb0, hwb0, hwtb, hpb⟩ := writer_of_evolves db db' ht hl j b hb hwb
  rw [hpa, hpb]
  exact h i j a0 b0 ha0 hb0 hij hwa0 hwb0 (hwta.symm.trans (hwt.trans hwtb))

/- The claim compared the candidate with every live writer of its worktree. -/
theorem claimed_disjoint (db : Db) (id : UUID) (row : ScheduledTask) (run : SchedulerRun)
    (hc : ClaimChecks pathKey db id row run) (hro : row.readOnly = false)
    (hco : isCoordinator pathKey db id row = false) (k : UUID) (b : ScheduledTask)
    (hb : db.scheduled.get k = some b) (hw : Writer pathKey db k b)
    (hwt : row.worktreeId = b.worktreeId) : ∀ p ∈ row.ownedPaths, ∀ q ∈ b.ownedPaths, ¬ Overlap p q := by
  have hconf := hc.worktree
  unfold hasWorktreeConflict at hconf
  rw [hro, hco] at hconf
  cases hp : row.ownedPaths with
  | nil => intro p hmem; cases hmem
  | cons p0 ps =>
    rw [← hp, ← anyOverlap_eq_false]
    have hany : (db.scheduled.any fun k existing => existing.worktreeId == row.worktreeId &&
        existing.live && !existing.readOnly && !isCoordinator pathKey db k existing &&
        anyOverlap row.ownedPaths existing.ownedPaths) = false := by
      simpa [hp] using hconf
    have := (Table.any_eq_false _ _).mp hany k b hb
    simpa [hwt, hw.1, hw.2.1, hw.2.2] using this

theorem pathsOwned_grant (db db' : Db) (cx : ClaimContext) (id : UUID) (row : ScheduledTask)
    (run : SchedulerRun) (h : PathsOwned pathKey db) (hc : ClaimChecks pathKey db id row run)
    (hg : GrantFrom db db' cx id row) : PathsOwned pathKey db' := by
  obtain ⟨provider, htask⟩ := hg.task
  -- a writer after the grant is the leased task or was a writer before it
  have hold : ∀ k b, k ≠ id → db'.scheduled.get k = some b → Writer pathKey db' k b →
      db.scheduled.get k = some b ∧ Writer pathKey db k b := by
    intro k b hk hb hw
    rw [hg.others k hk] at hb
    refine ⟨hb, hw.1, hw.2.1, ?_⟩
    cases hco : isCoordinator pathKey db k b with
    | false => rfl
    | true =>
      have := isCoordinator_mono db db' k b b hg.logical rfl rfl rfl (Or.inl rfl) hco
      rw [hw.2.2] at this
      cases this
  have hnew : ∀ k a b, k ≠ id → db'.scheduled.get id = some a → Writer pathKey db' id a →
      db'.scheduled.get k = some b → Writer pathKey db' k b → a.worktreeId = b.worktreeId →
      ∀ p ∈ a.ownedPaths, ∀ q ∈ b.ownedPaths, ¬ Overlap p q := by
    intro k a b hk ha hwa hb hwb hwt
    cases htask.symm.trans ha
    obtain ⟨hb0, hwb0⟩ := hold k b hk hb hwb
    refine claimed_disjoint db id row run hc hwa.2.1 ?_ k b hb0 hwb0 hwt
    cases hco : isCoordinator pathKey db id row with
    | false => rfl
    | true =>
      have := isCoordinator_mono db db' id row (leaseRow cx { row with provider := provider })
        hg.logical rfl rfl rfl (Or.inl rfl) hco
      rw [hwa.2.2] at this
      cases this
  intro i j a b ha hb hij hwa hwb hwt
  by_cases hi : i = id
  · subst hi
    exact hnew j a b (Ne.symm hij) ha hwa hb hwb hwt
  · by_cases hj : j = id
    · subst hj
      intro p hp q hq hov
      exact hnew i b a hi hb hwb ha hwa hwt.symm q hq p hp ((overlap_comm p q).mp hov)
    · obtain ⟨ha0, hwa0⟩ := hold i a hi ha hwa
      obtain ⟨hb0, hwb0⟩ := hold j b hj hb hwb
      exact h i j a b ha0 hb0 hij hwa0 hwb0 hwt

theorem pathsOwned_step (db : Db) (a : Action) (h : PathsOwned pathKey db) :
    PathsOwned pathKey (step pathKey db a) := by
  cases @step_kind pathKey db a with
  | quiet hq => exact pathsOwned_of_evolves _ _ h hq.tasks hq.logical
  | granted cx mid id row run ha hq hc hg =>
    exact pathsOwned_grant mid _ cx id row run
      (pathsOwned_of_evolves db mid h hq.tasks hq.logical) hc hg
  | admitted lease request now row run ha hc hd => rw [hd]; exact h
  | began runId run ha hr hs hd => rw [hd]; exact h
  | closed runId epoch run ha hr hs ht he hd => rw [hd]; exact h
  | reopened mid runId run hq hr hs hd =>
    have hmid := pathsOwned_of_evolves db mid h hq.tasks hq.logical
    exact pathsOwned_of_evolves (mid.putRun runId (reopenCandidate run)) _ hmid hd.tasks hd.logical

/-- In every state the scheduler reaches, no two live writers of one worktree own
overlapping paths. -/
theorem writers_own_disjoint_paths (pathKey : String → String) (env : Surroundings)
    (actions : List Action) : PathsOwned pathKey (reach pathKey env actions) := by
  refine run_invariant (step pathKey) (PathsOwned pathKey) ?_ (Db.init env) actions ?_
  · intro db a h
    exact pathsOwned_step db a h
  · intro i j a b ha
    cases ha

end ParallelForge.Scheduling
