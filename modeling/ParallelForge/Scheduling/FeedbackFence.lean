import ParallelForge.Base.Loop
import ParallelForge.Scheduling.Tables
import Mathlib.Data.Set.Basic
import Mathlib.Order.Bounds.Basic
import Mathlib.Data.List.Dedup

/-!
# The feedback priority fence (`repositories/scheduling.py:293-336`)

The loop of the source, over any dependency graph: a task is protected before
it is put on the stack, so it is put there once. What it protects is the least
closed set, and the rounds of `feedbackPriorityFence` reach the same one.
-/

namespace ParallelForge.Scheduling
open Base

def pendingPrimaryTasks (db : Db) (runId : UUID) : List UUID :=
  ((db.env.feedback.filter fun f => f.runId == runId).filter
    fun f => f.state == .pendingPrimary).map (·.primaryTaskId)

def forwardedTasks (db : Db) (runId : UUID) : List UUID :=
  ((db.env.feedback.filter fun f => f.runId == runId).filter fun f => f.state == .forwarded).map
    (·.taskId)

/-- `pending_primary | forwarded`; forwarded feedback counts only when no primary feedback pends. -/
def fencedTasks (db : Db) (runId : UUID) : List UUID :=
  if (pendingPrimaryTasks db runId).isEmpty then forwardedTasks db runId
  else pendingPrimaryTasks db runId

structure Fence where
  protectedTasks : List UUID
  pending : List UUID

/-- The body of the loop over the dependencies. -/
def protectDependency (db : Db) (runId : UUID) (s : Fence) (dependencyId : UUID) : Fence :=
  if (db.taskOf runId dependencyId).any (fun dependency => dependency.state != .terminal) = true ∧
      dependencyId ∉ s.protectedTasks then
    ⟨s.protectedTasks ++ [dependencyId], s.pending ++ [dependencyId]⟩
  else s

def fenceTurn (db : Db) (runId : UUID) (s : Fence) : Fence :=
  match s.pending.getLast? with
  | none => s
  | some taskId =>
    let s := { s with pending := s.pending.dropLast }
    match db.taskOf runId taskId with
    | none => s
    | some row => row.dependencyTaskIds.foldl (protectDependency db runId) s

/-- `_feedback_priority_fence`. -/
def priorityFence (db : Db) (runId : UUID) : Prog (List UUID) :=
  let fenced := (fencedTasks db runId).dedup
  if fenced.isEmpty then pure []
  else do
    let final ← Prog.whileLoop (fun s : Fence => !s.pending.isEmpty)
      (fun s => pure (fenceTurn db runId s)) ⟨fenced, fenced⟩
    pure final.protectedTasks

/-- A non-terminal scheduled dependency of a scheduled task of the run. -/
def LeadsTo (db : Db) (runId task dependency : UUID) : Prop :=
  ∃ row, db.taskOf runId task = some row ∧ dependency ∈ row.dependencyTaskIds ∧
    (db.taskOf runId dependency).any (fun dependency => dependency.state != .terminal) = true

/-- The sets the fence may be. -/
def Fences (db : Db) (runId : UUID) (tasks : Set UUID) : Prop :=
  (∀ t ∈ fencedTasks db runId, t ∈ tasks) ∧
    ∀ t ∈ tasks, ∀ d, LeadsTo db runId t d → d ∈ tasks

section loop
variable (db : Db) (runId : UUID)

def scheduledKeys : List UUID := db.scheduled.rows.map Prod.fst

theorem mem_scheduledKeys (d : UUID)
    (h : (db.taskOf runId d).any (fun dependency => dependency.state != .terminal) = true) :
    d ∈ scheduledKeys db := by
  cases hrow : db.scheduled.get d with
  | none =>
    unfold Db.taskOf at h
    rw [hrow] at h
    cases h
  | some row => exact List.mem_map.mpr ⟨(d, row), (Table.mem_rows_iff _ _ _).mpr hrow, rfl⟩

/-- The rows that are not protected yet. -/
def unprotected (tasks : List UUID) : ℕ := (scheduledKeys db).countP fun k => k ∉ tasks

theorem unprotected_append (tasks : List UUID) (d : UUID) (hd : d ∈ scheduledKeys db)
    (hnew : d ∉ tasks) : unprotected db (tasks ++ [d]) + 1 = unprotected db tasks := by
  have hnodup : (scheduledKeys db).Nodup := db.scheduled.unique
  unfold unprotected
  generalize scheduledKeys db = keys at hd hnodup
  induction keys with
  | nil => cases hd
  | cons k keys ih =>
    obtain ⟨hk, hnodup⟩ := List.nodup_cons.mp hnodup
    rw [List.countP_cons, List.countP_cons]
    by_cases heq : k = d
    · subst heq
      have hrest : keys.countP (fun k' => k' ∉ tasks ++ [k]) = keys.countP fun k' => k' ∉ tasks := by
        apply List.countP_congr
        intro k' hk'
        have hne : k' ≠ k := fun h => hk (h ▸ hk')
        simp [hne]
      rw [hrest]
      simp [hnew]
    · have hin : d ∈ keys := (List.mem_cons.mp hd).resolve_left fun h => heq h.symm
      have hih := ih hin hnodup
      have hsame : (decide (k ∉ tasks ++ [d]) = true) ↔ (decide (k ∉ tasks) = true) := by
        simp [heq]
      simp only [hsame]
      omega

/-- What holds between two turns: the stack is protected, everything protected is reached, and what
has been on the stack leads only to what is protected. -/
structure FenceInv (s : Fence) : Prop where
  start : ∀ t ∈ fencedTasks db runId, t ∈ s.protectedTasks
  stacked : ∀ t ∈ s.pending, t ∈ s.protectedTasks
  closed : ∀ t ∈ s.protectedTasks,
    t ∈ s.pending ∨ ∀ d, LeadsTo db runId t d → d ∈ s.protectedTasks
  least : ∀ tasks, Fences db runId tasks → ∀ t ∈ s.protectedTasks, t ∈ tasks

/- What the inner loop adds. -/
theorem foldl_protectDependency (l : List UUID) (s : Fence) :
    (∀ t, t ∈ (l.foldl (protectDependency db runId) s).protectedTasks ↔ t ∈ s.protectedTasks ∨
      (t ∈ l ∧ (db.taskOf runId t).any (fun d => d.state != .terminal) = true)) ∧
    (∀ t ∈ (l.foldl (protectDependency db runId) s).pending, t ∈ s.pending ∨
      (t ∈ l ∧ (db.taskOf runId t).any (fun d => d.state != .terminal) = true)) ∧
    (∀ t ∈ (l.foldl (protectDependency db runId) s).protectedTasks,
      t ∈ s.protectedTasks ∨ t ∈ (l.foldl (protectDependency db runId) s).pending) ∧
    (∀ t ∈ s.pending, t ∈ (l.foldl (protectDependency db runId) s).pending) ∧
    (l.foldl (protectDependency db runId) s).pending.length +
      unprotected db (l.foldl (protectDependency db runId) s).protectedTasks =
        s.pending.length + unprotected db s.protectedTasks := by
  induction l generalizing s with
  | nil => exact ⟨fun t => by simp, fun t ht => .inl ht, fun t ht => .inl ht, fun t ht => ht, rfl⟩
  | cons d l ih =>
    obtain ⟨hprotected, hpending, hnew, hkeeps, hcount⟩ := ih (protectDependency db runId s d)
    rw [List.foldl_cons]
    by_cases hadds : (db.taskOf runId d).any (fun dependency => dependency.state != .terminal) = true ∧
        d ∉ s.protectedTasks
    · have hstep : protectDependency db runId s d =
          ⟨s.protectedTasks ++ [d], s.pending ++ [d]⟩ := if_pos hadds
      rw [hstep] at hprotected hpending hnew hkeeps hcount ⊢
      refine ⟨fun t => ?_, fun t ht => ?_, fun t ht => ?_, fun t ht => ?_, ?_⟩
      · rw [hprotected, List.mem_append, List.mem_singleton, List.mem_cons]
        constructor
        · rintro ((ht | rfl) | ⟨ht, hlive⟩)
          · exact .inl ht
          · exact .inr ⟨.inl rfl, hadds.1⟩
          · exact .inr ⟨.inr ht, hlive⟩
        · rintro (ht | ⟨rfl | ht, hlive⟩)
          · exact .inl (.inl ht)
          · exact .inl (.inr rfl)
          · exact .inr ⟨ht, hlive⟩
      · rcases hpending t ht with hold | ⟨hl, hlive⟩
        · rcases List.mem_append.mp hold with hold | hone
          · exact .inl hold
          · rw [List.mem_singleton.mp hone]
            exact .inr ⟨List.mem_cons_self, hadds.1⟩
        · exact .inr ⟨List.mem_cons_of_mem _ hl, hlive⟩
      · rcases hnew t ht with hold | hp
        · rcases List.mem_append.mp hold with hold | hone
          · exact .inl hold
          · exact .inr (hkeeps t (List.mem_append_right _ hone))
        · exact .inr hp
      · exact hkeeps t (List.mem_append_left _ ht)
      · have hone := unprotected_append db s.protectedTasks d
          (mem_scheduledKeys db runId d hadds.1) hadds.2
        simp only [List.length_append, List.length_singleton] at hcount
        omega
    · have hstep : protectDependency db runId s d = s := if_neg hadds
      rw [hstep] at hprotected hpending hnew hkeeps hcount ⊢
      refine ⟨fun t => ?_, fun t ht => ?_, hnew, hkeeps, hcount⟩
      · rw [hprotected, List.mem_cons]
        constructor
        · rintro (ht | ⟨ht, hlive⟩)
          · exact .inl ht
          · exact .inr ⟨.inr ht, hlive⟩
        · rintro (ht | ⟨rfl | ht, hlive⟩)
          · exact .inl ht
          · by_contra hnot
            exact hadds ⟨hlive, fun h => hnot (.inl h)⟩
          · exact .inr ⟨ht, hlive⟩
      · rcases hpending t ht with hold | ⟨hl, hlive⟩
        · exact .inl hold
        · exact .inr ⟨List.mem_cons_of_mem _ hl, hlive⟩

theorem fenceInv_turn (s : Fence) (hs : FenceInv db runId s) (hne : s.pending ≠ []) :
    FenceInv db runId (fenceTurn db runId s) ∧
      (fenceTurn db runId s).pending.length + unprotected db (fenceTurn db runId s).protectedTasks <
        s.pending.length + unprotected db s.protectedTasks := by
  obtain ⟨rest, task, hsplit⟩ := List.eq_nil_or_concat s.pending |>.resolve_left hne
  rw [List.concat_eq_append] at hsplit
  have hlast : s.pending.getLast? = some task := by rw [hsplit]; exact List.getLast?_concat
  have hdrop : s.pending.dropLast = rest := by rw [hsplit]; exact List.dropLast_concat
  have hlen : s.pending.length = rest.length + 1 := by rw [hsplit, List.length_append]; rfl
  have hmem : ∀ t ∈ s.pending, t ∈ rest ∨ t = task := by
    intro t ht
    rw [hsplit, List.mem_append, List.mem_singleton] at ht
    exact ht
  have hrest : ∀ t ∈ rest, t ∈ s.protectedTasks := by
    intro t ht
    refine hs.stacked t ?_
    rw [hsplit]
    exact List.mem_append_left _ ht
  have htask : task ∈ s.protectedTasks := by
    refine hs.stacked task ?_
    rw [hsplit]
    exact List.mem_append_right _ List.mem_cons_self
  cases hrow : db.taskOf runId task with
  | none =>
    have hturn : fenceTurn db runId s = ⟨s.protectedTasks, rest⟩ := by
      simp only [fenceTurn, hlast, hrow, hdrop]
    rw [hturn]
    refine ⟨⟨hs.start, hrest, fun t ht => ?_, hs.least⟩, ?_⟩
    · rcases hs.closed t ht with hp | hc
      · rcases hmem t hp with hp | rfl
        · exact .inl hp
        · refine .inr fun d ⟨row, hat, _⟩ => ?_
          rw [hrow] at hat
          cases hat
      · exact .inr hc
    · simp only
      omega
  | some row =>
    have hturn : fenceTurn db runId s =
        row.dependencyTaskIds.foldl (protectDependency db runId) ⟨s.protectedTasks, rest⟩ := by
      simp only [fenceTurn, hlast, hrow, hdrop]
    obtain ⟨hprotected, hpending, hnew, hkeeps, hcount⟩ :=
      foldl_protectDependency db runId row.dependencyTaskIds ⟨s.protectedTasks, rest⟩
    rw [← hturn] at hprotected hpending hnew hkeeps hcount
    have hgrows : ∀ t ∈ s.protectedTasks, t ∈ (fenceTurn db runId s).protectedTasks :=
      fun t ht => (hprotected t).mpr (.inl ht)
    refine ⟨⟨fun t ht => hgrows t (hs.start t ht), fun t ht => ?_, fun t ht => ?_,
      fun tasks htasks t ht => ?_⟩, ?_⟩
    · rcases hpending t ht with hold | hadded
      · exact hgrows t (hrest t hold)
      · exact (hprotected t).mpr (.inr hadded)
    · rcases hnew t ht with hold | hp
      · rcases hs.closed t hold with hp | hc
        · rcases hmem t hp with hp | rfl
          · exact .inl (hkeeps t hp)
          · refine .inr fun d ⟨row', hat, hd, hlive⟩ => ?_
            rw [hrow] at hat
            cases hat
            exact (hprotected d).mpr (.inr ⟨hd, hlive⟩)
        · exact .inr fun d hd => hgrows d (hc d hd)
      · exact .inl hp
    · rcases (hprotected t).mp ht with hold | ⟨hd, hlive⟩
      · exact hs.least tasks htasks t hold
      · exact htasks.2 task (hs.least tasks htasks task htask) t ⟨row, hrow, hd, hlive⟩
    · simp only at hcount
      omega

/-- The loop ends with the least set. -/
theorem returns_priorityFence : ∃ tasks, Prog.Returns (priorityFence db runId) tasks ∧
    IsLeast {set | Fences db runId set} {t | t ∈ tasks} := by
  unfold priorityFence
  by_cases hempty : (fencedTasks db runId).dedup.isEmpty = true
  · simp only [if_pos hempty]
    have hnone : fencedTasks db runId = [] := by
      rw [List.isEmpty_iff, List.dedup_eq_nil] at hempty
      exact hempty
    refine ⟨[], Prog.returns_pure _, ⟨?_, nofun⟩, fun _ _ => nofun⟩
    rw [hnone]
    exact nofun
  · simp only [if_neg hempty]
    have hstart : FenceInv db runId ⟨(fencedTasks db runId).dedup, (fencedTasks db runId).dedup⟩ :=
      ⟨fun t ht => List.mem_dedup.mpr ht, fun t ht => ht, fun t ht => .inl ht,
        fun tasks htasks t ht => htasks.1 t (List.mem_dedup.mp ht)⟩
    have hturn : ∀ s, FenceInv db runId s → (!s.pending.isEmpty) = true →
        ∃ s', Prog.Returns (pure (fenceTurn db runId s)) s' ∧ FenceInv db runId s' ∧
          s'.pending.length + unprotected db s'.protectedTasks <
            s.pending.length + unprotected db s.protectedTasks := by
      intro s hs hc
      have hne : s.pending ≠ [] := by
        intro h
        rw [h] at hc
        cases hc
      obtain ⟨hnext, hless⟩ := fenceInv_turn db runId s hs hne
      exact ⟨_, Prog.returns_pure _, hnext, hless⟩
    obtain ⟨s, hrun, hs, hend⟩ := Prog.returns_while _ _ _
      (fun s : Fence => s.pending.length + unprotected db s.protectedTasks) hturn _ hstart
    have hdone : s.pending = [] := by simpa using hend
    refine ⟨_, Prog.returns_bind hrun (Prog.returns_pure _), ⟨hs.start, fun t ht => ?_⟩, ?_⟩
    · have hclosed := hs.closed t ht
      rw [hdone] at hclosed
      exact hclosed.resolve_left List.not_mem_nil
    · intro tasks htasks t ht
      exact hs.least tasks htasks t ht

end loop

/-! ## The rounds of the claim -/

section rounds
variable (db : Db) (runId : UUID)

theorem mem_protectDependencies (tasks : List UUID) (d : UUID) :
    d ∈ protectDependencies db runId tasks ↔
      d ∈ tasks ∨ ∃ t ∈ tasks, LeadsTo db runId t d := by
  unfold protectDependencies
  rw [List.mem_append, List.mem_dedup, List.mem_flatMap]
  constructor
  · intro h
    rcases h with h | ⟨t, ht, hd⟩
    · exact .inl h
    · cases hrow : db.taskOf runId t with
      | none =>
        rw [hrow] at hd
        cases hd
      | some row =>
        rw [hrow] at hd
        obtain ⟨hdep, hkeep⟩ := List.mem_filter.mp hd
        rw [Bool.and_eq_true] at hkeep
        exact .inr ⟨t, ht, row, hrow, hdep, hkeep.2⟩
  · intro h
    by_cases hin : d ∈ tasks
    · exact .inl hin
    · obtain ⟨t, ht, row, hrow, hdep, hlive⟩ := h.resolve_left hin
      refine .inr ⟨t, ht, ?_⟩
      rw [hrow]
      refine List.mem_filter.mpr ⟨hdep, ?_⟩
      rw [Bool.and_eq_true]
      exact ⟨by simpa using hin, hlive⟩

theorem unprotected_mono (tasks tasks' : List UUID) (h : ∀ t ∈ tasks, t ∈ tasks') :
    unprotected db tasks' ≤ unprotected db tasks := by
  unfold unprotected
  apply List.countP_mono_left
  intro k _ hk
  simp only [decide_eq_true_eq] at hk ⊢
  exact fun hin => hk (h k hin)

/- A round protects a new row, as long as the set is not closed. -/
theorem unprotected_round (tasks : List UUID) (t d : UUID) (ht : t ∈ tasks)
    (hd : LeadsTo db runId t d) (hnew : d ∉ tasks) :
    unprotected db (protectDependencies db runId tasks) < unprotected db tasks := by
  obtain ⟨row, hrow, hdep, hlive⟩ := hd
  have hone := unprotected_append db tasks d (mem_scheduledKeys db runId d hlive) hnew
  have hmono := unprotected_mono db (tasks ++ [d]) (protectDependencies db runId tasks) (by
    intro x hx
    rw [mem_protectDependencies]
    rcases List.mem_append.mp hx with hx | hx
    · exact .inl hx
    · rw [List.mem_singleton.mp hx]
      exact .inr ⟨t, ht, row, hrow, hdep, hlive⟩)
  omega

/- After `n` rounds the set is closed, or `n` rows have been protected. -/
theorem rounds_closed (n : ℕ) (tasks : List UUID) :
    (∀ t ∈ (protectDependencies db runId)^[n] tasks, ∀ d, LeadsTo db runId t d →
      d ∈ (protectDependencies db runId)^[n] tasks) ∨
    unprotected db ((protectDependencies db runId)^[n] tasks) + n ≤ unprotected db tasks := by
  induction n with
  | zero => exact .inr le_rfl
  | succ n ih =>
    rw [Function.iterate_succ_apply']
    generalize (protectDependencies db runId)^[n] tasks = reached at ih ⊢
    by_cases hclosed : ∀ t ∈ reached, ∀ d, LeadsTo db runId t d → d ∈ reached
    · have hsame : ∀ x, x ∈ protectDependencies db runId reached ↔ x ∈ reached := by
        intro x
        rw [mem_protectDependencies]
        exact ⟨fun h => h.elim id fun ⟨t, ht, hd⟩ => hclosed t ht x hd, .inl⟩
      refine .inl fun t ht d hd => ?_
      exact (hsame d).mpr (hclosed t ((hsame t).mp ht) d hd)
    · simp only [not_forall] at hclosed
      obtain ⟨t, ht, d, hd, hnew⟩ := hclosed
      have hless := unprotected_round db runId reached t d ht hd hnew
      have hleft := ih.resolve_left fun h => hnew (h t ht d hd)
      exact .inr (by omega)

theorem rounds_least (n : ℕ) (tasks : Set UUID) (h : Fences db runId tasks) (start : List UUID)
    (hstart : ∀ t ∈ start, t ∈ tasks) :
    ∀ t ∈ (protectDependencies db runId)^[n] start, t ∈ tasks := by
  induction n with
  | zero => exact hstart
  | succ n ih =>
    intro t ht
    rw [Function.iterate_succ_apply', mem_protectDependencies] at ht
    rcases ht with ht | ⟨u, hu, hd⟩
    · exact ih t ht
    · exact h.2 u (ih u hu) t hd

theorem rounds_start (n : ℕ) (start : List UUID) :
    ∀ t ∈ start, t ∈ (protectDependencies db runId)^[n] start := by
  induction n with
  | zero => exact fun t ht => ht
  | succ n ih =>
    intro t ht
    rw [Function.iterate_succ_apply', mem_protectDependencies]
    exact .inl (ih t ht)

/-- The rounds a claim is decided with reach the least set too. -/
theorem feedbackPriorityFence_least :
    IsLeast {set | Fences db runId set} {t | t ∈ feedbackPriorityFence db runId} := by
  have hfence : feedbackPriorityFence db runId =
      (protectDependencies db runId)^[db.scheduled.rows.length] (fencedTasks db runId) := rfl
  rw [hfence]
  refine ⟨⟨rounds_start db runId _ _, ?_⟩, fun tasks htasks t ht => ?_⟩
  · rcases rounds_closed db runId db.scheduled.rows.length (fencedTasks db runId) with hclosed | hall
    · exact hclosed
    · -- every row is protected by now
      intro t ht d hd
      by_contra hnew
      have hless := unprotected_round db runId _ t d ht hd hnew
      have hle : unprotected db (fencedTasks db runId) ≤ (scheduledKeys db).length :=
        List.countP_le_length
      have hkeys : (scheduledKeys db).length = db.scheduled.rows.length := List.length_map _
      omega
  · exact rounds_least db runId _ tasks htasks _ htasks.1 t ht

end rounds

/-- The fence terminates, and is the least set that holds the fenced tasks and is closed under
their non-terminal scheduled dependencies. -/
theorem feedback_fence_exact (db : Db) (runId : UUID) :
    ∃ tasks, Prog.Returns (priorityFence db runId) tasks ∧
      IsLeast {set | Fences db runId set} {t | t ∈ tasks} ∧
      ∀ t, t ∈ tasks ↔ t ∈ feedbackPriorityFence db runId := by
  obtain ⟨tasks, hrun, hleast⟩ := returns_priorityFence db runId
  have hsame := hleast.unique (feedbackPriorityFence_least db runId)
  exact ⟨tasks, hrun, hleast, fun t => Set.ext_iff.mp hsame t⟩

end ParallelForge.Scheduling
