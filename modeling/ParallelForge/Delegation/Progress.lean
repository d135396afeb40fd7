import ParallelForge.Delegation.Authority
import ParallelForge.Delegation.DagCharacterization
import ParallelForge.Scheduling.Claim

/-!
# Delegation makes progress

A task waits for its dependencies, a primary also for its children. The two
edge sets are checked apart, but a child that passes `validate_child_authority`
has a primary as its parent, is none itself and does not depend on it: all
tasks but the root are children of the root, and none of them waits for it.
-/

namespace ParallelForge.Delegation
open Base Scheduling Relation

def logicalTasks (tasks : List TaskContract) : List LogicalTaskContract :=
  tasks.map (·.toLogicalTaskContract)

def WaitsFor (tasks : List TaskContract) (waiting awaited : UUID) : Prop :=
  ∃ t ∈ tasks, t.taskId = waiting ∧ (awaited ∈ t.dependencyTaskIds ∨
    (t.purpose = .primary ∧ ∃ child ∈ tasks, child.taskId = awaited ∧
      child.parentTaskId = some t.taskId))

/- A state gives each task one of the states of its scheduled row. -/
section states
variable (s : UUID → TaskState)

/-- A queued task may be claimed when all of its dependencies are terminal. -/
def Claimable (t : TaskContract) : Prop :=
  s t.taskId = .queued ∧ ∀ d ∈ t.dependencyTaskIds, s d = .terminal

/-- A claimed task may complete when, for a primary, all of its children are terminal. -/
def Completable (tasks : List TaskContract) (t : TaskContract) : Prop :=
  s t.taskId ≠ .queued ∧ s t.taskId ≠ .terminal ∧
    (t.purpose = .primary → ∀ child ∈ tasks, child.parentTaskId = some t.taskId →
      s child.taskId = .terminal)

end states

inductive Advance (tasks : List TaskContract) : (UUID → TaskState) → (UUID → TaskState) → Prop
  | claim (s : UUID → TaskState) (t : TaskContract) (ht : t ∈ tasks) (h : Claimable s t) :
      Advance tasks s (Function.update s t.taskId .leased)
  | complete (s : UUID → TaskState) (t : TaskContract) (ht : t ∈ tasks) (h : Completable s tasks t) :
      Advance tasks s (Function.update s t.taskId .terminal)

/-- Every delegated task passed the authority check against its parent. -/
def Authorized (tasks : List TaskContract) (envelope : ExecutionEnvelope) : Prop :=
  ∀ child ∈ tasks, ∀ parent ∈ tasks, child.parentTaskId = some parent.taskId →
    validateChildAuthority parent child envelope = .ok ()

section family
variable {nt : Bool} {casefold : String → String} {tasks : List TaskContract}
  {envelope : ExecutionEnvelope} (hdag : TaskDag nt casefold (logicalTasks tasks))
include hdag

theorem same_of_taskId {t u : TaskContract} (ht : t ∈ tasks) (hu : u ∈ tasks)
    (h : t.taskId = u.taskId) : t = u := by
  have hunique := hdag.unique
  rw [logicalTasks, List.map_map] at hunique
  exact List.inj_on_of_nodup_map hunique ht hu h

variable (hauth : Authorized tasks envelope)
include hauth

/- One task has no parent; it is the parent of all others, and none of them waits for it. -/
theorem exists_family : ∃ root ∈ tasks, root.parentTaskId = none ∧
    ∀ t ∈ tasks, t ≠ root → t.parentTaskId = some root.taskId ∧ t.purpose ≠ .primary ∧
      root.taskId ∉ t.dependencyTaskIds := by
  obtain ⟨top, htop, hnone, -, honly⟩ := hdag.root
  obtain ⟨root, hroot, rfl⟩ := List.mem_map.mp htop
  refine ⟨root, hroot, hnone, ?_⟩
  have hbounded : ∀ t ∈ tasks, t ≠ root →
      ∃ parent ∈ tasks, Bounded parent t envelope := by
    intro t ht hne
    cases hp : t.parentTaskId with
    | none =>
      have hsame := honly _ (List.mem_map_of_mem ht) hp
      have hid : t.taskId = root.taskId := congrArg LogicalTaskContract.taskId hsame
      exact absurd (same_of_taskId hdag ht hroot hid) hne
    | some parentId =>
      obtain ⟨logical, hlogical, hid, -⟩ := hdag.parents _ (List.mem_map_of_mem ht) parentId hp
      obtain ⟨parent, hparent, rfl⟩ := List.mem_map.mp hlogical
      have hok := hauth t ht parent hparent (by rw [hp, hid])
      exact ⟨parent, hparent, (validateChildAuthority_eq_ok parent t envelope).mp hok⟩
  intro t ht hne
  obtain ⟨parent, hparent, hb⟩ := hbounded t ht hne
  -- a task with a parent is no primary, so the parent has none
  have hpr : parent = root := by
    by_contra hother
    obtain ⟨_, _, hb'⟩ := hbounded parent hparent hother
    exact hb'.childPurpose hb.parentPurpose
  rw [hpr] at hb
  exact ⟨hb.parentTaskId, hb.childPurpose, hb.independent⟩

theorem waitsFor_acyclic : Acyclic (WaitsFor tasks) := by
  obtain ⟨root, hroot, hnone, hchildren⟩ := exists_family hdag hauth
  have hdepends : ∀ t ∈ tasks, ∀ d ∈ t.dependencyTaskIds,
      DependsOn (logicalTasks tasks) t.taskId d :=
    fun t ht d hd => ⟨_, List.mem_map_of_mem ht, rfl, hd⟩
  have hnever : ∀ x y, WaitsFor tasks x y → y ≠ root.taskId := by
    rintro x y ⟨t, ht, rfl, hdep | ⟨-, child, hchild, rfl, hparent⟩⟩ hy
    · rw [hy] at hdep
      by_cases htr : t = root
      · rw [htr] at hdep
        exact hdag.dependenciesAcyclic _ (TransGen.single (hdepends root hroot _ hdep))
      · exact (hchildren t ht htr).2.2 hdep
    · have hsame := same_of_taskId hdag hchild hroot hy
      rw [hsame, hnone] at hparent
      cases hparent
  have hbelow : ∀ x y, WaitsFor tasks x y → x ≠ root.taskId → DependsOn (logicalTasks tasks) x y := by
    rintro x y ⟨t, ht, rfl, hdep | ⟨hprimary, -⟩⟩ hx
    · exact hdepends t ht y hdep
    · have htr : t ≠ root := fun he => hx (by rw [he])
      exact absurd hprimary (hchildren t ht htr).2.1
  have hpath : ∀ x y, TransGen (WaitsFor tasks) x y → x ≠ root.taskId →
      TransGen (DependsOn (logicalTasks tasks)) x y ∧ y ≠ root.taskId := by
    intro x y hxy hx
    induction hxy with
    | single hstep => exact ⟨TransGen.single (hbelow _ _ hstep hx), hnever _ _ hstep⟩
    | tail _ hstep ih => exact ⟨ih.1.tail (hbelow _ _ hstep ih.2), hnever _ _ hstep⟩
  intro x hx
  have hxroot : x ≠ root.taskId := by
    obtain ⟨y, -, hlast⟩ := TransGen.tail'_iff.mp hx
    exact hnever y x hlast
  exact hdag.dependenciesAcyclic x (hpath x x hx hxroot).1

/- A task at the end of the waiting among those that are not terminal can move. -/
theorem can_advance (s : UUID → TaskState) (h : ∃ t ∈ tasks, s t.taskId ≠ .terminal) :
    ∃ t ∈ tasks, Claimable s t ∨ Completable s tasks t := by
  obtain ⟨t, ht, hopen⟩ := h
  have hleft : (tasks.filter (s ·.taskId ≠ .terminal)).map (·.taskId) ≠ [] := by
    intro hnil
    rw [List.map_eq_nil_iff, List.filter_eq_nil_iff] at hnil
    exact hnil t ht (by simpa using hopen)
  obtain ⟨x, hx, hsink⟩ := (waitsFor_acyclic hdag hauth).exists_sink _ hleft
  obtain ⟨t, ht, rfl⟩ := List.mem_map.mp hx
  rw [List.mem_filter, decide_eq_true_eq] at ht
  obtain ⟨htin, hopen⟩ := ht
  have hover : ∀ u ∈ tasks, WaitsFor tasks t.taskId u.taskId → s u.taskId = .terminal := by
    intro u hu hwait
    by_contra hne
    exact hsink u.taskId (List.mem_map.mpr ⟨u, by simp [hu, hne], rfl⟩) hwait
  refine ⟨t, htin, ?_⟩
  by_cases hq : s t.taskId = .queued
  · refine Or.inl ⟨hq, ?_⟩
    intro d hd
    obtain ⟨logical, hlogical, hid⟩ := hdag.dependencies _ (List.mem_map_of_mem htin) d hd
    obtain ⟨u, hu, rfl⟩ := List.mem_map.mp hlogical
    rw [← hid]
    rw [← hid] at hd
    exact hover u hu ⟨t, htin, rfl, Or.inl hd⟩
  · refine Or.inr ⟨hq, hopen, ?_⟩
    intro hprimary child hchild hparent
    exact hover child hchild ⟨t, htin, rfl, Or.inr ⟨hprimary, child, hchild, rfl, hparent⟩⟩

end family

/-- How many moves a task has before it: to be claimed and to complete. -/
def weight : TaskState → ℕ
  | .terminal => 0
  | .queued => 2
  | _ => 1

def work (tasks : List TaskContract) (s : UUID → TaskState) : ℕ :=
  (tasks.map fun t => weight (s t.taskId)).sum

theorem work_update (tasks : List TaskContract) (s : UUID → TaskState) (id : UUID) (state : TaskState)
    (hlt : weight state < weight (s id)) :
    work tasks (Function.update s id state) ≤ work tasks s ∧
      ((∃ t ∈ tasks, t.taskId = id) → work tasks (Function.update s id state) < work tasks s) := by
  induction tasks with
  | nil => simp [work]
  | cons u tasks ih =>
    obtain ⟨hle, hless⟩ := ih
    have hcons : ∀ s, work (u :: tasks) s = weight (s u.taskId) + work tasks s := by
      intro s
      simp only [work, List.map_cons, List.sum_cons]
    rw [hcons, hcons]
    by_cases hu : u.taskId = id
    · rw [hu, Function.update_self]
      constructor
      · omega
      · intro _
        omega
    · rw [Function.update_of_ne hu]
      constructor
      · omega
      · rintro ⟨t, ht, hid⟩
        rcases List.mem_cons.mp ht with rfl | ht
        · exact absurd hid hu
        · have := hless ⟨t, ht, hid⟩
          omega

theorem work_advance (tasks : List TaskContract) (s s' : UUID → TaskState) (h : Advance tasks s s') :
    work tasks s' < work tasks s := by
  cases h with
  | claim t ht hc =>
    refine (work_update tasks s t.taskId .leased ?_).2 ⟨t, ht, rfl⟩
    rw [hc.1]
    decide
  | complete t ht hc =>
    refine (work_update tasks s t.taskId .terminal ?_).2 ⟨t, ht, rfl⟩
    obtain ⟨hq, hopen, -⟩ := hc
    cases hstate : s t.taskId with
    | queued => exact absurd hstate hq
    | terminal => exact absurd hstate hopen
    | leased => decide
    | blocked => decide
    | reconciling => decide

/-- The rows of the tasks are scheduled, with their dependencies. -/
def Scheduled (db : Db) (tasks : List TaskContract) : Prop :=
  ∀ t ∈ tasks, ∃ row, db.scheduled.get t.taskId = some row ∧ row.runId = t.runId ∧
    row.dependencyTaskIds = t.dependencyTaskIds

def statesOf (db : Db) (id : UUID) : TaskState :=
  ((db.scheduled.get id).map (·.state)).getD .terminal

/- The dependency filter of a claim is the rule above. -/
theorem claimable_iff_filter {nt : Bool} {casefold : String → String} {tasks : List TaskContract}
    (hdag : TaskDag nt casefold (logicalTasks tasks)) (db : Db) (hdb : Scheduled db tasks)
    (t : TaskContract) (ht : t ∈ tasks) (row : ScheduledTask)
    (hrow : db.scheduled.get t.taskId = some row) :
    Claimable (statesOf db) t ↔ row.state = .queued ∧ hasPendingDependency db row = false := by
  obtain ⟨row', hrow', hrun, hdeps⟩ := hdb t ht
  rw [hrow, Option.some.injEq] at hrow'
  rw [← hrow'] at hrun hdeps
  have hstate : statesOf db t.taskId = row.state := by rw [statesOf, hrow, Option.map_some, Option.getD_some]
  rw [Claimable, hstate, hasPendingDependency, Table.any_eq_false]
  refine and_congr_right fun _ => ?_
  constructor
  · intro h k r hr
    by_cases hk : k ∈ t.dependencyTaskIds
    · have hover := h k hk
      rw [statesOf, hr, Option.map_some, Option.getD_some] at hover
      simp [hover]
    · simp [hdeps, hk]
  · intro h d hd
    obtain ⟨logical, hlogical, hid⟩ := hdag.dependencies _ (List.mem_map_of_mem ht) d hd
    obtain ⟨u, hu, rfl⟩ := List.mem_map.mp hlogical
    obtain ⟨r, hr, hrrun, -⟩ := hdb u hu
    rw [hid] at hr
    have hsame : r.runId = row.runId := by
      rw [hrrun, hrun]
      exact hdag.oneRun _ (List.mem_map_of_mem hu) _ (List.mem_map_of_mem ht)
    have hfree := h d r hr
    rw [hsame, hdeps] at hfree
    rw [statesOf, hr, Option.map_some, Option.getD_some]
    simpa [hd] using hfree

/-- Among tasks accepted as a graph whose children all passed the authority check, waiting is
acyclic; while some task is not terminal one can be claimed or complete, every such move
brings the run closer to its end, and from every state it can be brought there. In the
scheduler's own rows a task is claimable exactly if it is queued and passes the claim filter. -/
theorem delegation_progress (nt : Bool) (casefold : String → String) (tasks : List TaskContract)
    (envelope : ExecutionEnvelope)
    (haccepted : Prog.Returns (validateTaskDag nt casefold (logicalTasks tasks)) (.ok ()))
    (hauthorized : Authorized tasks envelope) :
    Acyclic (WaitsFor tasks) ∧
    (∀ s : UUID → TaskState, (∃ t ∈ tasks, s t.taskId ≠ .terminal) →
      ∃ t ∈ tasks, Claimable s t ∨ Completable s tasks t) ∧
    (∀ s s', Advance tasks s s' → work tasks s' < work tasks s) ∧
    (∀ s, ∃ s', ReflTransGen (Advance tasks) s s' ∧ ∀ t ∈ tasks, s' t.taskId = .terminal) ∧
    (∀ db, Scheduled db tasks → ∀ t ∈ tasks, ∀ row, db.scheduled.get t.taskId = some row →
      (Claimable (statesOf db) t ↔ row.state = .queued ∧ hasPendingDependency db row = false)) := by
  by_cases hne : tasks = []
  · subst hne
    refine ⟨?_, by simp, work_advance [], fun s => ⟨s, ReflTransGen.refl, by simp⟩, by simp⟩
    intro x hx
    obtain ⟨y, ⟨t, ht, -⟩, -⟩ := TransGen.head'_iff.mp hx
    cases ht
  · have hne' : logicalTasks tasks ≠ [] := by simpa [logicalTasks] using hne
    obtain ⟨r, hrun, hr⟩ := returns_validateTaskDag nt casefold _ hne'
    have hdag := hr.mp (hrun.unique haccepted)
    refine ⟨waitsFor_acyclic hdag hauthorized, can_advance hdag hauthorized, work_advance tasks, ?_,
      fun db hdb t ht row hrow => claimable_iff_filter hdag db hdb t ht row hrow⟩
    intro s
    -- induction on the work left
    induction hn : work tasks s using Nat.strong_induction_on generalizing s with
    | _ n ih =>
      by_cases hopen : ∃ t ∈ tasks, s t.taskId ≠ .terminal
      · obtain ⟨s₁, hstep⟩ : ∃ s₁, Advance tasks s s₁ := by
          obtain ⟨t, ht, hc | hc⟩ := can_advance hdag hauthorized s hopen
          · exact ⟨_, Advance.claim s t ht hc⟩
          · exact ⟨_, Advance.complete s t ht hc⟩
        have hless := work_advance tasks s s₁ hstep
        obtain ⟨s', hrest, hend⟩ := ih (work tasks s₁) (by omega) s₁ rfl
        exact ⟨s', ReflTransGen.head hstep hrest, hend⟩
      · refine ⟨s, ReflTransGen.refl, ?_⟩
        intro t ht
        by_contra hnot
        exact hopen ⟨t, ht, hnot⟩

def sampleRoute : RouteBinding :=
  let spec : RouteSpec := ⟨"codex", "app-server", "gpt", .medium, .subscription, .allowanceOnly⟩
  ⟨spec, spec, none, false⟩

def sampleEnvelope : ExecutionEnvelope :=
  ⟨7, "default", 1, [(.primary, sampleRoute), (.routineImplementation, sampleRoute)], []⟩

def samplePrimary : TaskContract :=
  { runId := 7, taskId := 1, purpose := .primary, route := sampleRoute, parentTaskId := none
    dependencyTaskIds := [], ownedPaths := ["src"], acceptanceIds := [], maxRepairs := 3
    budget := {}, namedChecks := ["test"], typedAcceptance := [], acceptanceIds_eq := rfl }

def sampleChild (taskId : UUID) (dependencies : List UUID) (path : String) : TaskContract :=
  { runId := 7, taskId := taskId, purpose := .routineImplementation, route := sampleRoute
    parentTaskId := some 1, dependencyTaskIds := dependencies, ownedPaths := [path]
    acceptanceIds := [], maxRepairs := 2, budget := {}, namedChecks := ["test"]
    typedAcceptance := [], acceptanceIds_eq := rfl }

def sampleTasks : List TaskContract :=
  [samplePrimary, sampleChild 2 [] "src/core", sampleChild 3 [2] "src/docs"]

theorem sampleTasks_dag : TaskDag false id (logicalTasks sampleTasks) := by
  have hin : ∀ t ∈ logicalTasks sampleTasks, t = samplePrimary.toLogicalTaskContract ∨
      t = (sampleChild 2 [] "src/core").toLogicalTaskContract ∨
      t = (sampleChild 3 [2] "src/docs").toLogicalTaskContract := by
    intro t ht
    simpa [logicalTasks, sampleTasks] using ht
  have hscope : ∀ path ∈ ["src/core", "src/docs"],
      Contained false id [path] samplePrimary.ownedPaths := by
    intro path hpath child hchild
    rw [List.mem_singleton.mp hchild]
    refine ⟨"src", List.mem_singleton_self _, Or.inr ?_⟩
    rw [List.mem_cons, List.mem_singleton] at hpath
    rcases hpath with rfl | rfl
    · exact ⟨"core", rfl⟩
    · exact ⟨"docs", rfl⟩
  refine ⟨⟨by decide, ?_, ?_, ?_⟩, ?_, ?_, samplePrimary.toLogicalTaskContract, ?_, rfl, rfl, ?_⟩
  · intro t ht u hu
    rcases hin t ht with rfl | rfl | rfl <;> rcases hin u hu with rfl | rfl | rfl <;> rfl
  · intro t ht parentId hp
    refine ⟨samplePrimary.toLogicalTaskContract, by simp [logicalTasks, sampleTasks], ?_, rfl, ?_⟩
    · rcases hin t ht with rfl | rfl | rfl
      · cases hp
      · exact Option.some.inj hp
      · exact Option.some.inj hp
    · rcases hin t ht with rfl | rfl | rfl
      · cases hp
      · exact hscope _ (by simp)
      · exact hscope _ (by simp)
  · intro t ht d hd
    refine ⟨(sampleChild 2 [] "src/core").toLogicalTaskContract,
      by simp [logicalTasks, sampleTasks], ?_⟩
    rcases hin t ht with rfl | rfl | rfl
    · cases hd
    · cases hd
    · exact (List.mem_singleton.mp hd).symm
  · apply acyclic_of_rank id
    rintro x y ⟨t, ht, rfl, hp⟩
    rcases hin t ht with rfl | rfl | rfl
    · cases hp
    · rw [← Option.some.inj hp]
      decide
    · rw [← Option.some.inj hp]
      decide
  · apply acyclic_of_rank id
    rintro x y ⟨t, ht, rfl, hd⟩
    rcases hin t ht with rfl | rfl | rfl
    · cases hd
    · cases hd
    · rw [List.mem_singleton.mp hd]
      decide
  · simp [logicalTasks, sampleTasks]
  · intro t ht hn
    rcases hin t ht with rfl | rfl | rfl
    · rfl
    · cases hn
    · cases hn

theorem sampleTasks_authorized : Authorized sampleTasks sampleEnvelope := by
  intro child hchild parent hparent hlink
  have hin : ∀ t ∈ sampleTasks, t = samplePrimary ∨ t = sampleChild 2 [] "src/core" ∨
      t = sampleChild 3 [2] "src/docs" := by
    intro t ht
    simpa [sampleTasks] using ht
  rw [validateChildAuthority_eq_ok]
  rcases hin parent hparent with rfl | rfl | rfl
  · rcases hin child hchild with rfl | rfl | rfl
    · cases hlink
    · constructor <;> first | rfl | decide
    · constructor <;> first | rfl | decide
  · rcases hin child hchild with rfl | rfl | rfl <;> cases hlink
  · rcases hin child hchild with rfl | rfl | rfl <;> cases hlink

/- The second child waits for the first. -/
theorem delegation_progress_sample :
    Acyclic (WaitsFor sampleTasks) ∧ WaitsFor sampleTasks 3 2 ∧
    ∃ t ∈ sampleTasks, Claimable (fun _ => .queued) t ∨ Completable (fun _ => .queued) sampleTasks t := by
  have haccepted : Prog.Returns (validateTaskDag false id (logicalTasks sampleTasks)) (.ok ()) := by
    obtain ⟨r, hrun, hr⟩ := returns_validateTaskDag false id (logicalTasks sampleTasks) (by simp [logicalTasks, sampleTasks])
    rw [← hr.mpr sampleTasks_dag]
    exact hrun
  obtain ⟨hacyclic, hmoves, -⟩ := delegation_progress false id sampleTasks sampleEnvelope haccepted
    sampleTasks_authorized
  refine ⟨hacyclic, ⟨sampleChild 3 [2] "src/docs", by simp [sampleTasks], rfl, Or.inl (by decide)⟩, ?_⟩
  exact hmoves _ ⟨samplePrimary, by simp [sampleTasks], by decide⟩

end ParallelForge.Delegation
