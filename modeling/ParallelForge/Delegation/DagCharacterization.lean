import ParallelForge.Delegation.TaskDag

/-!
# What `validate_task_dag` accepts

`TaskDag` says it without an algorithm: unique ids of one run, parents that
exist, may delegate and contain the paths of their children, dependencies that
exist, no cycle of parents and none of dependencies, and one root, a primary.
Each loop of the validator is one lemma: what it returns, and when it raises.
-/

namespace ParallelForge.Delegation
open Base Scheduling Relation

section spec
variable (nt : Bool) (casefold : String → String)

/-- Every path of the one list is, or lies below, a path of the other. -/
def Contained (inner outer : List String) : Prop :=
  ∀ child ∈ inner, ∃ parent ∈ outer,
    policyPathKey nt casefold child = policyPathKey nt casefold parent ∨
      DirectoryPrefix (policyPathKey nt casefold parent) (policyPathKey nt casefold child)

def ParentEdge (tasks : List LogicalTaskContract) (child parent : UUID) : Prop :=
  ∃ t ∈ tasks, t.taskId = child ∧ t.parentTaskId = some parent

def DependsOn (tasks : List LogicalTaskContract) (task dependency : UUID) : Prop :=
  ∃ t ∈ tasks, t.taskId = task ∧ dependency ∈ t.dependencyTaskIds

/-- What the first two loops establish. -/
structure Linked (tasks : List LogicalTaskContract) : Prop where
  unique : (tasks.map (·.taskId)).Nodup
  oneRun : ∀ t ∈ tasks, ∀ u ∈ tasks, t.runId = u.runId
  parents : ∀ t ∈ tasks, ∀ parentId, t.parentTaskId = some parentId →
    ∃ parent ∈ tasks, parent.taskId = parentId ∧ canDelegate parent.purpose = true ∧
      Contained nt casefold t.ownedPaths parent.ownedPaths
  dependencies : ∀ t ∈ tasks, ∀ d ∈ t.dependencyTaskIds, ∃ u ∈ tasks, u.taskId = d

structure TaskDag (tasks : List LogicalTaskContract) : Prop extends Linked nt casefold tasks where
  parentsAcyclic : Acyclic (ParentEdge tasks)
  dependenciesAcyclic : Acyclic (DependsOn tasks)
  root : ∃ root ∈ tasks, root.parentTaskId = none ∧ root.purpose = .primary ∧
    ∀ t ∈ tasks, t.parentTaskId = none → t = root

theorem pathWithin_iff (child parent : String) :
    pathWithin nt casefold child parent = true ↔
      policyPathKey nt casefold child = policyPathKey nt casefold parent ∨
        DirectoryPrefix (policyPathKey nt casefold parent) (policyPathKey nt casefold child) := by
  simp only [pathWithin, Bool.or_eq_true, beq_iff_eq, isBelow_iff]

theorem directoryPrefix_trans {a b c : String} (hab : DirectoryPrefix a b) (hbc : DirectoryPrefix b c) :
    DirectoryPrefix a c := by
  obtain ⟨x, rfl⟩ := hab
  obtain ⟨y, rfl⟩ := hbc
  exact ⟨x ++ "/" ++ y, by simp only [String.append_assoc]⟩

theorem contained_refl (paths : List String) : Contained nt casefold paths paths :=
  fun path h => ⟨path, h, Or.inl rfl⟩

theorem contained_trans {inner middle outer : List String} (him : Contained nt casefold inner middle)
    (hmo : Contained nt casefold middle outer) : Contained nt casefold inner outer := by
  intro child hchild
  obtain ⟨path, hpath, hin⟩ := him child hchild
  obtain ⟨parent, hparent, hout⟩ := hmo path hpath
  refine ⟨parent, hparent, ?_⟩
  rcases hin with heq | hbelow
  · rw [heq]
    exact hout
  · rcases hout with heq | hbelow'
    · rw [← heq]
      exact Or.inr hbelow
    · exact Or.inr (directoryPrefix_trans hbelow' hbelow)

theorem checkScope_eq_ok (task parent : LogicalTaskContract) :
    checkScope nt casefold task parent = .ok () ↔
      Contained nt casefold task.ownedPaths parent.ownedPaths := by
  have hnone : escalation nt casefold task parent = none ↔
      Contained nt casefold task.ownedPaths parent.ownedPaths := by
    simp only [escalation, List.find?_eq_none, Bool.not_eq_true', Bool.not_eq_false,
      List.any_eq_true, pathWithin_iff, Contained]
  rw [← hnone, checkScope]
  cases escalation nt casefold task parent with
  | none => simp
  | some path => simp

end spec

/-- `m` is the map of the tasks: each id leads to its task. -/
structure Maps (m : TaskMap) (tasks : List LogicalTaskContract) : Prop where
  get : ∀ i t, m.get i = some t ↔ t ∈ tasks ∧ t.taskId = i

theorem Maps.isSome {m : TaskMap} {tasks : List LogicalTaskContract} (h : Maps m tasks) (i : UUID) :
    (m.get i).isSome = true ↔ ∃ t ∈ tasks, t.taskId = i := by
  rw [Option.isSome_iff_exists]
  exact exists_congr fun t => h.get i t

theorem Maps.get_self {m : TaskMap} {tasks : List LogicalTaskContract} (h : Maps m tasks)
    {t : LogicalTaskContract} (ht : t ∈ tasks) : m.get t.taskId = some t :=
  (h.get _ t).mpr ⟨ht, rfl⟩

/- The first loop registers the tasks exactly if no id comes twice and all belong to the run. -/
theorem foldlM_register (runId : UUID) (tasks : List LogicalTaskContract) (done : List LogicalTaskContract)
    (m m' : TaskMap) (hm : Maps m done) :
    tasks.foldlM (register runId) m = .ok m' →
      Maps m' (done ++ tasks) ∧ (tasks.map (·.taskId)).Nodup ∧
        (∀ t ∈ tasks, ∀ u ∈ done, t.taskId ≠ u.taskId) ∧ ∀ t ∈ tasks, t.runId = runId := by
  induction tasks generalizing done m with
  | nil =>
    intro h
    cases h
    rw [List.append_nil]
    exact ⟨hm, List.nodup_nil, by simp, by simp⟩
  | cons task tasks ih =>
    intro h
    rw [List.foldlM_cons, bind_eq_ok] at h
    obtain ⟨m₁, hfirst, hrest⟩ := h
    simp only [register, bind_eq_ok, require_eq_ok, exists_const] at hfirst
    obtain ⟨hfresh, hrun, hput⟩ := hfirst
    injection hput with hput
    have hnew : ∀ u ∈ done, u.taskId ≠ task.taskId := by
      intro u hu he
      have hget := hm.get_self hu
      rw [he, hfresh] at hget
      cases hget
    have hm₁ : Maps m₁ (done ++ [task]) := by
      constructor
      intro i t
      rw [← hput, Table.get_put]
      split
      · next hi =>
        rw [hi, Option.some.injEq, List.mem_append, List.mem_singleton]
        constructor
        · rintro rfl
          exact ⟨Or.inr rfl, rfl⟩
        · rintro ⟨hold | rfl, hid⟩
          · exact absurd hid (hnew t hold)
          · rfl
      · next hi =>
        rw [hm.get, List.mem_append, List.mem_singleton]
        constructor
        · rintro ⟨hold, hid⟩
          exact ⟨Or.inl hold, hid⟩
        · rintro ⟨hold | rfl, hid⟩
          · exact ⟨hold, hid⟩
          · exact absurd hid.symm hi
    obtain ⟨hmaps, hnodup, hdisjoint, hruns⟩ := ih (done ++ [task]) m₁ hm₁ hrest
    rw [List.append_assoc] at hmaps
    refine ⟨hmaps, ?_, ?_, ?_⟩
    · rw [List.map_cons, List.nodup_cons]
      refine ⟨?_, hnodup⟩
      intro hmem
      obtain ⟨u, hu, he⟩ := List.mem_map.mp hmem
      exact hdisjoint u hu task (by simp) he
    · intro t ht u hu
      rcases List.mem_cons.mp ht with rfl | ht
      · exact (hnew u hu).symm
      · exact hdisjoint t ht u (List.mem_append_left _ hu)
    · intro t ht
      rcases List.mem_cons.mp ht with rfl | ht
      · exact hrun
      · exact hruns t ht

theorem register_succeeds (runId : UUID) (tasks : List LogicalTaskContract) (m : TaskMap)
    (hnodup : (tasks.map (·.taskId)).Nodup) (hfresh : ∀ t ∈ tasks, m.get t.taskId = none)
    (hrun : ∀ t ∈ tasks, t.runId = runId) : ∃ m', tasks.foldlM (register runId) m = .ok m' := by
  induction tasks generalizing m with
  | nil => exact ⟨m, rfl⟩
  | cons task tasks ih =>
    rw [List.map_cons, List.nodup_cons] at hnodup
    obtain ⟨hnotin, hnodup⟩ := hnodup
    have hfirst : register runId m task = .ok (m.put task.taskId task) := by
      simp only [register, bind_eq_ok, require_eq_ok, exists_const]
      exact ⟨hfresh task List.mem_cons_self, hrun task List.mem_cons_self, trivial⟩
    obtain ⟨m', hm'⟩ := ih (m.put task.taskId task) hnodup (by
      intro t ht
      rw [Table.get_put_ne]
      · exact hfresh t (List.mem_cons_of_mem _ ht)
      · intro he
        exact hnotin (List.mem_map.mpr ⟨t, ht, he⟩)) (fun t ht => hrun t (List.mem_cons_of_mem _ ht))
    refine ⟨m', ?_⟩
    rw [List.foldlM_cons, bind_eq_ok]
    exact ⟨_, hfirst, hm'⟩

section checks
variable (nt : Bool) (casefold : String → String) {m : TaskMap} {tasks : List LogicalTaskContract}
  (hm : Maps m tasks)
include hm

theorem checkTask_eq_ok (task : LogicalTaskContract) :
    checkTask nt casefold m task = .ok () ↔
      (∀ parentId, task.parentTaskId = some parentId →
        ∃ parent ∈ tasks, parent.taskId = parentId ∧ canDelegate parent.purpose = true ∧
          Contained nt casefold task.ownedPaths parent.ownedPaths) ∧
      ∀ d ∈ task.dependencyTaskIds, ∃ u ∈ tasks, u.taskId = d := by
  rw [checkTask, bind_unit_eq_ok, forM_eq_ok]
  apply and_congr
  · rw [checkParent]
    cases hp : task.parentTaskId with
    | none => simp
    | some parentId =>
      simp only [bind_eq_ok, orRaise_eq_ok, require_eq_ok, exists_const, Option.some.injEq,
        forall_eq', hm.get]
      apply exists_congr
      intro parent
      rw [checkScope_eq_ok, and_assoc]
  · exact forall_congr' fun d => forall_congr' fun _ => by
      rw [checkDependency, require_eq_ok, hm.isSome]

end checks

theorem maps_empty : Maps Table.empty [] := ⟨by simp⟩

theorem checkTasks_sound (nt : Bool) (casefold : String → String) (tasks : List LogicalTaskContract)
    (m : TaskMap) (h : checkTasks nt casefold tasks = .ok m) :
    Maps m tasks ∧ Linked nt casefold tasks := by
  cases tasks with
  | nil =>
    cases h
    exact ⟨maps_empty, List.nodup_nil, by simp, by simp, by simp⟩
  | cons first rest =>
    simp only [checkTasks, bind_eq_ok] at h
    obtain ⟨m₁, hreg, u, hchecks, hout⟩ := h
    injection hout with hout
    rw [hout] at hreg hchecks
    obtain ⟨hmaps, hunique, -, hruns⟩ := foldlM_register _ _ [] _ _ maps_empty hreg
    rw [List.nil_append] at hmaps
    rw [forM_eq_ok] at hchecks
    have hlinks := fun t ht => (checkTask_eq_ok nt casefold hmaps t).mp (hchecks t ht)
    refine ⟨hmaps, hunique, ?_, fun t ht => (hlinks t ht).1, fun t ht => (hlinks t ht).2⟩
    intro t ht u hu
    rw [hruns t ht, hruns u hu]

theorem checkTasks_complete (nt : Bool) (casefold : String → String) (tasks : List LogicalTaskContract)
    (h : Linked nt casefold tasks) : ∃ m, checkTasks nt casefold tasks = .ok m := by
  cases tasks with
  | nil => exact ⟨_, rfl⟩
  | cons first rest =>
    obtain ⟨m, hreg⟩ := register_succeeds first.runId (first :: rest) Table.empty h.unique
      (fun _ _ => Table.get_empty _) (fun t ht => h.oneRun t ht first List.mem_cons_self)
    obtain ⟨hmaps, -⟩ := foldlM_register _ _ [] _ _ maps_empty hreg
    rw [List.nil_append] at hmaps
    refine ⟨m, ?_⟩
    simp only [checkTasks, bind_eq_ok]
    refine ⟨m, hreg, (), ?_, rfl⟩
    rw [forM_eq_ok]
    intro t ht
    exact (checkTask_eq_ok nt casefold hmaps t).mpr ⟨h.parents t ht, h.dependencies t ht⟩

section walk
variable {m : TaskMap} {tasks : List LogicalTaskContract} (hm : Maps m tasks)
include hm

theorem parentEdge_unique (x y z : UUID) (hy : ParentEdge tasks x y) (hz : ParentEdge tasks x z) :
    y = z := by
  obtain ⟨t, ht, htx, hty⟩ := hy
  obtain ⟨u, hu, hux, huz⟩ := hz
  have hsame : t = u := by
    have hget := hm.get_self ht
    rw [htx, ← hux, hm.get_self hu] at hget
    exact (Option.some.inj hget).symm
  rw [hsame, huz] at hty
  exact (Option.some.inj hty).symm

/-- `current` is reached from the task, and from every ancestor noted on the way. -/
structure Climbs (tasks : List LogicalTaskContract) (task : LogicalTaskContract) (w : Walk) : Prop where
  current : w.current ∈ tasks
  reached : ReflTransGen (ParentEdge tasks) task.taskId w.current.taskId
  nodup : w.ancestors.Nodup
  known : ∀ a ∈ w.ancestors, a ∈ tasks.map (·.taskId)
  above : ∀ a ∈ w.ancestors, ReflTransGen (ParentEdge tasks) a w.current.taskId
  failed : ∀ e, w.failed = some e → ¬ Acyclic (ParentEdge tasks)

def Walk.left (tasks : List LogicalTaskContract) (w : Walk) : ℕ :=
  if w.failed.isSome then 0 else 1 + (tasks.length - w.ancestors.length)

variable (hparents : ∀ t ∈ tasks, ∀ parentId, t.parentTaskId = some parentId →
  ∃ parent ∈ tasks, parent.taskId = parentId)
include hparents

theorem climbs_climb (task : LogicalTaskContract) (w : Walk) (h : Climbs tasks task w)
    (hc : w.climbing = true) :
    Climbs tasks task (climb m task w) ∧ (climb m task w).left tasks < w.left tasks := by
  simp only [Walk.climbing, Bool.and_eq_true, Option.isNone_iff_eq_none,
    Option.isSome_iff_exists] at hc
  obtain ⟨hok, parentId, hpid⟩ := hc
  obtain ⟨parent, hparent, hid⟩ := hparents _ h.current parentId hpid
  have hedge : ParentEdge tasks w.current.taskId parentId := ⟨w.current, h.current, rfl, hpid⟩
  have hget : m.get parentId = some parent := (hm.get _ _).mpr ⟨hparent, hid⟩
  by_cases hseen : parentId ∈ w.ancestors ∨ parentId = task.taskId
  · have hstep : climb m task w = { w with failed := some .parentCycle } := by
      simp only [climb, hpid, if_pos hseen]
    rw [hstep]
    refine ⟨⟨h.current, h.reached, h.nodup, h.known, h.above, ?_⟩, ?_⟩
    · intro e _ hacyclic
      have hback : ReflTransGen (ParentEdge tasks) parentId w.current.taskId := by
        rcases hseen with hold | hself
        · exact h.above parentId hold
        · rw [hself]
          exact h.reached
      exact hacyclic parentId (TransGen.tail' hback hedge)
    · simp only [Walk.left, hok, Option.isSome_some, Option.isSome_none, if_true, if_false,
        Bool.false_eq_true]
      omega
  · have hstep : climb m task w =
        { w with ancestors := parentId :: w.ancestors, current := parent } := by
      simp only [climb, hpid, if_neg hseen, hget]
    rw [not_or] at hseen
    have hnodup : (parentId :: w.ancestors).Nodup := List.nodup_cons.mpr ⟨hseen.1, h.nodup⟩
    have hknown : ∀ a ∈ parentId :: w.ancestors, a ∈ tasks.map (·.taskId) := by
      intro a ha
      rcases List.mem_cons.mp ha with rfl | ha
      · exact List.mem_map.mpr ⟨parent, hparent, hid⟩
      · exact h.known a ha
    rw [hstep]
    refine ⟨⟨hparent, ?_, hnodup, hknown, ?_, ?_⟩, ?_⟩
    · show ReflTransGen _ _ parent.taskId
      rw [hid]
      exact h.reached.tail hedge
    · intro a ha
      show ReflTransGen _ a parent.taskId
      rw [hid]
      rcases List.mem_cons.mp ha with rfl | ha
      · exact ReflTransGen.refl
      · exact (h.above a ha).tail hedge
    · intro e he
      rw [show w.failed = some e from he] at hok
      cases hok
    · -- the ancestors are distinct tasks
      have hlength := (List.subperm_of_subset hnodup hknown).length_le
      rw [List.length_cons, List.length_map] at hlength
      simp only [Walk.left, hok, Option.isSome_none, if_false, Bool.false_eq_true, List.length_cons]
      omega

/- A walk ends; it raises only on a cycle, and a task it does not raise on is on none. -/
theorem returns_walkParents (task : LogicalTaskContract) (ht : task ∈ tasks) :
    ∃ r, Prog.Returns (walkParents m task) r ∧
      (r = .ok () → ¬ TransGen (ParentEdge tasks) task.taskId task.taskId) ∧
      (r ≠ .ok () → ¬ Acyclic (ParentEdge tasks)) := by
  have hstart : Climbs tasks task ⟨[], task, none⟩ :=
    ⟨ht, ReflTransGen.refl, List.nodup_nil, by simp, by simp, by simp⟩
  have hturn : ∀ w, Climbs tasks task w → w.climbing = true →
      ∃ w', Prog.Returns (pure (climb m task w)) w' ∧ Climbs tasks task w' ∧
        w'.left tasks < w.left tasks :=
    fun w hw hc => ⟨_, Prog.returns_pure _, climbs_climb hm hparents task w hw hc⟩
  obtain ⟨w, hrun, hw, hend⟩ := Prog.returns_while _ _ _ _ hturn _ hstart
  refine ⟨_, Prog.returns_bind hrun (Prog.returns_pure _), ?_, ?_⟩
  · intro hok hcycle
    cases hf : w.failed with
    | some e =>
      rw [hf] at hok
      cases hok
    | none =>
      -- the walk ended above: nothing leads on from there
      have htop : w.current.parentTaskId = none := by
        simpa [Walk.climbing, hf] using hend
      have hback := transGen_back (parentEdge_unique hm) hcycle hw.reached
      obtain ⟨z, ⟨u, hu, hux, huz⟩, -⟩ := TransGen.head'_iff.mp hback
      have hsame : u = w.current := by
        have hget := hm.get_self hu
        rw [hux, hm.get_self hw.current] at hget
        exact (Option.some.inj hget).symm
      rw [hsame, htop] at huz
      cases huz
  · intro hraised
    cases hf : w.failed with
    | some e => exact hw.failed e hf
    | none =>
      rw [hf] at hraised
      exact absurd rfl hraised

theorem returns_walkAll :
    ∃ r, Prog.Returns (walkAll m tasks) r ∧ (r = .ok () ↔ Acyclic (ParentEdge tasks)) := by
  have hturn : ∀ (done : List LogicalTaskContract) (task : LogicalTaskContract)
      (rest : List LogicalTaskContract) (r : Except DagError Unit), tasks = done ++ task :: rest →
      ((r = .ok () → ∀ t ∈ done, ¬ TransGen (ParentEdge tasks) t.taskId t.taskId) ∧
        (r ≠ .ok () → ¬ Acyclic (ParentEdge tasks))) →
      ∃ r', Prog.Returns (walkNext m r task) r' ∧
        ((r' = .ok () → ∀ t ∈ done ++ [task], ¬ TransGen (ParentEdge tasks) t.taskId t.taskId) ∧
          (r' ≠ .ok () → ¬ Acyclic (ParentEdge tasks))) := by
    intro done task rest r hsplit hinv
    have htask : task ∈ tasks := by simp [hsplit]
    cases r with
    | error e =>
      refine ⟨.error e, Prog.returns_pure _, ?_, fun _ => hinv.2 (by simp)⟩
      intro h
      cases h
    | ok u =>
      obtain ⟨r', hrun, hok, herr⟩ := returns_walkParents hm hparents task htask
      refine ⟨r', hrun, ?_, herr⟩
      intro hr' t ht
      rcases List.mem_append.mp ht with hold | hnew
      · exact hinv.1 rfl t hold
      · rw [List.mem_singleton.mp hnew]
        exact hok hr'
  obtain ⟨r, hrun, hok, herr⟩ := Prog.returns_foldlM (walkNext m) tasks
    (fun done r => (r = .ok () → ∀ t ∈ done, ¬ TransGen (ParentEdge tasks) t.taskId t.taskId) ∧
      (r ≠ .ok () → ¬ Acyclic (ParentEdge tasks))) hturn (.ok ()) ⟨by simp, by simp⟩
  refine ⟨r, hrun, ?_, ?_⟩
  · intro hr x hx
    obtain ⟨y, ⟨t, ht, htx, -⟩, -⟩ := TransGen.head'_iff.mp hx
    rw [← htx] at hx
    exact hok hr t ht hx
  · intro hacyclic
    by_contra hne
    exact herr hne hacyclic

end walk

def depsOf (tasks : List LogicalTaskContract) (v : UUID) : List UUID :=
  (tasks.filter (·.taskId = v)).flatMap (·.dependencyTaskIds)

theorem mem_depsOf (tasks : List LogicalTaskContract) (v d : UUID) :
    d ∈ depsOf tasks v ↔ DependsOn tasks v d := by
  simp only [depsOf, List.mem_flatMap, List.mem_filter, decide_eq_true_eq, DependsOn, and_assoc]

/- What the loop over the dependencies of one task adds to the edges. -/
theorem foldl_addEdge (task : LogicalTaskContract) (l : List UUID) (edges : Edges) (d v : UUID) :
    ((l.foldl (addEdge task) edges).graph d).count v =
      (edges.graph d).count v + (if task.taskId = v then l.count d else 0) ∧
    (l.foldl (addEdge task) edges).inDegree v =
      edges.inDegree v + (if task.taskId = v then l.length else 0) := by
  induction l generalizing edges with
  | nil => simp
  | cons a l ih =>
    obtain ⟨hgraph, hdegree⟩ := ih (addEdge task edges a)
    rw [List.foldl_cons, hgraph, hdegree]
    have hcount : ((addEdge task edges a).graph d).count v =
        (edges.graph d).count v + if task.taskId = v ∧ a = d then 1 else 0 := by
      simp only [addEdge, Function.update_apply]
      by_cases had : d = a
      · rw [if_pos had, List.count_append, had, List.count_singleton]
        simp
      · have hne : ¬ a = d := fun h => had h.symm
        simp [had, hne]
    have hin : (addEdge task edges a).inDegree v =
        edges.inDegree v + if task.taskId = v then 1 else 0 := by
      simp only [addEdge, Function.update_apply]
      by_cases hv : task.taskId = v
      · simp [hv]
      · have hne : ¬ v = task.taskId := fun h => hv h.symm
        simp [hv, hne]
    rw [hcount, hin, List.count_cons, List.length_cons]
    by_cases hv : task.taskId = v
    · by_cases had : a = d
      · simp only [hv, had, and_self, if_true, beq_self_eq_true]
        constructor
        · omega
        · push_cast
          omega
      · simp only [hv, had, and_false, if_true, if_false, beq_iff_eq]
        constructor
        · omega
        · push_cast
          omega
    · simp [hv]

theorem edgesOf_count (tasks : List LogicalTaskContract) (d v : UUID) :
    ((edgesOf tasks).graph d).count v = (depsOf tasks v).count d ∧
    (edgesOf tasks).inDegree v = (depsOf tasks v).length := by
  have hfold : ∀ (l : List LogicalTaskContract) (edges : Edges),
      ((l.foldl addEdges edges).graph d).count v =
        (edges.graph d).count v + (depsOf l v).count d ∧
      (l.foldl addEdges edges).inDegree v = edges.inDegree v + (depsOf l v).length := by
    intro l
    induction l with
    | nil => simp [depsOf]
    | cons task l ih =>
      intro edges
      obtain ⟨hgraph, hdegree⟩ := ih (addEdges edges task)
      obtain ⟨hg, hd⟩ := foldl_addEdge task task.dependencyTaskIds edges d v
      have hdeps : depsOf (task :: l) v =
          (if task.taskId = v then task.dependencyTaskIds else []) ++ depsOf l v := by
        simp only [depsOf, List.filter_cons, decide_eq_true_eq]
        split
        · rfl
        · rfl
      rw [List.foldl_cons, hgraph, hdegree, hdeps, List.count_append, List.length_append]
      simp only [addEdges, hg, hd]
      split
      · constructor
        · omega
        · push_cast
          omega
      · simp
  obtain ⟨hg, hd⟩ := hfold tasks ⟨fun _ => [], fun _ => 0⟩
  simp only [List.count_nil, Nat.zero_add, Int.zero_add] at hg hd
  exact ⟨hg, hd⟩

/- The sort ends, and finds a cycle exactly if there is one. -/
theorem returns_sortDependencies (tasks : List LogicalTaskContract)
    (hunique : (tasks.map (·.taskId)).Nodup)
    (hdeps : ∀ t ∈ tasks, ∀ d ∈ t.dependencyTaskIds, ∃ u ∈ tasks, u.taskId = d) :
    ∃ r, Prog.Returns (sortDependencies tasks) r ∧ (r = .ok () ↔ Acyclic (DependsOn tasks)) := by
  have hmem : ∀ d, ∀ v ∈ (edgesOf tasks).graph d, v ∈ tasks.map (·.taskId) := by
    intro d v hv
    rw [← List.count_pos_iff, (edgesOf_count tasks d v).1, List.count_pos_iff, mem_depsOf] at hv
    obtain ⟨t, ht, hid, -⟩ := hv
    exact List.mem_map.mpr ⟨t, ht, hid⟩
  have hclosed : ∀ v ∈ tasks.map (·.taskId), ∀ d ∈ depsOf tasks v, d ∈ tasks.map (·.taskId) := by
    intro v _ d hd
    rw [mem_depsOf] at hd
    obtain ⟨t, ht, -, hdt⟩ := hd
    obtain ⟨u, hu, hid⟩ := hdeps t ht d hdt
    exact List.mem_map.mpr ⟨u, hu, hid⟩
  have hstart : Kahn.Inv (tasks.map (·.taskId)) (depsOf tasks) []
      ⟨(tasks.map (·.taskId)).filter ((edgesOf tasks).inDegree · = 0), (edgesOf tasks).inDegree, 0⟩ := by
    constructor
    case nodup => exact List.nodup_nil
    case subset => simp
    case visited => rfl
    case degree =>
      intro v _
      show (edgesOf tasks).inDegree v = _
      rw [(edgesOf_count tasks 0 v).2]
      simp
    case zeroNodup => exact hunique.filter _
    case zero =>
      intro v
      simp
    case ordered => simp
  obtain ⟨final, hrun, hcount⟩ := Kahn.returns_sort (tasks.map (·.taskId)) (depsOf tasks)
    (edgesOf tasks).graph (fun d v _ => (edgesOf_count tasks d v).1) hmem hunique hclosed _ hstart
  refine ⟨_, Prog.returns_bind hrun (Prog.returns_pure _), ?_⟩
  rw [require_eq_ok, ← List.length_map (f := fun t : LogicalTaskContract => t.taskId), hcount]
  have hsame : ∀ v d, (v ∈ tasks.map (·.taskId) ∧ d ∈ depsOf tasks v) ↔ DependsOn tasks v d := by
    intro v d
    rw [mem_depsOf]
    constructor
    · exact And.right
    · intro h
      obtain ⟨t, ht, hid, hd⟩ := h
      exact ⟨List.mem_map.mpr ⟨t, ht, hid⟩, t, ht, hid, hd⟩
  constructor
  · intro h
    exact h.mono fun v d hvd => (hsame v d).mpr hvd
  · intro h
    exact h.mono fun v d hvd => (hsame v d).mp hvd

theorem nodup_tasks {tasks : List LogicalTaskContract} (h : (tasks.map (·.taskId)).Nodup) :
    tasks.Nodup := List.Nodup.of_map _ h

theorem checkRoots_eq_ok (tasks : List LogicalTaskContract) (hunique : (tasks.map (·.taskId)).Nodup) :
    checkRoots tasks = .ok () ↔ ∃ root ∈ tasks, root.parentTaskId = none ∧ root.purpose = .primary ∧
      ∀ t ∈ tasks, t.parentTaskId = none → t = root := by
  simp only [checkRoots, bind_eq_ok, require_eq_ok, exists_const]
  constructor
  · rintro ⟨hprimary, hroots⟩
    obtain ⟨root, hroot⟩ := List.length_eq_one_iff.mp hroots
    have hmem : ∀ t, t ∈ tasks ∧ t.parentTaskId = none ↔ t = root := by
      intro t
      rw [← List.mem_singleton (b := root), ← hroot, List.mem_filter, Option.isNone_iff_eq_none]
    obtain ⟨hin, htop⟩ := (hmem root).mpr rfl
    refine ⟨root, hin, htop, ?_, fun t ht hn => (hmem t).mp ⟨ht, hn⟩⟩
    rw [hroot] at hprimary
    by_contra hp
    have hb : (root.purpose == .primary) = false := by simpa using hp
    simp [hb] at hprimary
  · rintro ⟨root, hin, htop, hp, hall⟩
    have hroot : tasks.filter (·.parentTaskId.isNone) = [root] := by
      rw [← List.perm_singleton,
        List.perm_ext_iff_of_nodup ((nodup_tasks hunique).filter _) (List.nodup_singleton root)]
      intro t
      rw [List.mem_filter, Option.isNone_iff_eq_none, List.mem_singleton]
      constructor
      · rintro ⟨ht, hn⟩
        exact hall t ht hn
      · rintro rfl
        exact ⟨hin, htop⟩
    rw [hroot]
    simp [hp]

theorem returns_andThen {α : Type} (x : Except DagError α)
    (next : α → Prog (Except DagError Unit)) (P : Prop)
    (herr : (∀ a, x ≠ .ok a) → ¬ P)
    (hok : ∀ a, x = .ok a → ∃ r, Prog.Returns (next a) r ∧ (r = .ok () ↔ P)) :
    ∃ r, Prog.Returns (andThen x next) r ∧ (r = .ok () ↔ P) := by
  cases x with
  | ok a => exact hok a rfl
  | error e =>
    have hno := herr (by simp)
    exact ⟨.error e, Prog.returns_pure _, by simp [hno]⟩

/- Each phase decides its part, and none runs on. -/
theorem returns_validateTaskDag (nt : Bool) (casefold : String → String)
    (tasks : List LogicalTaskContract) (hne : tasks ≠ []) :
    ∃ r, Prog.Returns (validateTaskDag nt casefold tasks) r ∧
      (r = .ok () ↔ TaskDag nt casefold tasks) := by
  have hfull : tasks.isEmpty = false := by simpa using hne
  rw [validateTaskDag, hfull, if_neg Bool.false_ne_true]
  apply returns_andThen
  · intro herr hdag
    obtain ⟨m, hm⟩ := checkTasks_complete nt casefold tasks hdag.toLinked
    exact herr m hm
  · intro m hm
    obtain ⟨hmaps, hlinked⟩ := checkTasks_sound nt casefold tasks m hm
    have hparents : ∀ t ∈ tasks, ∀ parentId, t.parentTaskId = some parentId →
        ∃ parent ∈ tasks, parent.taskId = parentId := by
      intro t ht parentId hp
      obtain ⟨parent, hin, hid, -⟩ := hlinked.parents t ht parentId hp
      exact ⟨parent, hin, hid⟩
    obtain ⟨walked, hwalk, hwalked⟩ := returns_walkAll hmaps hparents
    obtain ⟨sorted, hsort, hsorted⟩ :=
      returns_sortDependencies tasks hlinked.unique hlinked.dependencies
    obtain ⟨r, hrun, hr⟩ : ∃ r, Prog.Returns (andThen walked fun _ => do
        let sorted ← sortDependencies tasks
        andThen sorted fun _ => pure (checkRoots tasks)) r ∧
        (r = .ok () ↔ TaskDag nt casefold tasks) := by
      apply returns_andThen
      · intro herr hdag
        exact herr () (hwalked.mpr hdag.parentsAcyclic)
      · rintro ⟨⟩ hok
        have hup := hwalked.mp hok
        obtain ⟨r, hrun, hr⟩ : ∃ r, Prog.Returns (andThen sorted fun _ =>
            pure (checkRoots tasks)) r ∧ (r = .ok () ↔ TaskDag nt casefold tasks) := by
          apply returns_andThen
          · intro herr hdag
            exact herr () (hsorted.mpr hdag.dependenciesAcyclic)
          · rintro ⟨⟩ hok'
            refine ⟨_, Prog.returns_pure _, ?_⟩
            rw [checkRoots_eq_ok tasks hlinked.unique]
            constructor
            · intro hroot
              exact ⟨hlinked, hup, hsorted.mp hok', hroot⟩
            · intro hdag
              exact hdag.root
        exact ⟨r, Prog.returns_bind hsort hrun, hr⟩
    exact ⟨r, Prog.returns_bind hwalk hrun, hr⟩

/- Induction from the root down: a task has what its parent hands on. -/
theorem TaskDag.down {nt : Bool} {casefold : String → String} {tasks : List LogicalTaskContract}
    (h : TaskDag nt casefold tasks) (P : LogicalTaskContract → Prop)
    (hroot : ∀ t ∈ tasks, t.parentTaskId = none → P t)
    (hchild : ∀ t ∈ tasks, ∀ parent ∈ tasks, t.parentTaskId = some parent.taskId →
      Contained nt casefold t.ownedPaths parent.ownedPaths → P parent → P t) :
    ∀ t ∈ tasks, P t := by
  classical
  by_contra hnot
  have hleft : (tasks.filter fun t => ¬ P t).map (·.taskId) ≠ [] := by
    intro hnil
    rw [List.map_eq_nil_iff, List.filter_eq_nil_iff] at hnil
    exact hnot fun t ht => by simpa using hnil t ht
  obtain ⟨x, hx, hsink⟩ := h.parentsAcyclic.exists_sink _ hleft
  obtain ⟨t, ht, rfl⟩ := List.mem_map.mp hx
  rw [List.mem_filter, decide_eq_true_eq] at ht
  obtain ⟨htin, hbad⟩ := ht
  cases hp : t.parentTaskId with
  | none => exact hbad (hroot t htin hp)
  | some parentId =>
    obtain ⟨parent, hparent, hid, -, hcontained⟩ := h.parents t htin parentId hp
    rw [← hid] at hp
    have hbadParent : ¬ P parent := fun hgood => hbad (hchild t htin parent hparent hp hcontained hgood)
    refine hsink parent.taskId ?_ ⟨t, htin, rfl, hp⟩
    exact List.mem_map.mpr ⟨parent, by simp [hparent, hbadParent], rfl⟩

theorem TaskDag.within_root {nt : Bool} {casefold : String → String} {tasks : List LogicalTaskContract}
    (h : TaskDag nt casefold tasks) {root : LogicalTaskContract} (hroot : root ∈ tasks)
    (htop : root.parentTaskId = none) :
    ∀ t ∈ tasks, Contained nt casefold t.ownedPaths root.ownedPaths := by
  obtain ⟨top, -, -, -, honly⟩ := h.root
  apply h.down
  · intro t ht hn
    rw [honly t ht hn, ← honly root hroot htop]
    exact contained_refl nt casefold _
  · intro t _ parent _ _ hin hout
    exact contained_trans nt casefold hin hout

/-- The validator ends on every list. It accepts a nonempty one exactly if it is a task graph,
and in a list it accepts every path of every task lies within the paths of the root. -/
theorem validateTaskDag_exact (nt : Bool) (casefold : String → String)
    (tasks : List LogicalTaskContract) :
    (∃ r, Prog.Returns (validateTaskDag nt casefold tasks) r) ∧
    (tasks ≠ [] → (Prog.Returns (validateTaskDag nt casefold tasks) (.ok ()) ↔
      TaskDag nt casefold tasks)) ∧
    (Prog.Returns (validateTaskDag nt casefold tasks) (.ok ()) →
      ∀ root ∈ tasks, root.parentTaskId = none →
        ∀ t ∈ tasks, Contained nt casefold t.ownedPaths root.ownedPaths) := by
  have hexact : tasks ≠ [] → (Prog.Returns (validateTaskDag nt casefold tasks) (.ok ()) ↔
      TaskDag nt casefold tasks) := by
    intro hne
    obtain ⟨r, hrun, hr⟩ := returns_validateTaskDag nt casefold tasks hne
    constructor
    · intro h
      exact hr.mp (hrun.unique h)
    · intro h
      rw [← hr.mpr h]
      exact hrun
  refine ⟨?_, hexact, ?_⟩
  · by_cases hne : tasks = []
    · rw [hne]
      exact ⟨_, Prog.returns_pure _⟩
    · obtain ⟨r, hrun, -⟩ := returns_validateTaskDag nt casefold tasks hne
      exact ⟨r, hrun⟩
  · intro h root hroot htop t ht
    have hdag := (hexact (List.ne_nil_of_mem hroot)).mp h
    exact hdag.within_root hroot htop t ht

end ParallelForge.Delegation
