import ParallelForge.Base.Result
import ParallelForge.Base.Table
import ParallelForge.Base.Topological
import ParallelForge.Scheduling.Contract

/-!
# The task graph of a run (`domain/subscription.py:922-1006`)

`validate_task_dag` in its own order: the registration of the ids, the checks of
every parent, its scope and every dependency, the walk up the parents of each
task, the topological sort of the dependencies, and the roots. The two loops
that follow edges are programs that may run on. `policy_path_key` folds the
case of a path on Windows only; `casefold` is any function on texts.
-/

namespace ParallelForge.Delegation
open Base Scheduling Relation

/-- `can_delegate`. -/
def canDelegate (purpose : SpecialistPurpose) : Bool := purpose == .primary

inductive DagError
  | duplicateTask (taskId : UUID)
  | foreignLineage
  | missingParent (taskId parentId : UUID)
  | cannotDelegate (parentId : UUID) (purpose : SpecialistPurpose)
  | escalatesScope (taskId : UUID) (path : String)
  | missingDependency (taskId dependencyId : UUID)
  | parentCycle
  | keyError (taskId : UUID)
  | dependencyCycle
  | primaryRoots
  | workerRoots
  deriving DecidableEq, Repr

/-- The texts of the exceptions, with `str` of a UUID and the value of a purpose. -/
def DagError.message (uuidText : UUID → String) (purposeText : SpecialistPurpose → String) :
    DagError → String
  | duplicateTask t => "duplicate task identifier " ++ uuidText t
  | foreignLineage => "tasks contain mismatched run identifiers (foreign lineage)"
  | missingParent t p => "task " ++ uuidText t ++ " parent " ++ uuidText p ++ " does not exist in run"
  | cannotDelegate p purpose =>
    "parent task " ++ uuidText p ++ " with purpose " ++ purposeText purpose ++ " cannot delegate"
  | escalatesScope t path => "child task " ++ uuidText t ++ " escalates scope with path " ++ path
  | missingDependency t d =>
    "task " ++ uuidText t ++ " depends on task " ++ uuidText d ++ " which does not exist in run"
  | parentCycle => "task parents contain a cycle"
  | keyError t => uuidText t
  | dependencyCycle => "task dependencies contain a cycle"
  | primaryRoots => "run must contain exactly one primary root task"
  | workerRoots => "run must not contain worker root tasks"

abbrev TaskMap := Table UUID LogicalTaskContract

/-- One turn of the first loop. -/
def register (runId : UUID) (taskMap : TaskMap) (task : LogicalTaskContract) :
    Except DagError TaskMap := do
  require (taskMap.get task.taskId = none) (.duplicateTask task.taskId)
  require (task.runId = runId) .foreignLineage
  .ok (taskMap.put task.taskId task)

section paths
variable (nt : Bool) (casefold : String → String)

/-- `policy_path_key` (`domain/paths.py:52-53`). -/
def policyPathKey (value : String) : String := if nt then casefold value else value

def pathWithin (child parent : String) : Bool :=
  policyPathKey nt casefold child == policyPathKey nt casefold parent ||
    isBelow (policyPathKey nt casefold child) (policyPathKey nt casefold parent)

/-- The first path of the child that no path of the parent contains. -/
def escalation (task parent : LogicalTaskContract) : Option String :=
  task.ownedPaths.find? fun child => !parent.ownedPaths.any fun path => pathWithin nt casefold child path

def checkScope (task parent : LogicalTaskContract) : Except DagError Unit :=
  match escalation nt casefold task parent with
  | none => .ok ()
  | some path => .error (.escalatesScope task.taskId path)

def checkParent (taskMap : TaskMap) (task : LogicalTaskContract) : Except DagError Unit :=
  match task.parentTaskId with
  | none => .ok ()
  | some parentId => do
    let parent ← orRaise (taskMap.get parentId) (.missingParent task.taskId parentId)
    require (canDelegate parent.purpose = true) (.cannotDelegate parent.taskId parent.purpose)
    checkScope nt casefold task parent

def checkDependency (taskMap : TaskMap) (task : LogicalTaskContract) (dependencyId : UUID) :
    Except DagError Unit :=
  require ((taskMap.get dependencyId).isSome = true) (.missingDependency task.taskId dependencyId)

/-- One turn of the second loop. -/
def checkTask (taskMap : TaskMap) (task : LogicalTaskContract) : Except DagError Unit := do
  checkParent nt casefold taskMap task
  task.dependencyTaskIds.forM (checkDependency taskMap task)

end paths

/-- The variables of the walk up the parents; `failed` is the exception it raised. -/
structure Walk where
  ancestors : List UUID
  current : LogicalTaskContract
  failed : Option DagError

def Walk.climbing (w : Walk) : Bool := w.failed.isNone && w.current.parentTaskId.isSome

def climb (taskMap : TaskMap) (task : LogicalTaskContract) (w : Walk) : Walk :=
  match w.current.parentTaskId with
  | none => w
  | some parentId =>
    if parentId ∈ w.ancestors ∨ parentId = task.taskId then { w with failed := some .parentCycle }
    else match taskMap.get parentId with
      | none => { w with failed := some (.keyError parentId) }
      | some parent => { w with ancestors := parentId :: w.ancestors, current := parent }

def walkParents (taskMap : TaskMap) (task : LogicalTaskContract) : Prog (Except DagError Unit) := do
  let w ← Prog.whileLoop Walk.climbing (fun w => pure (climb taskMap task w)) ⟨[], task, none⟩
  pure (match w.failed with
    | none => .ok ()
    | some e => .error e)

/-- One turn of the third loop; it ends at the first task whose walk raises. -/
def walkNext (taskMap : TaskMap) (result : Except DagError Unit) (task : LogicalTaskContract) :
    Prog (Except DagError Unit) :=
  match result with
  | .ok () => walkParents taskMap task
  | .error e => pure (.error e)

def walkAll (taskMap : TaskMap) (tasks : List LogicalTaskContract) : Prog (Except DagError Unit) :=
  tasks.foldlM (walkNext taskMap) (.ok ())

structure Edges where
  graph : UUID → List UUID
  inDegree : UUID → ℤ

def addEdge (task : LogicalTaskContract) (edges : Edges) (dependencyId : UUID) : Edges :=
  { graph := Function.update edges.graph dependencyId (edges.graph dependencyId ++ [task.taskId])
    inDegree := Function.update edges.inDegree task.taskId (edges.inDegree task.taskId + 1) }

def addEdges (edges : Edges) (task : LogicalTaskContract) : Edges :=
  task.dependencyTaskIds.foldl (addEdge task) edges

def edgesOf (tasks : List LogicalTaskContract) : Edges :=
  tasks.foldl addEdges ⟨fun _ => [], fun _ => 0⟩

def sortDependencies (tasks : List LogicalTaskContract) : Prog (Except DagError Unit) := do
  let edges := edgesOf tasks
  let ids := tasks.map (·.taskId)
  let final ← Kahn.sort edges.graph ⟨ids.filter (edges.inDegree · = 0), edges.inDegree, 0⟩
  pure (require (final.visitedCount = tasks.length) .dependencyCycle)

def checkRoots (tasks : List LogicalTaskContract) : Except DagError Unit := do
  let roots := tasks.filter (·.parentTaskId.isNone)
  require ((roots.filter (·.purpose == .primary)).length = 1) .primaryRoots
  require (roots.length = 1) .workerRoots

/-- The loops over the registered tasks, up to the edges. -/
def checkTasks (nt : Bool) (casefold : String → String) (tasks : List LogicalTaskContract) :
    Except DagError TaskMap :=
  match tasks with
  | [] => .ok Table.empty
  | first :: _ => do
    let taskMap ← tasks.foldlM (register first.runId) Table.empty
    tasks.forM (checkTask nt casefold taskMap)
    .ok taskMap

/-- A step that raises ends the validation. -/
def andThen {α : Type} (x : Except DagError α) (next : α → Prog (Except DagError Unit)) :
    Prog (Except DagError Unit) :=
  match x with
  | .error e => pure (.error e)
  | .ok a => next a

def validateTaskDag (nt : Bool) (casefold : String → String) (tasks : List LogicalTaskContract) :
    Prog (Except DagError Unit) :=
  if tasks.isEmpty then pure (.ok ())
  else andThen (checkTasks nt casefold tasks) fun taskMap => do
    let walked ← walkAll taskMap tasks
    andThen walked fun _ => do
      let sorted ← sortDependencies tasks
      andThen sorted fun _ => pure (checkRoots tasks)

end ParallelForge.Delegation
