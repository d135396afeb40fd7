import ParallelForge.Base.Json
import ParallelForge.Base.Result
import ParallelForge.Base.Table
import ParallelForge.Base.Text
import ParallelForge.Base.Topological

/-!
# Epic work items (`domain/epic_items.py:1-204`)

An item carries what its validators let through: reference lists of bounded
length without a repeated id. The texts are opaque here, as nothing decides on
them. Every loop of `validate_graph` is the loop of the source.
-/

namespace ParallelForge.Epic
open Base

inductive Disposition
  | required
  | deferred
  deriving DecidableEq, Repr

def Disposition.value : Disposition → String
  | .required => "required"
  | .deferred => "deferred"

structure ItemInput where
  itemId : UUID
  disposition : Disposition
  ordinal : ℕ
  title : Str
  outcome : Str
  acceptanceCriteria : List Str
  sourceRequirementIds : List UUID
  dependencyItemIds : List UUID
  criteriaCount : 1 ≤ acceptanceCriteria.length ∧ acceptanceCriteria.length ≤ 64
  sourceCount : 1 ≤ sourceRequirementIds.length ∧ sourceRequirementIds.length ≤ 64
  dependencyCount : dependencyItemIds.length ≤ 128
  sourceUnique : sourceRequirementIds.Nodup
  dependencyUnique : dependencyItemIds.Nodup

structure GraphValidationError where
  message : String
  deriving DecidableEq, Repr

/-- `{item.item_id: item for item in items}`. -/
def indexOf (items : List ItemInput) : Table UUID ItemInput :=
  items.foldl (fun indexed item => indexed.put item.itemId item) Table.empty

def checkEdges (indexed : Table UUID ItemInput) (item : ItemInput) :
    Except GraphValidationError Unit :=
  require (item.itemId ∉ item.dependencyItemIds ∧
    ∀ dep ∈ item.dependencyItemIds, (indexed.get dep).isSome = true) ⟨"graph edge is invalid"⟩

/-- The dependents of every node, after the loops over the items and their dependencies. -/
def dependentsOf (items : List ItemInput) : UUID → List UUID :=
  items.foldl (fun dependents item => item.dependencyItemIds.foldl (fun dependents dep =>
    Function.update dependents dep (dependents dep ++ [item.itemId])) dependents) fun _ => []

def remainingOf (indexed : Table UUID ItemInput) (node : UUID) : ℤ :=
  (indexed.get node).elim 0 fun item => item.dependencyItemIds.length

/-- The loop over `ready`. -/
def checkAcyclic (items : List ItemInput) : Prog (Except GraphValidationError Unit) := do
  let indexed := indexOf items
  let nodes := indexed.rows.map Prod.fst
  let final ← Kahn.sort (dependentsOf items)
    ⟨nodes.filter fun node => remainingOf indexed node = 0, remainingOf indexed, 0⟩
  pure (require (final.visitedCount = items.length) ⟨"graph contains cycle"⟩)

/-- The variables of the walk from a required item; `failed` is the exception it raised. -/
structure Walk where
  seen : List UUID
  pending : List UUID
  failed : Option GraphValidationError

def Walk.walking (w : Walk) : Bool := w.failed.isNone && !w.pending.isEmpty

def walkTurn (indexed : Table UUID ItemInput) (w : Walk) : Walk :=
  match w.pending.getLast? with
  | none => w
  | some dep =>
    let pending := w.pending.dropLast
    if dep ∈ w.seen then { w with pending := pending }
    else match indexed.get dep with
      | none => { w with failed := some ⟨"KeyError"⟩ }
      | some target =>
        if target.disposition = .deferred then
          { w with failed := some ⟨"required item depends on deferred item"⟩ }
        else ⟨dep :: w.seen, pending ++ target.dependencyItemIds, none⟩

def walkDependencies (indexed : Table UUID ItemInput) (item : ItemInput) :
    Prog (Except GraphValidationError Unit) := do
  let w ← Prog.whileLoop Walk.walking (fun w => pure (walkTurn indexed w))
    ⟨[], item.dependencyItemIds, none⟩
  pure (match w.failed with
    | none => .ok ()
    | some e => .error e)

/-- One turn of the loop over the items; it ends at the first walk that raises. -/
def walkNext (indexed : Table UUID ItemInput) (result : Except GraphValidationError Unit)
    (item : ItemInput) : Prog (Except GraphValidationError Unit) :=
  match result with
  | .error e => pure (.error e)
  | .ok () =>
    if item.disposition ≠ .required then pure (.ok ()) else walkDependencies indexed item

def checkDeferred (items : List ItemInput) : Prog (Except GraphValidationError Unit) :=
  items.foldlM (walkNext (indexOf items)) (.ok ())

/-- The checks before the sort. -/
def checkItems (items : List ItemInput) (adoption : Bool) : Except GraphValidationError Unit := do
  require (items.length ≤ 128 ∧ (adoption = true → items ≠ [])) ⟨"graph item count is invalid"⟩
  require ((indexOf items).rows.length = items.length) ⟨"duplicate graph item"⟩
  items.forM (checkEdges (indexOf items))

/-- `validate_graph`. -/
def validateGraph (items : List ItemInput) (adoption : Bool) :
    Prog (Except GraphValidationError Unit) :=
  match checkItems items adoption with
  | .error e => pure (.error e)
  | .ok () => do
    match ← checkAcyclic items with
    | .error e => pure (.error e)
    | .ok () => if adoption then checkDeferred items else pure (.ok ())

end ParallelForge.Epic
