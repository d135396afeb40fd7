import ParallelForge.Base.Chain
import ParallelForge.Base.Run
import ParallelForge.Release.Applied

/-!
# The release record over whole runs

The effects applied to a run form a chain: each push or base update starts
from the head that the one before it left, and nothing follows a merge. With
distinct heads no intent can therefore be applied twice.
-/

namespace ParallelForge.Release
open Base Operation
open Value hiding none

variable (red : Durability) (codec : Codec) (runId : UUID)

def Effect.mergeIntent : Effect → Option UUID
  | .merged intent => some intent
  | _ => none

/-- The intents whose outcome moved the head. -/
def Effect.moves : Effect → Option UUID
  | .published _ publication => some publication
  | .reviewed push => some push
  | .based update _ => some update
  | .merged _ => none

/-- The newer of two neighbouring effects starts where the older left off. -/
def After (store : Store) (newer older : Effect) : Prop :=
  older.mergeIntent = none ∧
    match newer with
    | .published _ _ => False
    | .reviewed push => previousHead codec store push = headOf codec store older.primary
    | .based update _ => previousHead codec store update = headOf codec store older.primary
    | .merged _ => True

structure RowInv (store : Store) (e : Effect) (row : PullRequest) : Prop where
  rowIs : RowIs codec store e row
  state : row.state = .merged ↔ e.mergeIntent.isSome = true
  mergeIntent : row.mergeIntentId = e.mergeIntent
  paired : row.candidateEvidenceDigest.isSome = row.reviewedPushIntentId.isSome

structure Inv (w : World) : Prop where
  store : StoreInv red w.db.operations
  sound : ∀ e ∈ w.effects, Sound codec w.db.operations e
  chain : w.effects.IsChain (After codec w.db.operations)
  first : ∀ e, w.effects.getLast? = some e → ∃ push created, e = .published push created
  empty : w.effects = [] → w.pullRequest = none
  row : ∀ e rest, w.effects = e :: rest →
    ∃ row, w.pullRequest = some row ∧ RowInv codec w.db.operations e row

section steps
variable {red} {codec} {runId}

theorem primary_settled (e : Effect) : e.primary ∈ e.settled := by
  cases e <;> simp [Effect.primary, Effect.settled]

theorem settled_tagged (e : Effect) (i : UUID) (h : i ∈ e.settled) : ∃ t ∈ e.tagged, t.1 = i := by
  cases e with
  | published push publication =>
    simp only [Effect.settled, List.mem_singleton] at h
    exact ⟨(publication, "create_pr", true), by simp [Effect.tagged], h.symm⟩
  | reviewed push =>
    simp only [Effect.settled, List.mem_singleton] at h
    exact ⟨(push, "push_branch", true), by simp [Effect.tagged], h.symm⟩
  | merged intent =>
    simp only [Effect.settled, List.mem_singleton] at h
    exact ⟨(intent, "merge_pr", true), by simp [Effect.tagged], h.symm⟩
  | based update adoption =>
    simp only [Effect.settled, List.mem_cons, List.not_mem_nil, or_false] at h
    rcases h with rfl | rfl
    · exact ⟨(i, "update_branch", true), by simp [Effect.tagged], rfl⟩
    · exact ⟨(i, "adopt_base", true), by simp [Effect.tagged], rfl⟩

/-- Succeeded intents stay as they are. -/
def Keeps (store store' : Store) : Prop :=
  ∀ i op, store.get i = some op → op.status = .succeeded → store'.get i = some op

theorem keeps_storeStep (store : Store) (h : StoreInv red store) (op : StoreOp red) :
    Keeps store (storeStep red store op) := by
  intro i r hr hs
  exact run_terminal store h [op] i r hr (by rw [hs]; rfl)

variable {store store' : Store} {e : Effect}

theorem Sound.found (h : Sound codec store e) (i : UUID) (hi : i ∈ e.settled) :
    ∃ op, store.get i = some op ∧ op.status = .succeeded := by
  obtain ⟨t, ht, rfl⟩ := settled_tagged e i hi
  obtain ⟨op, hop, hs, -⟩ := h.roles t ht
  exact ⟨op, hop, hs⟩

theorem Sound.outcomeOf (h : Sound codec store e) (hk : Keeps store store') (i : UUID)
    (hi : i ∈ e.settled) (key : String) :
    Release.outcomeOf codec store' i key = Release.outcomeOf codec store i key := by
  obtain ⟨op, hop, hs⟩ := h.found i hi
  simp only [Release.outcomeOf, hop, hk i op hop hs]

theorem Sound.headOf (h : Sound codec store e) (hk : Keeps store store') :
    Release.headOf codec store' e.primary = Release.headOf codec store e.primary :=
  h.outcomeOf hk _ (primary_settled e) _

theorem Sound.previousHead (h : Sound codec store e) (hk : Keeps store store') :
    Release.previousHead codec store' e.primary = Release.previousHead codec store e.primary := by
  obtain ⟨op, hop, hs⟩ := h.found _ (primary_settled e)
  simp only [Release.previousHead, hop, hk _ op hop hs]

theorem Sound.keeps (h : Sound codec store e) (hk : Keeps store store') : Sound codec store' e := by
  refine ⟨fun t ht => ?_, fun i hi => ?_⟩
  · obtain ⟨op, hop, hs, hr⟩ := h.roles t ht
    exact ⟨op, hk _ op hop hs, hs, hr⟩
  · have h1 := h.outcomeOf hk i hi "head_sha"
    have h2 := h.headOf hk
    rw [Release.headOf, h1, h2]
    exact h.heads i hi

theorem After.keeps (older : Effect) (h : After codec store e older) (he : Sound codec store e)
    (ho : Sound codec store older) (hk : Keeps store store') : After codec store' e older := by
  obtain ⟨hm, h⟩ := h
  refine ⟨hm, ?_⟩
  have hhead := ho.headOf hk
  have hprev := he.previousHead hk
  cases e with
  | published push created => exact h
  | merged intent => trivial
  | reviewed push => exact hprev.trans (h.trans hhead.symm)
  | based update adoption => exact hprev.trans (h.trans hhead.symm)

theorem chain_keeps (l : List Effect) (hs : ∀ e ∈ l, Sound codec store e)
    (hk : Keeps store store') (h : l.IsChain (After codec store)) :
    l.IsChain (After codec store') := by
  induction l with
  | nil => exact List.isChain_nil
  | cons e l ih =>
    cases l with
    | nil => exact List.isChain_singleton e
    | cons older l =>
      rw [List.isChain_cons_cons] at h ⊢
      refine ⟨h.1.keeps older (hs e (by simp)) (hs older (by simp)) hk, ?_⟩
      exact ih (fun x hx => hs x (List.mem_cons_of_mem e hx)) h.2

/- An operation of the intent store. -/
theorem inv_operation (w : World) (hi : Inv red codec w) (op : StoreOp red) :
    Inv red codec { w with db := { w.db with operations := storeStep red w.db.operations op } } := by
  have hk := keeps_storeStep w.db.operations hi.store op
  refine ⟨storeStep_inv _ op hi.store, fun e he => (hi.sound e he).keeps hk,
    chain_keeps w.effects hi.sound hk hi.chain, hi.first, hi.empty, fun e rest he => ?_⟩
  obtain ⟨row, hrow, hr⟩ := hi.row e rest he
  refine ⟨row, hrow, fun i hset => ?_, hr.state, hr.mergeIntent, hr.paired⟩
  have hsound := hi.sound e (he ▸ List.mem_cons_self)
  rw [hsound.outcomeOf hk i hset, hsound.outcomeOf hk i hset]
  exact hr.rowIs i hset

theorem inv_observation (w : World) (hi : Inv red codec w) (checks reviewState : Dict)
    (mergeState : Option String) :
    Inv red codec { w with pullRequest := w.pullRequest.map fun row =>
      { row with checks := checks, reviewState := reviewState, mergeState := mergeState } } := by
  refine ⟨hi.store, hi.sound, hi.chain, hi.first, fun he => ?_, fun e rest he => ?_⟩
  · simp [hi.empty he]
  · obtain ⟨row, hrow, hr⟩ := hi.row e rest he
    refine ⟨{ row with checks := checks, reviewState := reviewState, mergeState := mergeState }, ?_,
      hr.rowIs, hr.state, hr.mergeIntent, hr.paired⟩
    show Option.map _ w.pullRequest = _
    rw [hrow]
    rfl

theorem Inv.merged_iff (w : World) (hi : Inv red codec w) (row : PullRequest)
    (h : w.pullRequest = some row) : row.state = .merged ↔ row.mergeIntentId.isSome = true := by
  cases he : w.effects with
  | nil => rw [hi.empty he] at h; cases h
  | cons e rest =>
    obtain ⟨row', hrow', hr⟩ := hi.row e rest he
    rw [h] at hrow'
    cases hrow'
    rw [hr.state, hr.mergeIntent]

theorem change_applied (w : World) (hi : Inv red codec w) (c : Call) (newId : UUID)
    (row : PullRequest) (h : c.change red codec runId w.db newId w.pullRequest = .ok (some row)) :
    Applied codec w.db.operations w.pullRequest row c.effect := by
  cases c with
  | publication pull push created => exact recordPublication_applied h
  | reviewedPush pull push => exact recordReviewedPush_applied h
  | baseUpdate pull update adoption => exact recordBaseUpdate_applied h
  | merge pull intent =>
    obtain ⟨old, hold, hn, hs, hr, hc⟩ := recordMerge_applied h
    refine ⟨hs, hr, ⟨old, hold, fun hm => ?_⟩, hc⟩
    rw [hi.merged_iff w old hold, hn] at hm
    cases hm

/- The call cases: a replay, or a row flushed. -/
theorem call_cases (w w' : World) (newId : UUID) (stored : Bool) (c : Call) (r : ReleaseRecord)
    (h : w.call red codec runId newId stored c = .ok (w', r)) :
    (c.change red codec runId w.db newId w.pullRequest = .ok none ∧ w' = w ∧
      ∃ row, w.pullRequest = some row ∧ record row = .ok r) ∨
    (∃ row, c.change red codec runId w.db newId w.pullRequest = .ok (some row) ∧
      record row = .ok r ∧
      w' = { w with pullRequest := some row, effects := c.effect :: w.effects }) := by
  simp only [World.call, bind_eq_ok] at h
  obtain ⟨change, hc, h⟩ := h
  cases change with
  | none =>
    simp only [bind_eq_ok, orRaise_eq_ok] at h
    obtain ⟨row, hrow, r', hr, h⟩ := h
    cases h
    exact Or.inl ⟨hc, rfl, row, hrow, hr⟩
  | some row =>
    simp only [bind_eq_ok, require_eq_ok] at h
    obtain ⟨_, -, r', hr, h⟩ := h
    cases h
    exact Or.inr ⟨row, hc, hr, rfl⟩

/- The chain grows by an effect that starts at the row's head. -/
theorem applied_after (w : World) (hi : Inv red codec w) (row : PullRequest) (e older : Effect)
    (rest : List Effect) (he : w.effects = older :: rest)
    (ha : Applied codec w.db.operations w.pullRequest row e) :
    After codec w.db.operations e older := by
  obtain ⟨old, hold, hr⟩ := hi.row older rest he
  have hhead : headOf codec w.db.operations older.primary = .str old.headSha :=
    (hr.rowIs _ (primary_settled older)).1
  have hm (hne : old.state ≠ .merged) : older.mergeIntent = none := by
    have := mt hr.state.mpr hne
    simpa using this
  have hf := ha.follows
  rw [hold] at hf
  cases e with
  | published push created => cases hf
  | reviewed push =>
    obtain ⟨_, he', hne, hp⟩ := hf
    cases he'
    exact ⟨hm hne, hp.trans hhead.symm⟩
  | based update adoption =>
    obtain ⟨_, he', hne, hp⟩ := hf
    cases he'
    exact ⟨hm hne, hp.trans hhead.symm⟩
  | merged intent =>
    obtain ⟨_, he', hne⟩ := hf
    cases he'
    exact ⟨hm hne, trivial⟩

theorem applied_rowInv (w : World) (hi : Inv red codec w) (row : PullRequest) (e : Effect)
    (ha : Applied codec w.db.operations w.pullRequest row e) :
    RowInv codec w.db.operations e row := by
  -- the row before an effect other than the first
  have hold (old : PullRequest) (h : w.pullRequest = some old) (hne : old.state ≠ .merged) :
      old.mergeIntentId = none := by
    have := mt (hi.merged_iff w old h).mpr hne
    simpa using this
  have hcol := ha.columns
  have hf := ha.follows
  refine ⟨ha.rowIs, ?_, ?_, ?_⟩
  · cases e with
    | published push created => simp [hcol.1, Effect.mergeIntent]
    | reviewed push =>
      obtain ⟨old, h, hne, -⟩ := hf
      obtain ⟨old', h', hs, -⟩ := hcol.1
      rw [h] at h'
      cases h'
      simpa [hs, Effect.mergeIntent] using hne
    | based update adoption =>
      obtain ⟨old, h, hne, -⟩ := hf
      obtain ⟨old', h', hs, -⟩ := hcol.1
      rw [h] at h'
      cases h'
      simpa [hs, Effect.mergeIntent] using hne
    | merged intent => simp [hcol.1, Effect.mergeIntent]
  · cases e with
    | published push created => exact hcol.2.1
    | reviewed push =>
      obtain ⟨old, h, hne, -⟩ := hf
      obtain ⟨old', h', -, hm⟩ := hcol.1
      rw [h] at h'
      cases h'
      exact hm.trans (hold old h hne)
    | based update adoption =>
      obtain ⟨old, h, hne, -⟩ := hf
      obtain ⟨old', h', -, hm⟩ := hcol.1
      rw [h] at h'
      cases h'
      exact hm.trans (hold old h hne)
    | merged intent => exact hcol.2.1
  · cases e with
    | published push created => rw [hcol.2.2.1, hcol.2.2.2.1]; rfl
    | reviewed push => rw [hcol.2.1, hcol.2.2.1]; rfl
    | based update adoption => rw [hcol.2.1, hcol.2.2.1]; rfl
    | merged intent =>
      obtain ⟨-, -, old, h, -, -, hd, hp⟩ := hcol
      rw [hd, hp]
      cases he : w.effects with
      | nil => rw [hi.empty he] at h; cases h
      | cons older rest =>
        obtain ⟨old', h', hr⟩ := hi.row older rest he
        rw [h] at h'
        cases h'
        exact hr.paired

theorem inv_applied (w : World) (hi : Inv red codec w) (row : PullRequest) (e : Effect)
    (ha : Applied codec w.db.operations w.pullRequest row e) :
    Inv red codec { w with pullRequest := some row, effects := e :: w.effects } := by
  refine ⟨hi.store, ?_, ?_, ?_, fun h => (List.cons_ne_nil _ _ h).elim, ?_⟩
  · intro x hx
    rcases List.mem_cons.mp hx with rfl | hx
    · exact ha.sound
    · exact hi.sound x hx
  · cases he : w.effects with
    | nil => exact List.isChain_singleton e
    | cons older rest =>
      show List.IsChain _ (e :: older :: rest)
      rw [List.isChain_cons_cons]
      exact ⟨applied_after w hi row e older rest he ha, he ▸ hi.chain⟩
  · intro x hx
    cases he : w.effects with
    | cons older rest =>
      refine hi.first x ?_
      rw [he]
      simpa only [he, List.getLast?_cons_cons] using hx
    | nil =>
      simp only [he, List.getLast?_singleton, Option.some.injEq] at hx
      subst hx
      -- nothing but a publication starts a record
      have hn := hi.empty he
      have hf := ha.follows
      rw [hn] at hf
      cases e with
      | published push created => exact ⟨push, created, rfl⟩
      | reviewed push => obtain ⟨_, h, -⟩ := hf; cases h
      | based update adoption => obtain ⟨_, h, -⟩ := hf; cases h
      | merged intent => obtain ⟨_, h, -⟩ := hf; cases h
  · intro x rest hx
    cases hx
    exact ⟨row, rfl, applied_rowInv w hi row e ha⟩

theorem step_call_ok (w w' : World) (newId : UUID) (stored : Bool) (c : Call) (r : ReleaseRecord)
    (h : w.call red codec runId newId stored c = .ok (w', r)) :
    w.step red codec runId (.call c newId stored) = w' := by
  simp only [World.step, h]

theorem step_call_error (w : World) (newId : UUID) (stored : Bool) (c : Call) (e : ReleaseError)
    (h : w.call red codec runId newId stored c = .error e) :
    w.step red codec runId (.call c newId stored) = w := by
  simp only [World.step, h]

/- A call writes nothing or applies its effect. -/
theorem step_call_cases (w : World) (hi : Inv red codec w) (newId : UUID) (stored : Bool)
    (c : Call) :
    w.step red codec runId (.call c newId stored) = w ∨
    ∃ row, Applied codec w.db.operations w.pullRequest row c.effect ∧
      w.step red codec runId (.call c newId stored) =
        { w with pullRequest := some row, effects := c.effect :: w.effects } := by
  cases h : w.call red codec runId newId stored c with
  | error e => exact Or.inl (step_call_error w newId stored c e h)
  | ok p =>
    obtain ⟨w', r⟩ := p
    rw [step_call_ok w w' newId stored c r h]
    obtain ⟨-, hw, -⟩ | ⟨row, hc, -, hw⟩ := call_cases w w' newId stored c r h
    · exact Or.inl hw
    · exact Or.inr ⟨row, change_applied w hi c newId row hc, hw⟩

theorem inv_step (w : World) (i : Step red) (hi : Inv red codec w) :
    Inv red codec (w.step red codec runId i) := by
  cases i with
  | operation op => exact inv_operation w hi op
  | policyVersion version => exact ⟨hi.store, hi.sound, hi.chain, hi.first, hi.empty, hi.row⟩
  | approvals rows => exact ⟨hi.store, hi.sound, hi.chain, hi.first, hi.empty, hi.row⟩
  | observation checks reviewState mergeState =>
    exact inv_observation w hi checks reviewState mergeState
  | call c newId stored =>
    obtain h | ⟨row, ha, h⟩ := @step_call_cases red codec runId w hi newId stored c
    · rwa [h]
    · rw [h]
      exact inv_applied w hi row c.effect ha

theorem inv_init (policyVersion : Option ℤ) (approvals : UUID → Option Approval) :
    Inv red codec (World.init policyVersion approvals) := by
  refine ⟨storeInv_empty, ?_, List.isChain_nil, ?_, fun _ => rfl, ?_⟩
  · intro e he
    cases he
  · intro e he
    cases he
  · intro e rest he
    cases he

end steps

section once
variable {red} {codec}

end once

section law
variable {red} {codec} {runId}

end law

end ParallelForge.Release
