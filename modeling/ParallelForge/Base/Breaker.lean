import Mathlib.Data.Nat.Notation
import Mathlib.Logic.Function.Basic
import Mathlib.Logic.Relation
import Mathlib.Order.Lattice
import Mathlib.Order.Nat

/-!
# Circuit breakers

Gates that admit permits. A gate that is blocked admits one probe at a time,
and only from its next time on; observations block it again at a new revision,
and only the live probe of the current revision can unblock it. `Move` says what
may happen to a family of gates and `Recovers` how one is unblocked; `Sound` is
what every sequence of them keeps.
-/

namespace ParallelForge.Base

structure Gate (ι τ : Type) where
  revision : ℕ
  blocked : Bool
  nextAt : Option τ
  slot : Option ι

structure Permit (κ : Type) where
  key : κ
  revision : ℕ
  probe : Bool
  live : Bool

structure Breaker (κ ι τ : Type) where
  gates : κ → Gate ι τ
  permits : ι → Option (Permit κ)

namespace Breaker
variable {κ ι τ : Type} {s : Breaker κ ι τ}

section gates
variable [DecidableEq κ]

def setGate (s : Breaker κ ι τ) (k : κ) (g : Gate ι τ) : Breaker κ ι τ :=
  { s with gates := Function.update s.gates k g }

theorem gates_setGate (k i : κ) (g : Gate ι τ) :
    (s.setGate k g).gates i = if i = k then g else s.gates i := by
  unfold setGate
  by_cases h : i = k
  · subst h
    simp
  · simp [h]

@[simp] theorem permits_setGate (k : κ) (g : Gate ι τ) : (s.setGate k g).permits = s.permits := rfl

end gates

section permits
variable [DecidableEq ι]

def setPermit (s : Breaker κ ι τ) (a : ι) (p : Permit κ) : Breaker κ ι τ :=
  { s with permits := Function.update s.permits a (some p) }

@[simp] theorem gates_setPermit (a : ι) (p : Permit κ) : (s.setPermit a p).gates = s.gates := rfl

theorem permits_setPermit (a b : ι) (p : Permit κ) :
    (s.setPermit a p).permits b = if b = a then some p else s.permits b := by
  unfold setPermit
  by_cases h : b = a
  · subst h
    simp
  · simp [h]

end permits

variable [LinearOrder τ]

/-- A time that is set stays set and does not go back. -/
def Later (x y : Option τ) : Prop := ∀ n, x = some n → ∃ m, y = some m ∧ n ≤ m

theorem Later.refl (x : Option τ) : Later x x := fun n h => ⟨n, h, le_rfl⟩

theorem Later.trans {x y z : Option τ} (h : Later x y) (k : Later y z) : Later x z := by
  intro n hn
  obtain ⟨m, hm, hnm⟩ := h n hn
  obtain ⟨l, hl, hml⟩ := k m hm
  exact ⟨l, hl, hnm.trans hml⟩

/-- The slot of a gate holds its only live probe, permits are not ahead of their gate, and the
probe of the current revision was let in no earlier than its gate allowed. -/
structure Sound (clock : τ) (s : Breaker κ ι τ) : Prop where
  slot_live : ∀ k a, (s.gates k).slot = some a →
    ∃ p, s.permits a = some p ∧ p.key = k ∧ p.probe = true ∧ p.live = true
  slot_blocked : ∀ k a, (s.gates k).slot = some a → (s.gates k).blocked = true
  probe_slot : ∀ a p, s.permits a = some p → p.probe = true → p.live = true →
    (s.gates p.key).slot = some a
  revision_le : ∀ a p, s.permits a = some p → p.revision ≤ (s.gates p.key).revision
  blocked_next : ∀ k, (s.gates k).blocked = true → ∃ n, (s.gates k).nextAt = some n
  slot_next : ∀ k a p, (s.gates k).slot = some a → s.permits a = some p →
    p.revision = (s.gates k).revision → ∃ n, (s.gates k).nextAt = some n ∧ n ≤ clock

variable {clock : τ} {s' : Breaker κ ι τ}

theorem Sound.tick {clock' : τ} (h : Sound clock s) (hle : clock ≤ clock') : Sound clock' s := by
  refine { h with slot_next := ?_ }
  intro k a p hs hp hr
  obtain ⟨n, hn, hnc⟩ := h.slot_next k a p hs hp hr
  exact ⟨n, hn, hnc.trans hle⟩

/-- At most one live probe for a gate. -/
theorem Sound.one_probe (h : Sound clock s) (a b : ι) (p q : Permit κ) (ha : s.permits a = some p)
    (hb : s.permits b = some q) (hkey : p.key = q.key) (hp : p.probe = true ∧ p.live = true)
    (hq : q.probe = true ∧ q.live = true) : a = b := by
  have hsa := h.probe_slot a p ha hp.1 hp.2
  have hsb := h.probe_slot b q hb hq.1 hq.2
  rw [hkey, hsb, Option.some.injEq] at hsa
  exact hsa.symm

/-- Moves of one gate: later revisions, and while blocked later times. -/
structure Advances (g g' : Gate ι τ) : Prop where
  revision_le : g.revision ≤ g'.revision
  stays : g.blocked = true → g'.blocked = true ∧ Later g.nextAt g'.nextAt

theorem Advances.refl (g : Gate ι τ) : Advances g g := ⟨le_rfl, fun h => ⟨h, Later.refl _⟩⟩

theorem Advances.trans {f g k : Gate ι τ} (h : Advances f g) (h' : Advances g k) : Advances f k := by
  refine ⟨h.revision_le.trans h'.revision_le, ?_⟩
  intro hb
  obtain ⟨hb', hl⟩ := h.stays hb
  obtain ⟨hb'', hl'⟩ := h'.stays hb'
  exact ⟨hb'', hl.trans hl'⟩

variable [DecidableEq κ]

theorem Sound.observed (h : Sound clock s) (k : κ) (g : Gate ι τ)
    (hrev : g.revision = (s.gates k).revision + 1) (hblocked : g.blocked = true)
    (hslot : g.slot = (s.gates k).slot) (hnext : ∃ n, g.nextAt = some n) :
    Sound clock (s.setGate k g) := by
  constructor
  case slot_live =>
    intro i a hs
    rw [gates_setGate] at hs
    split at hs
    · next hi =>
      rw [hslot, ← hi] at hs
      exact h.slot_live i a hs
    · exact h.slot_live i a hs
  case slot_blocked =>
    intro i a hs
    rw [gates_setGate] at hs ⊢
    split
    · exact hblocked
    · next hi =>
      rw [if_neg hi] at hs
      exact h.slot_blocked i a hs
  case probe_slot =>
    intro a p hp hprobe hlive
    have hs := h.probe_slot a p hp hprobe hlive
    rw [gates_setGate]
    split
    · next hi => rw [hslot, ← hi, hs]
    · exact hs
  case revision_le =>
    intro a p hp
    have hle := h.revision_le a p hp
    rw [gates_setGate]
    split
    · next hi =>
      rw [hi] at hle
      omega
    · exact hle
  case blocked_next =>
    intro i hb
    rw [gates_setGate] at hb ⊢
    split
    · exact hnext
    · next hi =>
      rw [if_neg hi] at hb
      exact h.blocked_next i hb
  case slot_next =>
    -- no permit is of the new revision
    intro i a p hs hp hr
    rw [gates_setGate] at hs hr ⊢
    split
    · next hi =>
      rw [if_pos hi] at hs hr
      rw [hslot, ← hi] at hs
      obtain ⟨q, hq, hkey, -⟩ := h.slot_live i a hs
      rw [permits_setGate, hq, Option.some.injEq] at hp
      subst hp
      have hle := h.revision_le a q hq
      rw [hkey, hi] at hle
      omega
    · next hi =>
      rw [if_neg hi] at hs hr
      exact h.slot_next i a p hs hp hr

variable [DecidableEq ι]

/-- A new permit, which takes the slot if its gate is blocked. -/
def grant (s : Breaker κ ι τ) (k : κ) (a : ι) : Breaker κ ι τ :=
  (s.setGate k { s.gates k with
    slot := if (s.gates k).blocked then some a else (s.gates k).slot }).setPermit a
      ⟨k, (s.gates k).revision, (s.gates k).blocked, true⟩

inductive Move (clock : τ) : Breaker κ ι τ → Breaker κ ι τ → Prop
  | observed (s : Breaker κ ι τ) (k : κ) (g : Gate ι τ)
      (hrev : g.revision = (s.gates k).revision + 1) (hblocked : g.blocked = true)
      (hslot : g.slot = (s.gates k).slot) (hnext : ∃ n, g.nextAt = some n)
      (hlater : (s.gates k).blocked = true → Later (s.gates k).nextAt g.nextAt) :
      Move clock s (s.setGate k g)
  | granted (s : Breaker κ ι τ) (k : κ) (a : ι) (hnew : s.permits a = none)
      (hopen : (s.gates k).blocked = true →
        (s.gates k).slot = none ∧ ∃ n, (s.gates k).nextAt = some n ∧ n ≤ clock) :
      Move clock s (s.grant k a)
  | released (s : Breaker κ ι τ) (a : ι) (p : Permit κ) (g : Gate ι τ) (hp : s.permits a = some p)
      (hrev : (s.gates p.key).revision ≤ g.revision) (hblocked : g.blocked = (s.gates p.key).blocked)
      (hslot : g.slot = if (s.gates p.key).slot = some a then none else (s.gates p.key).slot)
      (hlater : Later (s.gates p.key).nextAt g.nextAt)
      (hkeep : (s.gates p.key).slot ≠ some a → g = s.gates p.key) :
      Move clock s ((s.setGate p.key g).setPermit a { p with live := false })

/-- The live probe of the current revision unblocks its gate. -/
inductive Recovers (a : ι) : Breaker κ ι τ → Breaker κ ι τ → Prop
  | recovered (s : Breaker κ ι τ) (p : Permit κ) (g : Gate ι τ) (hp : s.permits a = some p)
      (hprobe : p.probe = true) (hlive : p.live = true) (hslot : (s.gates p.key).slot = some a)
      (hcurrent : p.revision = (s.gates p.key).revision)
      (hrev : (s.gates p.key).revision ≤ g.revision) (hblocked : g.blocked = false)
      (hfree : g.slot = none) :
      Recovers a s ((s.setGate p.key g).setPermit a { p with live := false })

section grants
variable (k i : κ) (a b : ι)

omit [LinearOrder τ] in
theorem permits_grant : (s.grant k a).permits b =
    if b = a then some ⟨k, (s.gates k).revision, (s.gates k).blocked, true⟩ else s.permits b := by
  unfold grant
  rw [permits_setPermit, permits_setGate]

/- A grant changes nothing of a gate but its slot. -/
omit [LinearOrder τ] in
theorem gates_grant : ((s.grant k a).gates i).blocked = (s.gates i).blocked ∧
    ((s.grant k a).gates i).revision = (s.gates i).revision ∧
    ((s.grant k a).gates i).nextAt = (s.gates i).nextAt := by
  unfold grant
  rw [gates_setPermit, gates_setGate]
  split
  · next hi =>
    rw [hi]
    exact ⟨rfl, rfl, rfl⟩
  · exact ⟨rfl, rfl, rfl⟩

omit [LinearOrder τ] in
theorem slot_grant : ((s.grant k a).gates i).slot =
    if i = k ∧ (s.gates k).blocked = true then some a else (s.gates i).slot := by
  unfold grant
  rw [gates_setPermit, gates_setGate]
  by_cases hi : i = k
  · subst hi
    cases (s.gates i).blocked <;> simp
  · simp [hi]

end grants

theorem Sound.granted (h : Sound clock s) (k : κ) (a : ι) (hnew : s.permits a = none)
    (hopen : (s.gates k).blocked = true →
      (s.gates k).slot = none ∧ ∃ n, (s.gates k).nextAt = some n ∧ n ≤ clock) :
    Sound clock (s.grant k a) := by
  have hold : ∀ b q, s.permits b = some q → b ≠ a := by
    intro b q hb he
    rw [he, hnew] at hb
    cases hb
  -- a slot after the grant is that of the new permit, on a blocked gate, or what it was
  have hslot : ∀ i b, ((s.grant k a).gates i).slot = some b →
      (i = k ∧ b = a ∧ (s.gates k).blocked = true) ∨ (s.gates i).slot = some b := by
    intro i b hs
    rw [slot_grant] at hs
    split at hs
    · next hi => exact Or.inl ⟨hi.1, (Option.some.inj hs).symm, hi.2⟩
    · exact Or.inr hs
  constructor
  case slot_live =>
    intro i b hs
    rw [permits_grant]
    rcases hslot i b hs with ⟨rfl, rfl, hb⟩ | hs
    · rw [if_pos rfl]
      exact ⟨_, rfl, rfl, hb, rfl⟩
    · obtain ⟨q, hq, hrest⟩ := h.slot_live i b hs
      rw [if_neg (hold b q hq)]
      exact ⟨q, hq, hrest⟩
  case slot_blocked =>
    intro i b hs
    rw [(gates_grant k i a).1]
    rcases hslot i b hs with ⟨rfl, -, hb⟩ | hs
    · exact hb
    · exact h.slot_blocked i b hs
  case probe_slot =>
    intro b q hb hprobe hlive
    rw [permits_grant] at hb
    rw [slot_grant]
    split at hb
    · next hba =>
      cases hb
      simp only at hprobe
      rw [if_pos ⟨rfl, hprobe⟩, hba]
    · have hs := h.probe_slot b q hb hprobe hlive
      split
      · next hi =>
        -- a blocked gate was free when it granted
        rw [hi.1, (hopen hi.2).1] at hs
        cases hs
      · exact hs
  case revision_le =>
    intro b q hb
    rw [permits_grant] at hb
    rw [(gates_grant k q.key a).2.1]
    split at hb
    · cases hb
      exact le_rfl
    · exact h.revision_le b q hb
  case blocked_next =>
    intro i hb
    rw [(gates_grant k i a).1] at hb
    rw [(gates_grant k i a).2.2]
    exact h.blocked_next i hb
  case slot_next =>
    intro i b q hs hq hr
    rw [(gates_grant k i a).2.1] at hr
    rw [(gates_grant k i a).2.2]
    rw [permits_grant] at hq
    rcases hslot i b hs with ⟨rfl, -, hb⟩ | hs
    · exact (hopen hb).2
    · obtain ⟨q', hq', -⟩ := h.slot_live i b hs
      rw [if_neg (hold b q' hq')] at hq
      exact h.slot_next i b q hs hq hr

/-- Whatever probe of its gate is live when a permit is granted is the permit itself. -/
theorem Sound.grant_alone (h : Sound clock s) (k : κ) (a b : ι) (q : Permit κ)
    (hnew : s.permits a = none)
    (hopen : (s.gates k).blocked = true →
      (s.gates k).slot = none ∧ ∃ n, (s.gates k).nextAt = some n ∧ n ≤ clock)
    (hb : (s.grant k a).permits b = some q) (hkey : q.key = k) (hprobe : q.probe = true)
    (hlive : q.live = true) : b = a := by
  have hslot := (h.granted k a hnew hopen).probe_slot b q hb hprobe hlive
  rw [hkey, slot_grant] at hslot
  split at hslot
  · exact (Option.some.inj hslot).symm
  · next hopenGate => exact absurd ⟨rfl, h.slot_blocked k b hslot⟩ hopenGate

/- A permit ends, and frees the slot if it holds it. -/
theorem Sound.closed (h : Sound clock s) (a : ι) (p : Permit κ) (g : Gate ι τ)
    (hp : s.permits a = some p) (hrev : (s.gates p.key).revision ≤ g.revision)
    (hslot : g.slot = if (s.gates p.key).slot = some a then none else (s.gates p.key).slot)
    (hnext : g.blocked = true → ∃ n, g.nextAt = some n)
    (hkeep : (s.gates p.key).slot ≠ some a → g = s.gates p.key) :
    Sound clock ((s.setGate p.key g).setPermit a { p with live := false }) := by
  -- a slot that is still taken is taken by another permit, on an untouched gate
  have hother : ∀ i b, (if i = p.key then g else s.gates i).slot = some b →
      (s.gates i).slot = some b ∧ b ≠ a ∧ (if i = p.key then g else s.gates i) = s.gates i := by
    intro i b hs
    split at hs
    · next hi =>
      rw [hslot] at hs
      split at hs
      · cases hs
      · next hne =>
        rw [hi]
        refine ⟨hs, ?_, by rw [if_pos rfl, hkeep hne]⟩
        intro hba
        rw [hba] at hs
        exact hne hs
    · next hi =>
      refine ⟨hs, ?_, if_neg hi⟩
      intro hba
      rw [hba] at hs
      obtain ⟨q, hq, hkey, -⟩ := h.slot_live i a hs
      rw [hp] at hq
      cases hq
      exact hi hkey.symm
  constructor
  case slot_live =>
    intro i b hs
    rw [gates_setPermit, gates_setGate] at hs
    obtain ⟨hs, hne, -⟩ := hother i b hs
    rw [permits_setPermit, permits_setGate, if_neg hne]
    exact h.slot_live i b hs
  case slot_blocked =>
    intro i b hs
    rw [gates_setPermit, gates_setGate] at hs ⊢
    obtain ⟨hs, -, he⟩ := hother i b hs
    rw [he]
    exact h.slot_blocked i b hs
  case probe_slot =>
    intro b q hb hprobe hlive
    rw [permits_setPermit, permits_setGate] at hb
    rw [gates_setPermit, gates_setGate]
    split at hb
    · cases hb
      cases hlive
    · next hne =>
      have hs := h.probe_slot b q hb hprobe hlive
      split
      · next hi =>
        rw [hi] at hs
        have hdiff : (s.gates p.key).slot ≠ some a := by
          intro hx
          rw [hs, Option.some.injEq] at hx
          exact hne hx
        rw [hkeep hdiff]
        exact hs
      · exact hs
  case revision_le =>
    intro b q hb
    rw [permits_setPermit, permits_setGate] at hb
    rw [gates_setPermit, gates_setGate]
    have hold : ∀ c r, s.permits c = some r → r.revision ≤
        (if r.key = p.key then g else s.gates r.key).revision := by
      intro c r hc
      have hle := h.revision_le c r hc
      split
      · next hi =>
        rw [hi] at hle
        exact hle.trans hrev
      · exact hle
    split at hb
    · cases hb
      exact hold a p hp
    · exact hold b q hb
  case blocked_next =>
    intro i hb
    rw [gates_setPermit, gates_setGate] at hb ⊢
    split
    · next hi =>
      rw [if_pos hi] at hb
      exact hnext hb
    · next hi =>
      rw [if_neg hi] at hb
      exact h.blocked_next i hb
  case slot_next =>
    intro i b q hs hq hr
    rw [gates_setPermit, gates_setGate] at hs hr ⊢
    obtain ⟨hs, hne, he⟩ := hother i b hs
    rw [he] at hr ⊢
    rw [permits_setPermit, permits_setGate, if_neg hne] at hq
    exact h.slot_next i b q hs hq hr

theorem Sound.move (h : Sound clock s) (hm : Move clock s s') : Sound clock s' := by
  cases hm with
  | observed k g hrev hblocked hslot hnext hlater => exact h.observed k g hrev hblocked hslot hnext
  | granted k a hnew hopen => exact h.granted k a hnew hopen
  | released a p g hp hrev hblocked hslot hlater hkeep =>
    refine h.closed a p g hp hrev hslot ?_ hkeep
    intro hb
    rw [hblocked] at hb
    obtain ⟨n, hn⟩ := h.blocked_next p.key hb
    obtain ⟨m, hm, -⟩ := hlater n hn
    exact ⟨m, hm⟩

theorem Sound.recovers {a : ι} (h : Sound clock s) (hr : Recovers a s s') : Sound clock s' := by
  cases hr with
  | recovered p g hp hprobe hlive hslot hcurrent hrev hblocked hfree =>
    refine h.closed a p g hp hrev ?_ ?_ ?_
    · rw [hfree, if_pos hslot]
    · intro hb
      rw [hblocked] at hb
      cases hb
    · intro hne
      exact absurd hslot hne

theorem Move.advances (hm : Move clock s s') (k : κ) : Advances (s.gates k) (s'.gates k) := by
  cases hm with
  | observed i g hrev hblocked hslot hnext hlater =>
    rw [gates_setGate]
    split
    · next hk =>
      subst hk
      exact ⟨by omega, fun hb => ⟨hblocked, hlater hb⟩⟩
    · exact Advances.refl _
  | granted i a hnew hopen =>
    obtain ⟨hblocked, hrevision, hnext⟩ := @gates_grant κ ι τ s _ _ i k a
    refine ⟨hrevision.ge, fun hb => ⟨hblocked.trans hb, ?_⟩⟩
    rw [hnext]
    exact Later.refl _
  | released a p g hp hrev hblocked hslot hlater hkeep =>
    rw [gates_setPermit, gates_setGate]
    split
    · next hk =>
      subst hk
      exact ⟨hrev, fun hb => ⟨by rw [hblocked]; exact hb, hlater⟩⟩
    · exact Advances.refl _

omit [LinearOrder τ] in
theorem Recovers.revision_le {a : ι} (hr : Recovers a s s') (k : κ) :
    (s.gates k).revision ≤ (s'.gates k).revision := by
  cases hr with
  | recovered p g hp hprobe hlive hslot hcurrent hrev hblocked hfree =>
    rw [gates_setPermit, gates_setGate]
    split
    · next hk =>
      rw [hk]
      exact hrev
    · exact le_rfl

omit [LinearOrder τ] in
theorem Recovers.unblocked {a : ι} (hr : Recovers a s s') (k : κ) (hb : (s.gates k).blocked = true)
    (hu : (s'.gates k).blocked = false) :
    ∃ p, s.permits a = some p ∧ p.key = k ∧ p.probe = true ∧ p.live = true ∧
      p.revision = (s.gates k).revision := by
  cases hr with
  | recovered p g hp hprobe hlive hslot hcurrent hrev hblocked hfree =>
    rw [gates_setPermit, gates_setGate] at hu
    split at hu
    · next hk =>
      subst hk
      exact ⟨p, hp, rfl, hprobe, hlive, hcurrent⟩
    · rw [hb] at hu
      cases hu

theorem Recovers.later {a : ι} (hr : Recovers a s s') (k : κ) (hb : (s'.gates k).blocked = true) :
    Later (s.gates k).nextAt (s'.gates k).nextAt := by
  cases hr with
  | recovered p g hp hprobe hlive hslot hcurrent hrev hblocked hfree =>
    rw [gates_setPermit, gates_setGate] at hb ⊢
    split
    · next hk =>
      rw [if_pos hk, hblocked] at hb
      cases hb
    · exact Later.refl _

/-- Any number of moves at one time. -/
abbrev Moves (clock : τ) : Breaker κ ι τ → Breaker κ ι τ → Prop := Relation.ReflTransGen (Move clock)

theorem Sound.moves (h : Sound clock s) (hm : Moves clock s s') : Sound clock s' := by
  induction hm with
  | refl => exact h
  | tail _ hlast ih => exact ih.move hlast

theorem Moves.advances (hm : Moves clock s s') (k : κ) : Advances (s.gates k) (s'.gates k) := by
  induction hm with
  | refl => exact Advances.refl _
  | tail _ hlast ih => exact ih.trans (hlast.advances k)

end Breaker

end ParallelForge.Base
