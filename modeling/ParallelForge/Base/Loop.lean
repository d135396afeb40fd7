import Mathlib.Data.Nat.Notation
import Mathlib.Data.List.Basic
import Mathlib.Order.Nat

/-!
# Programs with loops

A program is what it returns when no loop of it may take more turns than the
fuel. `Returns` is total correctness: with enough fuel the program returns the
value, whatever the fuel. The rules are those of sequence, of a `for` over a
list, of `while` with an invariant and a variant, and of the loop that repeats
its body until nothing changes.
-/

namespace ParallelForge.Base

def Prog (α : Type) : Type := ℕ → Option α

namespace Prog
variable {α β σ : Type}

instance : Monad Prog where
  pure a := fun _ => some a
  bind p f := fun fuel => (p fuel).bind fun a => f a fuel

def whileTurns (cond : σ → Bool) (body : σ → Prog σ) (fuel : ℕ) : ℕ → σ → Option σ
  | 0, _ => none
  | turns + 1, s =>
    if cond s then (body s fuel).bind (whileTurns cond body fuel turns) else some s

def whileLoop (cond : σ → Bool) (body : σ → Prog σ) (s : σ) : Prog σ :=
  fun fuel => whileTurns cond body fuel fuel s

/-- `while cond: previous = s; body; if s == previous: break`. -/
def untilStable [DecidableEq σ] (cond : σ → Bool) (body : σ → Prog σ) (s : σ) : Prog σ := do
  let last ← whileLoop (fun t : σ × Bool => cond t.1 && !t.2)
    (fun t => do
      let next ← body t.1
      pure (next, next == t.1)) (s, false)
  pure last.1

def Returns (p : Prog α) (a : α) : Prop := ∃ enough, ∀ fuel, enough ≤ fuel → p fuel = some a

theorem returns_pure (a : α) : Returns (pure a) a := ⟨0, fun _ _ => rfl⟩

theorem returns_bind {p : Prog α} {f : α → Prog β} {a : α} {b : β} (hp : Returns p a)
    (hf : Returns (f a) b) : Returns (p >>= f) b := by
  obtain ⟨m, hm⟩ := hp
  obtain ⟨n, hn⟩ := hf
  refine ⟨max m n, ?_⟩
  intro fuel hfuel
  show (p fuel).bind (fun a => f a fuel) = some b
  rw [hm fuel (by omega)]
  exact hn fuel (by omega)

theorem Returns.unique {p : Prog α} {a b : α} (ha : Returns p a) (hb : Returns p b) : a = b := by
  obtain ⟨m, hm⟩ := ha
  obtain ⟨n, hn⟩ := hb
  have hleft := hm (max m n) (by omega)
  rw [hn (max m n) (by omega), Option.some.injEq] at hleft
  exact hleft.symm

/- A `for` over a list keeps what each turn keeps; the invariant sees what has been read. -/
theorem returns_foldlM (f : σ → α → Prog σ) (l : List α) (inv : List α → σ → Prop)
    (hstep : ∀ done a rest s, l = done ++ a :: rest → inv done s →
      ∃ s', Returns (f s a) s' ∧ inv (done ++ [a]) s') (s : σ) (h : inv [] s) :
    ∃ s', Returns (l.foldlM f s) s' ∧ inv l s' := by
  have hrest : ∀ rest done s, l = done ++ rest → inv done s →
      ∃ s', Returns (rest.foldlM f s) s' ∧ inv l s' := by
    intro rest
    induction rest with
    | nil =>
      intro done s hl hinv
      rw [List.append_nil] at hl
      rw [hl]
      exact ⟨s, returns_pure s, hinv⟩
    | cons a rest ih =>
      intro done s hl hinv
      obtain ⟨s₁, hrun, hinv₁⟩ := hstep done a rest s hl hinv
      have hl₁ : l = (done ++ [a]) ++ rest := by
        rw [List.append_assoc]
        exact hl
      obtain ⟨s₂, hrun₂, hinv₂⟩ := ih (done ++ [a]) s₁ hl₁ hinv₁
      refine ⟨s₂, ?_, hinv₂⟩
      rw [List.foldlM_cons]
      exact returns_bind hrun hrun₂
  exact hrest l [] s rfl h

section loops
variable (cond : σ → Bool) (body : σ → Prog σ)

theorem whileTurns_mono (fuel : ℕ) : ∀ turns turns' s t, turns ≤ turns' →
    whileTurns cond body fuel turns s = some t → whileTurns cond body fuel turns' s = some t := by
  intro turns
  induction turns with
  | zero => intro turns' s t _ h; cases h
  | succ turns ih =>
    intro turns' s t hle h
    cases turns' with
    | zero => omega
    | succ turns' =>
      rw [whileTurns] at h ⊢
      split at h
      · next hc =>
        rw [if_pos hc]
        rw [Option.bind_eq_some_iff] at h ⊢
        obtain ⟨s', hs', hrest⟩ := h
        exact ⟨s', hs', ih turns' s' t (by omega) hrest⟩
      · next hc =>
        rw [if_neg hc]
        exact h

/- An invariant that every turn keeps while the variant goes down. -/
theorem while_turns (inv : σ → Prop) (variant : σ → ℕ)
    (hstep : ∀ s, inv s → cond s = true →
      ∃ s', Returns (body s) s' ∧ inv s' ∧ variant s' < variant s) :
    ∀ n s, variant s ≤ n → inv s → ∃ t turns enough,
      (∀ fuel, enough ≤ fuel → whileTurns cond body fuel turns s = some t) ∧ inv t ∧ cond t = false := by
  intro n
  induction n with
  | zero =>
    intro s hn h
    cases hc : cond s with
    | true =>
      obtain ⟨s', -, -, hlt⟩ := hstep s h hc
      omega
    | false =>
      refine ⟨s, 1, 0, fun fuel _ => ?_, h, hc⟩
      rw [whileTurns, hc, if_neg Bool.false_ne_true]
  | succ n ih =>
    intro s hn h
    cases hc : cond s with
    | true =>
      obtain ⟨s', ⟨m, hm⟩, hinv, hlt⟩ := hstep s h hc
      obtain ⟨t, turns, enough, hrun, ht⟩ := ih s' (by omega) hinv
      refine ⟨t, turns + 1, max m enough, fun fuel hfuel => ?_, ht⟩
      rw [whileTurns, if_pos hc, hm fuel (by omega), Option.bind_some]
      exact hrun fuel (by omega)
    | false =>
      refine ⟨s, 1, 0, fun fuel _ => ?_, h, hc⟩
      rw [whileTurns, hc, if_neg Bool.false_ne_true]

theorem returns_while (inv : σ → Prop) (variant : σ → ℕ)
    (hstep : ∀ s, inv s → cond s = true →
      ∃ s', Returns (body s) s' ∧ inv s' ∧ variant s' < variant s) (s : σ) (h : inv s) :
    ∃ t, Returns (whileLoop cond body s) t ∧ inv t ∧ cond t = false := by
  obtain ⟨t, turns, enough, hrun, ht⟩ := while_turns cond body inv variant hstep (variant s) s le_rfl h
  refine ⟨t, ⟨max turns enough, fun fuel hfuel => ?_⟩, ht⟩
  exact whileTurns_mono cond body fuel turns fuel s t (by omega) (hrun fuel (by omega))

/- A body that changes its state only downwards ends where it changes nothing. -/
theorem returns_untilStable [DecidableEq σ] (inv : σ → Prop) (variant : σ → ℕ)
    (hstep : ∀ s, inv s → cond s = true →
      ∃ s', Returns (body s) s' ∧ inv s' ∧ (s' = s ∨ variant s' < variant s)) (s : σ) (h : inv s) :
    ∃ t, Returns (untilStable cond body s) t ∧ inv t ∧ (cond t = false ∨ Returns (body t) t) := by
  have hturn : ∀ t : σ × Bool, (inv t.1 ∧ (t.2 = true → Returns (body t.1) t.1)) →
      (cond t.1 && !t.2) = true →
      ∃ t' : σ × Bool, Returns (do let next ← body t.1; pure (next, next == t.1)) t' ∧
        (inv t'.1 ∧ (t'.2 = true → Returns (body t'.1) t'.1)) ∧
        2 * variant t'.1 + (if t'.2 then 0 else 1) < 2 * variant t.1 + if t.2 then 0 else 1 := by
    rintro ⟨u, flag⟩ ⟨hu, -⟩ hcond
    rw [Bool.and_eq_true, Bool.not_eq_true'] at hcond
    obtain ⟨hcu, hflag⟩ := hcond
    obtain ⟨u', hbody, hinv, hdown⟩ := hstep u hu hcu
    refine ⟨(u', u' == u), returns_bind hbody (returns_pure _), ⟨hinv, ?_⟩, ?_⟩
    · intro heq
      have hsame : u' = u := by simpa using heq
      show Returns (body u') u'
      rw [hsame] at hbody ⊢
      exact hbody
    · rcases hdown with rfl | hlt
      · simp only at hflag
        simp [hflag]
      · simp only at hflag
        simp only [hflag, Bool.false_eq_true, if_false]
        split
        · omega
        · omega
  obtain ⟨t, hrun, ⟨hinv, hstable⟩, hend⟩ :=
    returns_while _ _ _ _ hturn (s, false) ⟨h, fun hf => by cases hf⟩
  refine ⟨t.1, returns_bind hrun (returns_pure _), hinv, ?_⟩
  rw [Bool.and_eq_false_iff, Bool.not_eq_false'] at hend
  exact hend.imp_right hstable

/- A state that the body keeps is returned at once. -/
theorem untilStable_kept [DecidableEq σ] (s : σ) (h : Returns (body s) s) :
    Returns (untilStable cond body s) s := by
  obtain ⟨t, hrun, rfl, -⟩ := returns_untilStable cond body (fun t => t = s) (fun _ => 0)
    (fun t ht _ => ⟨s, by rw [ht]; exact h, rfl, Or.inl ht.symm⟩) s rfl
  exact hrun

end loops

end Prog

end ParallelForge.Base
