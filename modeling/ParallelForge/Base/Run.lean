import Mathlib.Data.List.Basic

/-!
# Runs of a step function

A run is a list of inputs folded through a total step function: an input that
is refused leaves the state as it was. `Along ok` says that each step of a run
meets a condition on its input and the state before it. The parties of a
system are a list; what they hold is counted, and the last lemmas say how a
count moves when one party moves or leaves.
-/

namespace ParallelForge.Base
variable {σ ι : Type}

def run (step : σ → ι → σ) (s : σ) (l : List ι) : σ := l.foldl step s

@[simp] theorem run_nil (step : σ → ι → σ) (s : σ) : run step s [] = s := rfl

@[simp] theorem run_cons (step : σ → ι → σ) (s : σ) (i : ι) (l : List ι) :
    run step s (i :: l) = run step (step s i) l := rfl

def Along (step : σ → ι → σ) (ok : σ → ι → Prop) : σ → List ι → Prop
  | _, [] => True
  | s, i :: l => ok s i ∧ Along step ok (step s i) l

instance decidableAlong (step : σ → ι → σ) (ok : σ → ι → Prop) [∀ s i, Decidable (ok s i)] :
    (s : σ) → (l : List ι) → Decidable (Along step ok s l)
  | _, [] => isTrue trivial
  | s, i :: l => @instDecidableAnd (ok s i) (Along step ok (step s i) l) _
      (decidableAlong step ok (step s i) l)

theorem along_append (step : σ → ι → σ) (ok : σ → ι → Prop) (s : σ) (l m : List ι) :
    Along step ok s (l ++ m) ↔ Along step ok s l ∧ Along step ok (run step s l) m := by
  induction l generalizing s with
  | nil => simp [Along]
  | cons i l ih => simp only [List.cons_append, Along, ih, run_cons, and_assoc]

theorem along_and (step : σ → ι → σ) (ok ok' : σ → ι → Prop) (s : σ) (l : List ι) :
    Along step (fun s i => ok s i ∧ ok' s i) s l ↔ Along step ok s l ∧ Along step ok' s l := by
  induction l generalizing s with
  | nil => simp [Along]
  | cons i l ih => simp only [Along, ih, and_and_and_comm]

/- The condition holds at each step of the run. -/
theorem along_at (step : σ → ι → σ) (ok : σ → ι → Prop) (s : σ) (l m : List ι) (i : ι)
    (h : Along step ok s (l ++ i :: m)) : ok (run step s l) i :=
  ((along_append step ok s l (i :: m)).mp h).2.1

theorem run_invariant (step : σ → ι → σ) (inv : σ → Prop)
    (hstep : ∀ s i, inv s → inv (step s i)) (s : σ) (l : List ι) (h : inv s) :
    inv (run step s l) := by
  induction l generalizing s with
  | nil => exact h
  | cons i l ih => exact ih (step s i) (hstep s i h)

theorem run_invariant_along (step : σ → ι → σ) (ok : σ → ι → Prop) (inv : σ → Prop)
    (hstep : ∀ s i, inv s → ok s i → inv (step s i)) (s : σ) (l : List ι)
    (h : inv s) (hl : Along step ok s l) : inv (run step s l) := by
  induction l generalizing s with
  | nil => exact h
  | cons i l ih => exact ih (step s i) (hstep s i h hl.1) hl.2

/- A preorder that every step climbs is climbed by every run. -/
theorem run_climbs (step : σ → ι → σ) (le : σ → σ → Prop) (hrefl : ∀ s, le s s)
    (htrans : ∀ a b c, le a b → le b c → le a c) (hstep : ∀ s i, le s (step s i))
    (s : σ) (l : List ι) : le s (run step s l) := by
  induction l generalizing s with
  | nil => exact hrefl s
  | cons i l ih => exact htrans _ _ _ (hstep s i) (ih (step s i))

/- What is once true and kept by each step stays true. -/
theorem stays_iff_along (step : σ → ι → σ) (p : σ → Prop) (s : σ) (l : List ι) :
    (∀ a b c, l = a ++ (b ++ c) → p (run step s a) → p (run step s (a ++ b))) ↔
      Along step (fun s i => p s → p (step s i)) s l := by
  induction l generalizing s with
  | nil =>
    refine ⟨fun _ => trivial, fun _ a b c h hp => ?_⟩
    simp only [List.nil_eq, List.append_eq_nil_iff] at h
    simpa [h.1, h.2.1] using hp
  | cons i l ih =>
    simp only [Along]
    rw [← ih]
    constructor
    · intro h
      refine ⟨fun hp => h [] [i] l rfl hp, fun a b c hl hp => ?_⟩
      exact h (i :: a) b c (by rw [hl, List.cons_append]) hp
    · rintro ⟨hi, h⟩ a b c hl hp
      cases a with
      | cons j a =>
        simp only [List.cons_append, List.cons.injEq] at hl
        obtain ⟨rfl, hl⟩ := hl
        exact h a b c hl hp
      | nil =>
        cases b with
        | nil => exact hp
        | cons j b =>
          simp only [List.nil_append, List.cons_append, List.cons.injEq] at hl
          obtain ⟨rfl, hl⟩ := hl
          exact h [] b c hl (hi hp)

/- Two conditions that an invariant makes equal. -/
theorem along_congr (step : σ → ι → σ) (ok ok' : σ → ι → Prop) (good : σ → Prop)
    (hstep : ∀ s i, good s → good (step s i)) (h : ∀ s i, good s → (ok s i ↔ ok' s i))
    (s : σ) (l : List ι) (hs : good s) : Along step ok s l ↔ Along step ok' s l := by
  induction l generalizing s with
  | nil => exact Iff.rfl
  | cons i l ih => exact and_congr (h s i hs) (ih (step s i) (hstep s i hs))

section parties
variable {α : Type} (p : α → Bool)

theorem countP_set_getElem? (l : List α) (i : ℕ) (a b : α) (h : l[i]? = some b) :
    (l.set i a).countP p + (if p b then 1 else 0) = l.countP p + if p a then 1 else 0 := by
  induction l generalizing i with
  | nil => simp at h
  | cons x l ih =>
    cases i with
    | zero =>
      simp only [List.getElem?_cons_zero, Option.some.injEq] at h
      subst h
      simp only [List.set_cons_zero, List.countP_cons]
      omega
    | succ i =>
      simp only [List.getElem?_cons_succ] at h
      have := ih i h
      simp only [List.set_cons_succ, List.countP_cons]
      omega

theorem countP_eraseIdx_getElem? (l : List α) (i : ℕ) (b : α) (h : l[i]? = some b) :
    (l.eraseIdx i).countP p + (if p b then 1 else 0) = l.countP p := by
  induction l generalizing i with
  | nil => simp at h
  | cons x l ih =>
    cases i with
    | zero =>
      simp only [List.getElem?_cons_zero, Option.some.injEq] at h
      subst h
      simp only [List.eraseIdx_cons_zero, List.countP_cons]
    | succ i =>
      simp only [List.getElem?_cons_succ] at h
      have := ih i h
      simp only [List.eraseIdx_cons_succ, List.countP_cons]
      omega

end parties

end ParallelForge.Base
