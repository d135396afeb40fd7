import Mathlib.Logic.Relation
import Mathlib.Data.Nat.Init

/-!
# Waiting graphs

Parties wait for one another, and some of them ask for an answer from outside.
A party is stuck when a chain of waits leads from it to one that asks. Where
waiting has a rank, a party that is not stuck has someone at the end of a
chain who waits for nobody and asks for nothing.
-/

namespace ParallelForge.Base
open Relation

variable {α : Type} {waits waits' : α → α → Prop} {asks asks' : α → Prop}

def Stuck (waits : α → α → Prop) (asks : α → Prop) (x : α) : Prop :=
  ∃ a, ReflTransGen waits x a ∧ asks a

theorem Stuck.of_asks {x : α} (h : asks x) : Stuck waits asks x := ⟨x, .refl, h⟩

theorem Stuck.of_waits {x y : α} (hxy : waits x y) (hy : Stuck waits asks y) :
    Stuck waits asks x := by
  obtain ⟨a, hya, ha⟩ := hy
  exact ⟨a, hya.head hxy, ha⟩

theorem Stuck.cases {x : α} (h : Stuck waits asks x) :
    asks x ∨ ∃ y, waits x y ∧ Stuck waits asks y := by
  obtain ⟨a, hxa, ha⟩ := h
  rcases hxa.cases_head with rfl | ⟨y, hxy, hya⟩
  · exact Or.inl ha
  · exact Or.inr ⟨y, hxy, a, hya, ha⟩

/-- Within a closed set of parties, nobody new is stuck if nobody new asks and every
new wait is for someone who was not stuck. -/
theorem Stuck.shrinks (p : α → Prop) (ha : ∀ x, p x → asks' x → asks x)
    (hw : ∀ x y, p x → waits' x y → p y ∧ (waits x y ∨ ¬ Stuck waits asks y)) (x : α) (hx : p x)
    (h : Stuck waits' asks' x) : Stuck waits asks x := by
  obtain ⟨a, hxa, haa⟩ := h
  induction hxa using ReflTransGen.head_induction_on with
  | refl => exact Stuck.of_asks (ha a hx haa)
  | head hxy _ ih =>
    obtain ⟨hy, hold⟩ := hw _ _ hx hxy
    have hstuck := ih hy
    rcases hold with hold | hfree
    · exact Stuck.of_waits hold hstuck
    · exact absurd hstuck hfree

/-- One party starts to ask: who is stuck now was stuck, or waits for that party. -/
theorem Stuck.of_new_ask (b : α) (ha : ∀ x, asks' x → asks x ∨ x = b)
    (hw : ∀ x y, waits' x y → waits x y) (x : α) (h : Stuck waits' asks' x) :
    Stuck waits asks x ∨ ReflTransGen waits x b := by
  obtain ⟨a, hxa, haa⟩ := h
  have hold : ReflTransGen waits x a := ReflTransGen.mono hw x a hxa
  rcases ha a haa with hold' | rfl
  · exact Or.inl ⟨a, hold, hold'⟩
  · exact Or.inr hold

/-- Waiting with a rank comes to an end. -/
theorem exists_last (rank : α → ℕ) (hrank : ∀ x y, waits x y → rank y < rank x) (x : α) :
    ∃ y, ReflTransGen waits x y ∧ ∀ z, ¬ waits y z := by
  generalize hn : rank x = n
  induction n using Nat.strongRecOn generalizing x with
  | _ n ih =>
    by_cases h : ∃ y, waits x y
    · obtain ⟨y, hxy⟩ := h
      have hlt : rank y < n := by have := hrank x y hxy; omega
      obtain ⟨z, hyz, hz⟩ := ih (rank y) hlt y rfl
      exact ⟨z, hyz.head hxy, hz⟩
    · exact ⟨x, .refl, fun z hz => h ⟨z, hz⟩⟩

/- A newcomer is ranked above everybody it waits for. -/
theorem exists_rank_above (rank : α → ℕ) (l : List α) : ∃ n, ∀ x ∈ l, rank x < n := by
  induction l with
  | nil => exact ⟨0, fun x hx => by cases hx⟩
  | cons a l ih =>
    obtain ⟨n, hn⟩ := ih
    refine ⟨n + rank a + 1, ?_⟩
    intro x hx
    rcases List.mem_cons.mp hx with rfl | hx
    · omega
    · have := hn x hx
      omega

theorem exists_free (rank : α → ℕ) (hrank : ∀ x y, waits x y → rank y < rank x) (x : α)
    (h : ¬ Stuck waits asks x) : ∃ y, ReflTransGen waits x y ∧ ¬ asks y ∧ ∀ z, ¬ waits y z := by
  obtain ⟨y, hxy, hy⟩ := exists_last rank hrank x
  exact ⟨y, hxy, fun ha => h ⟨y, hxy, ha⟩, hy⟩

end ParallelForge.Base
