import Mathlib.Data.Nat.Notation
import Mathlib.Data.List.Basic
import Mathlib.Order.Nat

/-!
# Regular expressions as a backtracking matcher reads them

`ends` lists the positions where a match from a given position can end, in the
order in which a backtracking matcher tries them, so its first member is the
match. A greedy loop tries another turn before it stops, a lazy one after, and a
turn that reads nothing ends the loop. `finditer` scans for matches that do not
overlap, from the left.
-/

namespace ParallelForge.Base

inductive Regex (α : Type)
  | empty
  | chr (p : α → Bool)
  /- An assertion on the letters before and after the position. -/
  | edge (p : Option α → Option α → Bool)
  | seq (r s : Regex α)
  | alt (r s : Regex α)
  | star (r : Regex α)
  | lazy (r : Regex α)

namespace Regex
variable {α : Type}

def opt (r : Regex α) : Regex α := .alt r .empty

def plus (r : Regex α) : Regex α := .seq r (.star r)

/-- `r{n,}`. -/
def atLeast (r : Regex α) : ℕ → Regex α
  | 0 => .star r
  | n + 1 => .seq r (atLeast r n)

def seqs : List (Regex α) → Regex α
  | [] => .empty
  | [r] => r
  | r :: rs => .seq r (seqs rs)

def alts : List (Regex α) → Regex α
  | [] => .chr fun _ => false
  | [r] => r
  | r :: rs => .alt r (alts rs)

def starEnds (turn : ℕ → List ℕ) : ℕ → ℕ → List ℕ
  | 0, i => [i]
  | n + 1, i => ((turn i).filter (i < ·)).flatMap (starEnds turn n) ++ [i]

def lazyEnds (turn : ℕ → List ℕ) : ℕ → ℕ → List ℕ
  | 0, i => [i]
  | n + 1, i => i :: ((turn i).filter (i < ·)).flatMap (lazyEnds turn n)

variable (text : List α)

def before (i : ℕ) : Option α := if i = 0 then none else text[i - 1]?

def ends : Regex α → ℕ → List ℕ
  | .empty, i => [i]
  | .chr p, i => if text[i]?.any p then [i + 1] else []
  | .edge p, i => if p (before text i) text[i]? then [i] else []
  | .seq r s, i => (ends r i).flatMap (ends s)
  | .alt r s, i => ends r i ++ ends s i
  | .star r, i => starEnds (ends r) (text.length - i) i
  | .lazy r, i => lazyEnds (ends r) (text.length - i) i

/-- The end of the match at a position. -/
def matchAt (r : Regex α) (i : ℕ) : Option ℕ := (ends text r i).head?

/-- Matches that do not overlap, from a position on. -/
def matchesFrom (r : Regex α) : ℕ → ℕ → List (ℕ × ℕ)
  | 0, _ => []
  | fuel + 1, i =>
    if text.length < i then []
    else match matchAt text r i with
      | some j => (i, j) :: matchesFrom r fuel (max j (i + 1))
      | none => matchesFrom r fuel (i + 1)

def finditer (r : Regex α) : List (ℕ × ℕ) := matchesFrom text r (text.length + 1) 0

section bounds
variable {text}

theorem starEnds_bounds {turn : ℕ → List ℕ} {n : ℕ}
    (hturn : ∀ i j, i ≤ text.length → j ∈ turn i → i ≤ j ∧ j ≤ text.length) :
    ∀ i j, i ≤ text.length → j ∈ starEnds turn n i → i ≤ j ∧ j ≤ text.length := by
  induction n with
  | zero =>
    intro i j hi hj
    rw [starEnds, List.mem_singleton] at hj
    omega
  | succ n ih =>
    intro i j hi hj
    rw [starEnds, List.mem_append, List.mem_flatMap, List.mem_singleton] at hj
    rcases hj with ⟨k, hk, hj⟩ | hj
    · have hk' := hturn i k hi (List.mem_of_mem_filter hk)
      have hj' := ih k j hk'.2 hj
      omega
    · omega

theorem lazyEnds_bounds {turn : ℕ → List ℕ} {n : ℕ}
    (hturn : ∀ i j, i ≤ text.length → j ∈ turn i → i ≤ j ∧ j ≤ text.length) :
    ∀ i j, i ≤ text.length → j ∈ lazyEnds turn n i → i ≤ j ∧ j ≤ text.length := by
  induction n with
  | zero =>
    intro i j hi hj
    rw [lazyEnds, List.mem_singleton] at hj
    omega
  | succ n ih =>
    intro i j hi hj
    rw [lazyEnds, List.mem_cons, List.mem_flatMap] at hj
    rcases hj with hj | ⟨k, hk, hj⟩
    · omega
    · have hk' := hturn i k hi (List.mem_of_mem_filter hk)
      have hj' := ih k j hk'.2 hj
      omega

/-- A match starts and ends inside the text. -/
theorem ends_bounds (r : Regex α) :
    ∀ i j, i ≤ text.length → j ∈ ends text r i → i ≤ j ∧ j ≤ text.length := by
  induction r with
  | empty =>
    intro i j hi hj
    rw [ends, List.mem_singleton] at hj
    omega
  | chr p =>
    intro i j hi hj
    rw [ends] at hj
    split at hj
    · next hany =>
      rw [List.mem_singleton] at hj
      have hlt : i < text.length := by
        by_contra hge
        rw [List.getElem?_eq_none (by omega)] at hany
        cases hany
      omega
    · cases hj
  | edge p =>
    intro i j hi hj
    rw [ends] at hj
    split at hj
    · rw [List.mem_singleton] at hj
      omega
    · cases hj
  | seq r s ihr ihs =>
    intro i j hi hj
    rw [ends, List.mem_flatMap] at hj
    obtain ⟨k, hk, hj⟩ := hj
    have hk' := ihr i k hi hk
    have hj' := ihs k j hk'.2 hj
    omega
  | alt r s ihr ihs =>
    intro i j hi hj
    rw [ends, List.mem_append] at hj
    rcases hj with hj | hj
    · exact ihr i j hi hj
    · exact ihs i j hi hj
  | star r ih =>
    intro i j hi hj
    exact starEnds_bounds ih i j hi hj
  | lazy r ih =>
    intro i j hi hj
    exact lazyEnds_bounds ih i j hi hj

theorem matchAt_bounds {r : Regex α} {i j : ℕ} (hi : i ≤ text.length)
    (h : matchAt text r i = some j) : i ≤ j ∧ j ≤ text.length :=
  ends_bounds r i j hi (List.mem_of_mem_head? h)

theorem matchesFrom_bounds {r : Regex α} {n : ℕ} :
    ∀ i m, m ∈ matchesFrom text r n i → m.1 ≤ m.2 ∧ m.2 ≤ text.length := by
  induction n with
  | zero => intro i m hm; cases hm
  | succ n ih =>
    intro i m hm
    rw [matchesFrom] at hm
    split at hm
    · cases hm
    · next hi =>
      split at hm
      · next j hj =>
        rcases List.mem_cons.mp hm with rfl | hm
        · exact matchAt_bounds (by omega) hj
        · exact ih _ m hm
      · exact ih _ m hm

theorem finditer_bounds {r : Regex α} {m : ℕ × ℕ} (h : m ∈ finditer text r) :
    m.1 ≤ m.2 ∧ m.2 ≤ text.length :=
  matchesFrom_bounds 0 m h

end bounds

end Regex

end ParallelForge.Base
