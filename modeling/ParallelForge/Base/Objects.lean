import ParallelForge.Base.Table
import Mathlib.Data.List.Basic

/-!
# Objects in a list

An object is a position of a list that grows at its end and changes in place.
A dictionary of such objects is an index of the list.
-/

namespace ParallelForge.Base

theorem modify_at {α : Type} (l : List α) (i j : ℕ) (f : α → α) (x : α) (h : l[j]? = some x) :
    (l.modify i f)[j]? = some (if i = j then f x else x) := by
  rw [List.getElem?_modify, h]
  rfl

theorem at_modify {α : Type} (l : List α) (i j : ℕ) (f : α → α) (y : α)
    (h : (l.modify i f)[j]? = some y) : ∃ x, l[j]? = some x ∧ y = if i = j then f x else x := by
  rw [List.getElem?_modify] at h
  cases hx : l[j]? with
  | none =>
    rw [hx] at h
    cases h
  | some x =>
    rw [hx] at h
    exact ⟨x, rfl, (Option.some.inj h).symm⟩

theorem map_modify_of {α β : Type} (l : List α) (i : ℕ) (f : α → α) (part : α → β) (f' : β → β)
    (h : ∀ x, part (f x) = f' (part x)) : (l.modify i f).map part = (l.map part).modify i f' := by
  apply List.ext_getElem?
  intro j
  rw [List.getElem?_map, List.getElem?_modify, List.getElem?_modify, List.getElem?_map]
  cases l[j]? with
  | none => rfl
  | some x =>
    simp only [Option.map_eq_map, Option.map_some, Option.some.injEq]
    split
    · exact h x
    · rfl

theorem map_modify {α β : Type} (l : List α) (i : ℕ) (f : α → α) (part : α → β)
    (h : ∀ x, part (f x) = part x) : (l.modify i f).map part = l.map part := by
  rw [map_modify_of l i f part id h, List.modify_id]

theorem at_append {α : Type} (l : List α) (a : α) (j : ℕ) (y : α) (h : (l ++ [a])[j]? = some y) :
    l[j]? = some y ∨ j = l.length ∧ y = a := by
  by_cases hj : j < l.length
  · rw [List.getElem?_append_left hj] at h
    exact .inl h
  · rw [List.getElem?_append_right (Nat.le_of_not_lt hj), List.getElem?_singleton] at h
    split at h
    · cases h
      exact .inr ⟨by omega, rfl⟩
    · cases h

theorem append_at {α : Type} (l : List α) (a x : α) (j : ℕ) (h : l[j]? = some x) :
    (l ++ [a])[j]? = some x := by
  rw [List.getElem?_append_left (List.getElem?_eq_some_iff.mp h).1, h]

/-- The table has the value of every object under its key, and nothing else. -/
def IndexOf {κ α β : Type} [DecidableEq κ] (t : Table κ α) (l : List β) (key : β → κ)
    (value : β → ℕ → α) : Prop :=
  ∀ k a, t.get k = some a ↔ ∃ (i : ℕ) (x : β), l[i]? = some x ∧ key x = k ∧ value x i = a

section index
variable {κ α β : Type} [DecidableEq κ] {t : Table κ α} {l : List β} {key : β → κ}
  {value : β → ℕ → α}

theorem IndexOf.get (h : IndexOf t l key value) (i : ℕ) (x : β) (hx : l[i]? = some x) :
    t.get (key x) = some (value x i) := (h _ _).mpr ⟨i, x, hx, rfl, rfl⟩

theorem IndexOf.absent (h : IndexOf t l key value) (k : κ) (hk : t.get k = none) (x : β)
    (hx : x ∈ l) : key x ≠ k := by
  obtain ⟨i, hi⟩ := List.mem_iff_getElem?.mp hx
  intro heq
  have hget := h.get i x hi
  rw [heq, hk] at hget
  cases hget

theorem IndexOf.append (h : IndexOf t l key value) (x : β) (hnew : t.get (key x) = none) :
    IndexOf (t.put (key x) (value x l.length)) (l ++ [x]) key value := by
  intro k a
  by_cases hk : k = key x
  · subst hk
    rw [Table.get_put_self]
    constructor
    · intro heq
      exact ⟨l.length, x, List.getElem?_concat_length, rfl, Option.some.inj heq⟩
    · intro ⟨i, y, hy, hkey, hvalue⟩
      rcases at_append l x i y hy with hold | ⟨hi, hone⟩
      · exact absurd hkey (h.absent (key x) hnew y (List.mem_of_getElem? hold))
      · rw [← hvalue, hi, hone]
  · rw [Table.get_put_ne t _ hk, h k a]
    constructor
    · intro ⟨i, y, hy, hrest⟩
      exact ⟨i, y, append_at l x y i hy, hrest⟩
    · intro ⟨i, y, hy, hkey, hvalue⟩
      rcases at_append l x i y hy with hold | ⟨-, hone⟩
      · exact ⟨i, y, hold, hkey, hvalue⟩
      · rw [hone] at hkey
        exact absurd hkey.symm hk

end index

end ParallelForge.Base
