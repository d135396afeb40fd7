import Mathlib.Data.List.Chain
import Mathlib.Data.List.Nodup

/-!
# Chains that cannot turn back

In a list where each element says which value it follows, and the values of
its elements are distinct, an element that stood twice would follow two
different ones. Only the end of the list follows nothing.
-/

namespace ParallelForge.Base
variable {α β : Type}

/- All but the last are followed by something. -/
theorem IsChain.next (r : α → α → Prop) (l : List α) (h : l.IsChain r) (z : α) (hz : z ∈ l)
    (hlast : l.getLast? ≠ some z) : ∃ z' ∈ l.tail, r z z' := by
  induction l with
  | nil => cases hz
  | cons x l ih =>
    cases l with
    | nil =>
      have hx : z = x := by simpa using hz
      subst hx
      exact absurd rfl hlast
    | cons y l =>
      rw [List.isChain_cons_cons] at h
      rcases List.mem_cons.mp hz with rfl | hz
      · exact ⟨y, by simp, h.1⟩
      · have hlast' : (y :: l).getLast? ≠ some z := by
          simpa only [List.getLast?_cons_cons] using hlast
        obtain ⟨z', hz', hr⟩ := ih h.2 hz hlast'
        exact ⟨z', by simpa using Or.inr hz', hr⟩

end ParallelForge.Base
