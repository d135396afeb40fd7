import Mathlib.Data.List.Sort
import Mathlib.Order.Lattice

/-!
# The latest members of a list

Sorted by a key that tells its members apart, the end of a list is a matter of
the members alone: the same for every order they come in, and no member outside
it is later than one inside.
-/

namespace ParallelForge.Base
variable {α κ : Type} [LinearOrder κ] (key : α → κ)

def byKey (l : List α) : List α := l.insertionSort fun a b => key a ≤ key b

/-- `l[-n:]` of the sorted list. -/
def latest (n : ℕ) (l : List α) : List α := (byKey key l).drop (l.length - n)

theorem pairwise_byKey (l : List α) : (byKey key l).Pairwise fun a b => key a ≤ key b := by
  have htotal : Std.Total fun a b : α => key a ≤ key b := ⟨fun a b => le_total (key a) (key b)⟩
  have htrans : IsTrans α fun a b => key a ≤ key b := ⟨fun _ _ _ => le_trans⟩
  exact List.pairwise_insertionSort _ l

theorem perm_byKey (l : List α) : (byKey key l).Perm l := List.perm_insertionSort _ l

variable {key}

theorem byKey_perm {l l' : List α} (hn : (l.map key).Nodup) (h : l.Perm l') :
    byKey key l = byKey key l' := by
  have hperm : (byKey key l).Perm (byKey key l') :=
    (perm_byKey key l).trans (h.trans (perm_byKey key l').symm)
  have hanti : ∀ a b, a ∈ byKey key l → b ∈ byKey key l' → key a ≤ key b → key b ≤ key a → a = b := by
    intro a b ha hb hab hba
    exact List.inj_on_of_nodup_map hn ((perm_byKey key l).mem_iff.mp ha)
      (h.mem_iff.mpr ((perm_byKey key l').mem_iff.mp hb)) (le_antisymm hab hba)
  exact hperm.eq_of_pairwise hanti (pairwise_byKey key l) (pairwise_byKey key l')

theorem latest_perm {l l' : List α} (n : ℕ) (hn : (l.map key).Nodup) (h : l.Perm l') :
    latest key n l = latest key n l' := by
  rw [latest, latest, byKey_perm hn h, h.length_eq]

theorem strict_byKey {l : List α} (hn : (l.map key).Nodup) :
    (byKey key l).Pairwise fun a b => key a < key b := by
  have hkeys : ((byKey key l).map key).Nodup := ((perm_byKey key l).map key).nodup_iff.mpr hn
  have hne : (byKey key l).Pairwise fun a b => key a ≠ key b := List.pairwise_map.mp hkeys
  exact ((pairwise_byKey key l).and hne).imp fun h => lt_of_le_of_ne h.1 h.2

/-- The `n` latest of the members of `l`, in order. -/
structure Latest (key : α → κ) (n : ℕ) (l chosen : List α) : Prop where
  members : ∀ a ∈ chosen, a ∈ l
  count : chosen.length = min n l.length
  ordered : chosen.Pairwise fun a b => key a < key b
  later : ∀ a ∈ chosen, ∀ b ∈ l, b ∉ chosen → key b < key a

theorem latest_latest {l : List α} (n : ℕ) (hn : (l.map key).Nodup) :
    Latest key n l (latest key n l) := by
  have hstrict := strict_byKey hn
  have hsplit : (byKey key l).take (l.length - n) ++ latest key n l = byKey key l :=
    List.take_append_drop _ _
  refine ⟨?_, ?_, ?_, ?_⟩
  · intro a ha
    exact (perm_byKey key l).mem_iff.mp (List.mem_of_mem_drop ha)
  · rw [latest, List.length_drop, (perm_byKey key l).length_eq]
    omega
  · exact hstrict.sublist (List.drop_sublist _ _)
  · intro a ha b hb hout
    have hmem := (perm_byKey key l).mem_iff.mpr hb
    rw [← hsplit] at hmem hstrict
    rcases List.mem_append.mp hmem with hfront | hin
    · exact (List.pairwise_append.mp hstrict).2.2 b hfront a ha
    · exact absurd hin hout

end ParallelForge.Base
