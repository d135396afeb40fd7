import ParallelForge.Base.RegexLaw

/-!
# Texts in which a pattern is not found

A pattern that cannot do without some letter finds nothing in a text over an
alphabet that lacks it. For an alphabet given as a list this is computed.
-/

namespace ParallelForge.Base.Regex
variable {α : Type}

/-- Every match reads a letter outside the alphabet. -/
def barred (alphabet : List α) : Regex α → Bool
  | .empty => false
  | .chr p => alphabet.all fun c => !p c
  | .edge _ => false
  | .seq r s => barred alphabet r || barred alphabet s
  | .alt r s => barred alphabet r && barred alphabet s
  | .star _ => false
  | .lazy _ => false

section
variable {alphabet text : List α} (htext : ∀ c ∈ text, c ∈ alphabet)
include htext

theorem ends_barred (r : Regex α) (hr : barred alphabet r = true) (i : ℕ) : ends text r i = [] := by
  induction r generalizing i with
  | empty => cases hr
  | chr p =>
    apply ends_chr_false
    cases hc : text[i]? with
    | none => rfl
    | some c =>
      rw [barred, List.all_eq_true] at hr
      have hp := hr c (htext c (List.mem_of_getElem? hc))
      simpa using hp
  | edge p => cases hr
  | seq r s ihr ihs =>
    rw [barred, Bool.or_eq_true] at hr
    rw [ends]
    rcases hr with hr | hs
    · rw [ihr hr i]
      rfl
    · rw [List.flatMap_eq_nil_iff]
      exact fun k _ => ihs hs k
  | alt r s ihr ihs =>
    rw [barred, Bool.and_eq_true] at hr
    rw [ends, ihr hr.1 i, ihs hr.2 i]
    rfl
  | star r ih => cases hr
  | lazy r ih => cases hr

theorem matchesFrom_barred (r : Regex α) (hr : barred alphabet r = true) (n i : ℕ) :
    matchesFrom text r n i = [] := by
  induction n generalizing i with
  | zero => rfl
  | succ n ih =>
    rw [matchesFrom, matchAt, ends_barred htext r hr i]
    split
    · rfl
    · exact ih (i + 1)

theorem finditer_barred (r : Regex α) (hr : barred alphabet r = true) : finditer text r = [] :=
  matchesFrom_barred htext r hr _ _

end

end ParallelForge.Base.Regex
