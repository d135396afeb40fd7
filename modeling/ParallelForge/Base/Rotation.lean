import Mathlib.Data.List.Sort

/-!
# Pages over a sorted list, from a cursor

A scan that serves a sorted list in pages, each from where the last one ended,
and that goes on at the front when it reaches the end. Whatever the cursor was,
`k` pages of `m` serve the first `k * m` entries of the rotation.
-/

namespace ParallelForge.Base.Rotation
variable {α : Type} [LinearOrder α]

/-- The list from past the cursor to its end, and then from the front up to the cursor. -/
def rotation (l : List α) : Option α → List α
  | none => l
  | some c => l.filter (fun x => c < x) ++ l.filter (fun x => x ≤ c)

def page (m : ℕ) (l : List α) (cursor : Option α) : List α := (rotation l cursor).take m

/-- The cursor after a page. -/
def pageEnd (m : ℕ) (l : List α) (cursor : Option α) : Option α := (page m l cursor).getLast?

def pages (m : ℕ) (l : List α) (cursor : Option α) : ℕ → List (List α)
  | 0 => []
  | k + 1 => page m l cursor :: pages m l (pageEnd m l cursor) k

theorem filter_gt_of_lt (l : List α) (c : α) (h : ∀ x ∈ l, c < x) :
    l.filter (fun x => c < x) = l ∧ l.filter (fun x => x ≤ c) = [] := by
  constructor
  · exact List.filter_eq_self.mpr fun x hx => decide_eq_true (h x hx)
  · exact List.filter_eq_nil_iff.mpr fun x hx => by simpa using h x hx

theorem filter_le_of_le (l : List α) (c : α) (h : ∀ x ∈ l, x ≤ c) :
    l.filter (fun x => c < x) = [] ∧ l.filter (fun x => x ≤ c) = l := by
  constructor
  · exact List.filter_eq_nil_iff.mpr fun x hx => by simpa using h x hx
  · exact List.filter_eq_self.mpr fun x hx => decide_eq_true (h x hx)

/- A sorted list splits at a cursor. -/
theorem filter_split (l : List α) (h : l.Pairwise (· < ·)) (c : α) :
    l = l.filter (fun x => x ≤ c) ++ l.filter (fun x => c < x) := by
  induction l with
  | nil => rfl
  | cons a l ih =>
    obtain ⟨ha, hl⟩ := List.pairwise_cons.mp h
    by_cases hac : a ≤ c
    · have hca : ¬c < a := not_lt.mpr hac
      simp only [List.filter_cons, hac, hca, decide_true, decide_false, if_true, Bool.false_eq_true,
        if_false, List.cons_append, ← ih hl]
    · have hca : c < a := not_le.mp hac
      obtain ⟨hgt, hle⟩ := filter_gt_of_lt l c fun x hx => hca.trans (ha x hx)
      simp only [List.filter_cons, hac, hca, decide_true, decide_false, if_true, Bool.false_eq_true,
        if_false, hgt, hle, List.nil_append]

/- From an entry of the list: what follows it, then the rest up to it. -/
theorem rotation_entry (front back : List α) (p : α)
    (h : (front ++ p :: back).Pairwise (· < ·)) :
    rotation (front ++ p :: back) (some p) = back ++ (front ++ [p]) := by
  obtain ⟨_, hback, hcross⟩ := List.pairwise_append.mp h
  have hfront : ∀ x ∈ front, x ≤ p := fun x hx => (hcross x hx p List.mem_cons_self).le
  have hlater : ∀ x ∈ back, p < x := (List.pairwise_cons.mp hback).1
  obtain ⟨hfgt, hfle⟩ := filter_le_of_le front p hfront
  obtain ⟨hbgt, hble⟩ := filter_gt_of_lt back p hlater
  have hgt : (front ++ p :: back).filter (fun x => p < x) = back := by
    rw [List.filter_append, hfgt, List.filter_cons_of_neg (by simp), hbgt, List.nil_append]
  have hle : (front ++ p :: back).filter (fun x => x ≤ p) = front ++ [p] := by
    rw [List.filter_append, hfle, List.filter_cons_of_pos (by simp), hble]
  show _ ++ _ = _
  rw [hgt, hle]

/- A rotation is the list cut in two and put together the other way. -/
theorem rotation_cut (l : List α) (h : l.Pairwise (· < ·)) (cursor : Option α) :
    ∃ front back, l = front ++ back ∧ rotation l cursor = back ++ front := by
  cases cursor with
  | none => exact ⟨[], l, rfl, (List.append_nil l).symm⟩
  | some c => exact ⟨_, _, filter_split l h c, rfl⟩

theorem rotation_perm (l : List α) (h : l.Pairwise (· < ·)) (cursor : Option α) :
    (rotation l cursor).Perm l := by
  obtain ⟨front, back, hl, hrot⟩ := rotation_cut l h cursor
  rw [hrot]
  exact List.perm_append_comm.trans (hl ▸ List.Perm.refl _)

/- The page that was served goes to the end of the rotation. -/
theorem rotation_append (l : List α) (h : l.Pairwise (· < ·)) (cursor : Option α)
    (served rest : List α) (hne : served ≠ []) (hrot : rotation l cursor = served ++ rest) :
    rotation l served.getLast? = rest ++ served := by
  obtain ⟨front, back, hl, hcut⟩ := rotation_cut l h cursor
  obtain ⟨init, p, hserved⟩ := (List.eq_nil_or_concat served).resolve_left hne
  rw [List.concat_eq_append] at hserved
  have hlast : served.getLast? = some p := by rw [hserved]; exact List.getLast?_concat
  rw [hlast]
  have heq : back ++ front = served ++ rest := hcut.symm.trans hrot
  rcases List.append_eq_append_iff.mp heq with ⟨more, hs, hf⟩ | ⟨more, hb, hr⟩
  · -- the page goes past the end of the list
    rcases List.eq_nil_or_concat more with hnil | ⟨init', p', hmore⟩
    · subst hnil
      rw [List.append_nil] at hs
      have hsplit : l = (front ++ init) ++ p :: [] := by
        rw [hl, ← hs, hserved, List.append_assoc]
      have hf' : front = rest := hf
      rw [hsplit, rotation_entry _ _ p (hsplit ▸ h), hserved, hf', List.nil_append,
        List.append_assoc]
    · rw [List.concat_eq_append] at hmore
      have hp : init = back ++ init' ∧ p = p' := by
        rw [hserved, hmore, ← List.append_assoc] at hs
        have hinj := List.append_inj' hs rfl
        exact ⟨hinj.1, by simpa using hinj.2⟩
      obtain ⟨hinit, rfl⟩ := hp
      have hsplit : l = init' ++ p :: (rest ++ back) := by
        rw [hl, hf, hmore]
        simp
      rw [hsplit, rotation_entry _ _ p (hsplit ▸ h), hserved, hinit]
      simp
  · have hsplit : l = (front ++ init) ++ p :: more := by
      rw [hl, hb, hserved]
      simp
    rw [hsplit, rotation_entry _ _ p (hsplit ▸ h), hserved, hr]
    simp

theorem rotation_pageEnd (m : ℕ) (l : List α) (h : l.Pairwise (· < ·)) (cursor : Option α) :
    rotation l (pageEnd m l cursor) =
      (rotation l cursor).drop m ++ (rotation l cursor).take m ∨ page m l cursor = [] := by
  by_cases hnil : page m l cursor = []
  · exact .inr hnil
  · exact .inl (rotation_append l h cursor _ _ hnil (List.take_append_drop m _).symm)

/- `k` pages serve the first `k * m` entries of the rotation. -/
theorem mem_pages (m : ℕ) (l : List α) (h : l.Pairwise (· < ·)) (k : ℕ) (cursor : Option α) (x : α)
    (hx : x ∈ (rotation l cursor).take (k * m)) : ∃ p ∈ pages m l cursor k, x ∈ p := by
  induction k generalizing cursor with
  | zero =>
    rw [Nat.zero_mul, List.take_zero] at hx
    cases hx
  | succ k ih =>
    have hsplit : (k + 1) * m = m + k * m := by rw [Nat.succ_mul, Nat.add_comm]
    rw [hsplit, List.take_add, List.mem_append] at hx
    rcases hx with hfirst | hlater
    · exact ⟨_, List.mem_cons_self, hfirst⟩
    · rcases rotation_pageEnd m l h cursor with hnext | hnil
      · have hin : x ∈ (rotation l (pageEnd m l cursor)).take (k * m) := by
          rw [hnext, List.take_append, List.mem_append]
          exact .inl hlater
        obtain ⟨p, hp, hxp⟩ := ih _ hin
        exact ⟨p, List.mem_cons_of_mem _ hp, hxp⟩
      · -- an empty page: the pages are empty, or the list is
        have htake := List.take_eq_nil_iff.mp hnil
        rcases htake with hm | hempty
        · rw [hm, Nat.mul_zero, List.take_zero] at hlater
          cases hlater
        · rw [hempty, List.drop_nil, List.take_nil] at hlater
          cases hlater

/-- From any cursor, `k` pages of `m` serve a list of at most `k * m` entries. -/
theorem pages_cover (m : ℕ) (l : List α) (h : l.Pairwise (· < ·)) (k : ℕ) (hk : l.length ≤ k * m)
    (cursor : Option α) (x : α) (hx : x ∈ l) : ∃ p ∈ pages m l cursor k, x ∈ p := by
  have hperm := rotation_perm l h cursor
  refine mem_pages m l h k cursor x ?_
  rw [List.take_of_length_le (by rw [hperm.length_eq]; exact hk)]
  exact hperm.mem_iff.mpr hx

theorem page_spec (m : ℕ) (l : List α) (h : l.Pairwise (· < ·)) (cursor : Option α) :
    (page m l cursor).length ≤ m ∧ (page m l cursor).Nodup ∧ ∀ x ∈ page m l cursor, x ∈ l := by
  have hperm := rotation_perm l h cursor
  have hnodup : (rotation l cursor).Nodup := hperm.nodup_iff.mpr (h.imp ne_of_lt)
  exact ⟨List.length_take_le _ _, hnodup.sublist (List.take_sublist _ _),
    fun x hx => hperm.mem_iff.mp (List.mem_of_mem_take hx)⟩

theorem pages_spec (m : ℕ) (l : List α) (h : l.Pairwise (· < ·)) (k : ℕ) (cursor : Option α) :
    ∀ p ∈ pages m l cursor k, p.length ≤ m ∧ p.Nodup ∧ ∀ x ∈ p, x ∈ l := by
  induction k generalizing cursor with
  | zero => exact fun p hp => absurd hp List.not_mem_nil
  | succ k ih =>
    intro p hp
    rcases List.mem_cons.mp hp with rfl | hp
    · exact page_spec m l h cursor
    · exact ih _ p hp

end ParallelForge.Base.Rotation
