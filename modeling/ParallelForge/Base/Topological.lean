import ParallelForge.Base.Loop
import Mathlib.Data.Fintype.Card
import Mathlib.Data.List.Nodup
import Mathlib.Data.Set.Finite.Basic
import Mathlib.Logic.Relation
import Mathlib.Order.WellFounded

/-!
# Acyclic relations and topological sorting

A relation on a finite list of nodes is acyclic exactly when every nonempty
part of the list has a node that points nowhere inside it. Kahn's algorithm
counts down the unfinished dependencies of each node and visits a node when
none is left; it visits all of them exactly when the dependencies are acyclic,
and it ends in any case.
-/

namespace ParallelForge.Base
open Relation

variable {α : Type}

def Acyclic (r : α → α → Prop) : Prop := ∀ x, ¬ TransGen r x x

theorem Acyclic.mono {r r' : α → α → Prop} (h : Acyclic r) (hr : ∀ x y, r' x y → r x y) :
    Acyclic r' := fun x hx => h x (TransGen.mono hr x x hx)

theorem acyclic_of_rank {r : α → α → Prop} (rank : α → ℕ) (h : ∀ x y, r x y → rank y < rank x) :
    Acyclic r := by
  have hpath : ∀ x y, TransGen r x y → rank y < rank x := by
    intro x y hxy
    induction hxy with
    | single hab => exact h _ _ hab
    | tail _ hbc ih => exact Nat.lt_trans (h _ _ hbc) ih
  intro x hx
  exact Nat.lt_irrefl _ (hpath x x hx)

/-- A nonempty part of the nodes has one that points nowhere inside it. -/
theorem Acyclic.exists_sink {r : α → α → Prop} (h : Acyclic r) (l : List α) (hl : l ≠ []) :
    ∃ x ∈ l, ∀ y ∈ l, ¬ r x y := by
  let below : {x // x ∈ l} → {x // x ∈ l} → Prop := fun y x => TransGen r x.1 y.1
  have htrans : IsTrans _ below := ⟨fun _ _ _ hba hcb => TransGen.trans hcb hba⟩
  have hirrefl : Std.Irrefl below := ⟨fun x hx => h x.1 hx⟩
  have hfinite : Finite {x // x ∈ l} := List.finite_toSet l
  have hwf : WellFounded below := Finite.wellFounded_of_trans_of_irrefl below
  obtain ⟨a, ha⟩ := List.exists_mem_of_ne_nil l hl
  obtain ⟨m, -, hmin⟩ := hwf.has_min Set.univ ⟨⟨a, ha⟩, trivial⟩
  exact ⟨m.1, m.2, fun y hy hxy => hmin ⟨y, hy⟩ trivial (TransGen.single hxy)⟩

/-- Where every node of a part points to one of the part, there is a cycle. -/
theorem not_acyclic_of_successors {r : α → α → Prop} (l : List α) (hl : l ≠ [])
    (h : ∀ x ∈ l, ∃ y ∈ l, r x y) : ¬ Acyclic r := by
  intro hacyclic
  obtain ⟨x, hx, hsink⟩ := hacyclic.exists_sink l hl
  obtain ⟨y, hy, hxy⟩ := h x hx
  exact hsink y hy hxy

/- On a path with one way forward, what a cycle reaches leads back to it. -/
theorem transGen_back {r : α → α → Prop} (hr : ∀ x y z, r x y → r x z → y = z) {x y : α}
    (hx : TransGen r x x) (hxy : ReflTransGen r x y) : TransGen r y x := by
  induction hxy with
  | refl => exact hx
  | tail _ hstep ih =>
    obtain ⟨z, hfirst, hrest⟩ := TransGen.head'_iff.mp ih
    rw [hr _ _ _ hfirst hstep] at hrest
    exact TransGen.trans_right hrest hx

namespace Kahn
variable [DecidableEq α]

structure State (α : Type) where
  zeroDegree : List α
  inDegree : α → ℤ
  visitedCount : ℕ

def lower (s : State α) (successor : α) : State α :=
  let degree := s.inDegree successor - 1
  { s with
    inDegree := Function.update s.inDegree successor degree
    zeroDegree := if degree = 0 then s.zeroDegree ++ [successor] else s.zeroDegree }

/-- The last node of the stack is visited. -/
def visit (graph : α → List α) (s : State α) : State α :=
  match s.zeroDegree.getLast? with
  | none => s
  | some curr =>
    (graph curr).foldl lower { s with
      zeroDegree := s.zeroDegree.dropLast
      visitedCount := s.visitedCount + 1 }

def sort (graph : α → List α) (s : State α) : Prog (State α) :=
  Prog.whileLoop (fun s => !s.zeroDegree.isEmpty) (fun s => pure (visit graph s)) s

/-- What the inner loop does, as long as no degree falls below zero. -/
theorem lower_foldl (l : List α) (s : State α) (h : ∀ v ∈ l, (l.count v : ℤ) ≤ s.inDegree v) :
    (∀ v, (l.foldl lower s).inDegree v = s.inDegree v - l.count v) ∧
    (∀ v, v ∈ (l.foldl lower s).zeroDegree ↔
      v ∈ s.zeroDegree ∨ (v ∈ l ∧ s.inDegree v = l.count v)) ∧
    (l.foldl lower s).visitedCount = s.visitedCount ∧
    (s.zeroDegree.Nodup → (∀ v ∈ l, v ∉ s.zeroDegree) → (l.foldl lower s).zeroDegree.Nodup) := by
  induction l generalizing s with
  | nil => simp
  | cons a l ih =>
    have hdeg : ∀ v, (lower s a).inDegree v = s.inDegree v - if v = a then 1 else 0 := by
      intro v
      simp only [lower, Function.update_apply]
      split
      · next heq => rw [heq]
      · omega
    have hcount : ∀ v, ((a :: l).count v : ℤ) = l.count v + if v = a then 1 else 0 := by
      intro v
      rw [List.count_cons]
      by_cases hva : v = a
      · simp [hva]
      · simp [hva, Ne.symm hva]
    have hzero : ∀ v, v ∈ (lower s a).zeroDegree ↔
        v ∈ s.zeroDegree ∨ (v = a ∧ s.inDegree a = 1) := by
      intro v
      simp only [lower]
      by_cases hone : s.inDegree a = 1
      · simp [hone]
      · have hne : s.inDegree a - 1 ≠ 0 := by omega
        simp [hone, hne]
    have hfirst : (1 : ℤ) ≤ s.inDegree a - l.count a + 1 := by
      have := h a List.mem_cons_self
      rw [hcount, if_pos rfl] at this
      omega
    obtain ⟨hd, hz, hvisited, hn⟩ := ih (lower s a) (by
      intro v hv
      have := h v (List.mem_cons_of_mem _ hv)
      rw [hcount] at this
      rw [hdeg]
      omega)
    rw [List.foldl_cons]
    refine ⟨?_, ?_, hvisited, ?_⟩
    · intro v
      rw [hd, hdeg, hcount]
      omega
    · intro v
      rw [hz, hzero, hdeg, List.mem_cons]
      by_cases hva : v = a
      · subst hva
        have hc := hcount v
        rw [if_pos rfl] at hc
        have hle := h v List.mem_cons_self
        by_cases hmem : v ∈ l
        · have hpos : 0 < l.count v := List.count_pos_iff.mpr hmem
          simp only [hmem, true_and, true_or, if_true]
          have hnot : s.inDegree v ≠ 1 := by omega
          simp only [hnot, or_false]
          exact or_congr_right (by omega)
        · have hnone : l.count v = 0 := List.count_eq_zero_of_not_mem hmem
          simp only [hmem, false_and, or_false, true_and]
          rw [hc, hnone]
          simp
      · have hsame : s.inDegree v - 0 = l.count v ↔ s.inDegree v = (l.count v : ℤ) + 0 := by omega
        simp only [hva, false_and, or_false, false_or, if_false, hcount, hsame]
    · intro hnd hdisj
      apply hn
      · simp only [lower]
        split
        · rw [List.nodup_append]
          refine ⟨hnd, List.nodup_singleton a, ?_⟩
          intro x hx y hy hxy
          rw [List.mem_singleton.mp hy] at hxy
          exact hdisj a List.mem_cons_self (hxy ▸ hx)
        · exact hnd
      · intro v hv hmem
        rcases (hzero v).mp hmem with hold | ⟨rfl, hone⟩
        · exact hdisj v (List.mem_cons_of_mem _ hv) hold
        · -- the last unit of `v` is gone, so the rest of the list does not name it
          have hpos : 0 < l.count v := List.count_pos_iff.mpr hv
          have hle := h v List.mem_cons_self
          rw [hcount, if_pos rfl] at hle
          omega

theorem countP_visit (l done : List α) (c : α) (hc : c ∉ done) :
    l.countP (fun d => decide (d ∉ done)) =
      l.countP (fun d => decide (d ∉ done ++ [c])) + l.count c := by
  induction l with
  | nil => rfl
  | cons d l ih =>
    rw [List.countP_cons, List.countP_cons, List.count_cons, ih]
    by_cases hd : d = c
    · subst hd
      simp [hc]
      omega
    · by_cases hdone : d ∈ done
      · simp [hd, hdone]
      · simp [hd, hdone]
        omega

variable (nodes : List α) (deps : α → List α) (graph : α → List α)

/-- `done` are the nodes visited so far, in order; the others count their dependencies
outside of it. -/
structure Inv (done : List α) (s : State α) : Prop where
  nodup : done.Nodup
  subset : ∀ v ∈ done, v ∈ nodes
  visited : s.visitedCount = done.length
  degree : ∀ v ∈ nodes, s.inDegree v = ((deps v).countP (fun d => decide (d ∉ done)) : ℕ)
  zeroNodup : s.zeroDegree.Nodup
  zero : ∀ v, v ∈ s.zeroDegree ↔ v ∈ nodes ∧ v ∉ done ∧ s.inDegree v = 0
  ordered : ∀ l v m, done = l ++ v :: m → ∀ d ∈ deps v, d ∈ l

variable (hgraph : ∀ d v, v ∈ nodes → (graph d).count v = (deps v).count d)
  (hmem : ∀ d, ∀ v ∈ graph d, v ∈ nodes)
include hgraph hmem

theorem inv_visit (done : List α) (s : State α) (h : Inv nodes deps done s)
    (hne : s.zeroDegree ≠ []) : ∃ c, Inv nodes deps (done ++ [c]) (visit graph s) := by
  obtain ⟨rest, c, hzero⟩ := List.eq_nil_or_concat s.zeroDegree |>.resolve_left hne
  refine ⟨c, ?_⟩
  have hvisit : visit graph s = (graph c).foldl lower
      { s with zeroDegree := rest, visitedCount := s.visitedCount + 1 } := by
    simp only [visit, hzero, List.concat_eq_append, List.getLast?_append, List.getLast?_singleton,
      List.dropLast_concat]
    rfl
  have hnodup : (rest ++ [c]).Nodup := by
    have := h.zeroNodup
    rwa [hzero, List.concat_eq_append] at this
  have hcmem : c ∈ s.zeroDegree := by rw [hzero]; simp
  obtain ⟨hcnode, hcdone, hczero⟩ := (h.zero c).mp hcmem
  have hcrest : c ∉ rest := by
    intro hr
    exact (List.nodup_append.mp hnodup).2.2 c hr c (List.mem_singleton_self c) rfl
  have hrest : ∀ v, v ∈ rest ↔ v ∈ s.zeroDegree ∧ v ≠ c := by
    intro v
    rw [hzero, List.concat_eq_append, List.mem_append, List.mem_singleton]
    constructor
    · intro hv
      exact ⟨Or.inl hv, fun he => hcrest (he ▸ hv)⟩
    · rintro ⟨hv | hv, hne'⟩
      · exact hv
      · exact absurd hv hne'
  -- every edge from `c` counts a dependency of its target that is not visited yet
  have hdegree : ∀ v ∈ nodes, s.inDegree v =
      ((deps v).countP (fun d => decide (d ∉ done ++ [c])) : ℕ) + ((graph c).count v : ℤ) := by
    intro v hv
    rw [h.degree v hv, countP_visit (deps v) done c hcdone,
      hgraph c v hv]
    omega
  have hfits : ∀ v ∈ graph c, ((graph c).count v : ℤ) ≤ s.inDegree v := by
    intro v hv
    rw [hdegree v (hmem c v hv)]
    omega
  obtain ⟨hd, hz, hvisited, hn⟩ := lower_foldl (graph c)
    { s with zeroDegree := rest, visitedCount := s.visitedCount + 1 } hfits
  rw [hvisit]
  constructor
  case nodup =>
    rw [List.nodup_append]
    refine ⟨h.nodup, List.nodup_singleton c, ?_⟩
    intro x hx y hy hxy
    rw [List.mem_singleton.mp hy] at hxy
    exact hcdone (hxy ▸ hx)
  case subset =>
    intro v hv'
    rcases List.mem_append.mp hv' with hold | hnew
    · exact h.subset v hold
    · rw [List.mem_singleton.mp hnew]
      exact hcnode
  case visited =>
    rw [hvisited, List.length_append, List.length_singleton, h.visited]
  case degree =>
    intro v hv'
    rw [hd]
    show s.inDegree v - _ = _
    rw [hdegree v hv']
    omega
  case zeroNodup =>
    apply hn (List.nodup_append.mp hnodup).1
    intro v hv' hr
    have hzero' := ((h.zero v).mp ((hrest v).mp hr).1).2.2
    have hpos : 0 < (graph c).count v := List.count_pos_iff.mpr hv'
    have hle := hfits v hv'
    omega
  case zero =>
    intro v
    rw [hz, hd]
    show v ∈ rest ∨ (v ∈ graph c ∧ s.inDegree v = _) ↔ v ∈ nodes ∧ _ ∧ s.inDegree v - _ = 0
    rw [hrest, h.zero, List.mem_append, List.mem_singleton, not_or]
    constructor
    · rintro (⟨⟨hvn, hvd, hv0⟩, hvc⟩ | ⟨hvg, hveq⟩)
      · have hnone : (graph c).count v = 0 := by
          have := hdegree v hvn
          omega
        exact ⟨hvn, ⟨hvd, hvc⟩, by omega⟩
      · have hvn := hmem c v hvg
        have hpos : 0 < (graph c).count v := List.count_pos_iff.mpr hvg
        refine ⟨hvn, ⟨?_, ?_⟩, by omega⟩
        · -- a visited node has no dependency left
          intro hvd
          obtain ⟨l, m, hlm⟩ := List.append_of_mem hvd
          have hdep : c ∈ deps v := by
            rw [← List.count_pos_iff, ← hgraph c v hvn]
            exact hpos
          have hcl := h.ordered l v m hlm c hdep
          exact hcdone (by rw [hlm]; exact List.mem_append_left _ hcl)
        · intro hvc
          rw [hvc] at hpos hveq
          omega
    · rintro ⟨hvn, ⟨hvd, hvc⟩, hv0⟩
      by_cases hg : v ∈ graph c
      · exact Or.inr ⟨hg, by omega⟩
      · have hnone : (graph c).count v = 0 := List.count_eq_zero_of_not_mem hg
        exact Or.inl ⟨⟨hvn, hvd, by omega⟩, hvc⟩
  case ordered =>
    intro l v m hlm d hdep
    -- `c` was on the stack: all its dependencies are visited
    have hready : ∀ d ∈ deps c, d ∈ done := by
      have hcount := h.degree c hcnode
      rw [hczero] at hcount
      have hall : (deps c).countP (fun d => decide (d ∉ done)) = 0 := by omega
      rw [List.countP_eq_zero] at hall
      intro d hd
      simpa using hall d hd
    rcases List.append_eq_append_iff.mp hlm with ⟨as, hl, hrest'⟩ | ⟨bs, hdone, hrest'⟩
    · cases as with
      | nil =>
        simp only [List.append_nil, List.nil_append, List.cons.injEq] at hl hrest'
        rw [hl]
        rw [← hrest'.1] at hdep
        exact hready d hdep
      | cons a as => simp at hrest'
    · cases bs with
      | nil =>
        simp only [List.append_nil, List.nil_append, List.cons.injEq] at hdone hrest'
        rw [← hdone]
        rw [hrest'.1] at hdep
        exact hready d hdep
      | cons b bs =>
        rw [List.cons_append, List.cons.injEq] at hrest'
        rw [← hrest'.1] at hdone
        exact h.ordered l v bs hdone d hdep

omit hgraph hmem in
/- Nodes that stand after all they point to are not on a cycle. -/
theorem acyclic_of_ordered (done : List α) (hall : ∀ v ∈ nodes, v ∈ done)
    (hordered : ∀ l v m, done = l ++ v :: m → ∀ d ∈ deps v, d ∈ l) (hnodup : done.Nodup) :
    Acyclic fun v d => v ∈ nodes ∧ d ∈ deps v := by
  apply acyclic_of_rank fun v => done.idxOf v
  rintro v d ⟨hv, hd⟩
  obtain ⟨l, m, hlm⟩ := List.append_of_mem (hall v hv)
  have hdl := hordered l v m hlm d hd
  have hvl : v ∉ l := by
    intro hvl
    rw [hlm] at hnodup
    exact (List.nodup_append.mp hnodup).2.2 v hvl v List.mem_cons_self rfl
  rw [hlm, List.idxOf_append_of_mem hdl, List.idxOf_append_of_notMem hvl]
  have := List.idxOf_lt_length_of_mem hdl
  omega

/-- Kahn's algorithm ends, and visits every node exactly if no dependency is on a cycle. -/
theorem returns_sort (hnodes : nodes.Nodup) (hdeps : ∀ v ∈ nodes, ∀ d ∈ deps v, d ∈ nodes)
    (s : State α) (h : Inv nodes deps [] s) :
    ∃ t, Prog.Returns (sort graph s) t ∧
      (t.visitedCount = nodes.length ↔ Acyclic fun v d => v ∈ nodes ∧ d ∈ deps v) := by
  have hturn : ∀ s, (∃ done, Inv nodes deps done s) → (!s.zeroDegree.isEmpty) = true →
      ∃ s', Prog.Returns (pure (visit graph s)) s' ∧ (∃ done, Inv nodes deps done s') ∧
        nodes.length - s'.visitedCount < nodes.length - s.visitedCount := by
    rintro s ⟨done, hs⟩ hcond
    have hne : s.zeroDegree ≠ [] := by
      rintro hz
      rw [hz] at hcond
      cases hcond
    obtain ⟨c, hnext⟩ := inv_visit nodes deps graph hgraph hmem done s hs hne
    refine ⟨visit graph s, Prog.returns_pure _, ⟨_, hnext⟩, ?_⟩
    have hle : (done ++ [c]).length ≤ nodes.length :=
      (List.subperm_of_subset hnext.nodup fun v hv => hnext.subset v hv).length_le
    rw [hnext.visited, hs.visited]
    rw [List.length_append, List.length_singleton] at hle ⊢
    omega
  obtain ⟨t, hrun, ⟨done, ht⟩, hend⟩ :=
    Prog.returns_while _ _ _ (fun s : State α => nodes.length - s.visitedCount) hturn s ⟨[], h⟩
  refine ⟨t, hrun, ?_⟩
  have hempty : t.zeroDegree = [] := by simpa using hend
  have hsub := List.subperm_of_subset ht.nodup fun v hv => ht.subset v hv
  rw [ht.visited]
  constructor
  · intro hlen
    have hperm := hsub.perm_of_length_le (by omega)
    exact acyclic_of_ordered nodes deps done (fun v hv => hperm.mem_iff.mpr hv) ht.ordered ht.nodup
  · intro hacyclic
    by_contra hlen
    -- the nodes left over each wait for another of them
    have hleft : nodes.filter (fun v => decide (v ∉ done)) ≠ [] := by
      intro hnil
      rw [List.filter_eq_nil_iff] at hnil
      have hall : ∀ v ∈ nodes, v ∈ done := fun v hv => by simpa using hnil v hv
      have hge := (List.subperm_of_subset hnodes hall).length_le
      have hle := hsub.length_le
      omega
    refine not_acyclic_of_successors _ hleft ?_ hacyclic
    intro v hv
    simp only [List.mem_filter, decide_eq_true_eq] at hv
    obtain ⟨hvn, hvd⟩ := hv
    have hpos : t.inDegree v ≠ 0 := by
      intro hz
      have hin := (ht.zero v).mpr ⟨hvn, hvd, hz⟩
      rw [hempty] at hin
      cases hin
    rw [ht.degree v hvn] at hpos
    have hex : 0 < (deps v).countP fun d => decide (d ∉ done) := by omega
    obtain ⟨d, hd, hdd⟩ := List.countP_pos_iff.mp hex
    refine ⟨d, ?_, hvn, hd⟩
    simp only [List.mem_filter, decide_eq_true_eq]
    exact ⟨hdeps v hvn d hd, by simpa using hdd⟩

end Kahn

end ParallelForge.Base
