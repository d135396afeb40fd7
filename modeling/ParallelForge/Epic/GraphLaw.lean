import ParallelForge.Epic.Items
import Mathlib.Algebra.GroupWithZero.Nat

/-!
# What `validate_graph` accepts

The dictionary of the items has each of them once exactly if no id repeats.
Kahn's algorithm finds the cycles; the walk from a required item ends with all
it depends on, or at the first deferred item among them.
-/

namespace ParallelForge.Epic
open Base Relation

def ids (items : List ItemInput) : List UUID := items.map ItemInput.itemId

def DependsOn (items : List ItemInput) (v d : UUID) : Prop :=
  ∃ item ∈ items, item.itemId = v ∧ d ∈ item.dependencyItemIds

structure ValidGraph (items : List ItemInput) : Prop where
  few : items.length ≤ 128
  unique : (ids items).Nodup
  edges : ∀ item ∈ items, item.itemId ∉ item.dependencyItemIds ∧
    ∀ dep ∈ item.dependencyItemIds, dep ∈ ids items
  acyclic : Acyclic (DependsOn items)

structure Adoptable (items : List ItemInput) : Prop where
  nonempty : items ≠ []
  required : ∀ item ∈ items, item.disposition = .required → ∀ target ∈ items,
    TransGen (DependsOn items) item.itemId target.itemId → target.disposition ≠ .deferred

/-! ## The dictionary -/

theorem ids_append (items : List ItemInput) (x : ItemInput) :
    ids (items ++ [x]) = ids items ++ [x.itemId] := List.map_append

theorem indexOf_append (items : List ItemInput) (x : ItemInput) :
    indexOf (items ++ [x]) = (indexOf items).put x.itemId x := by
  unfold indexOf
  rw [List.foldl_append]
  rfl

theorem indexOf_isSome (items : List ItemInput) (v : UUID) :
    ((indexOf items).get v).isSome = true ↔ v ∈ ids items := by
  induction items using List.reverseRecOn with
  | nil => exact ⟨fun h => absurd h Bool.false_ne_true, nofun⟩
  | append_singleton items x ih =>
    rw [indexOf_append, ids_append, List.mem_append, List.mem_singleton, ← ih]
    by_cases hv : v = x.itemId
    · simp [hv]
    · simp [Table.get_put_ne _ _ hv, hv]

theorem indexOf_none (items : List ItemInput) (v : UUID) (h : v ∉ ids items) :
    (indexOf items).get v = none := by
  cases hget : (indexOf items).get v with
  | none => rfl
  | some item =>
    have hsome : ((indexOf items).get v).isSome = true := by rw [hget]; rfl
    exact absurd ((indexOf_isSome items v).mp hsome) h

/- The dictionary is as long as the list exactly if no id repeats. -/
theorem indexOf_length (items : List ItemInput) :
    (indexOf items).rows.length ≤ items.length ∧
      ((indexOf items).rows.length = items.length ↔ (ids items).Nodup) := by
  induction items using List.reverseRecOn with
  | nil => exact ⟨le_rfl, fun _ => List.nodup_nil, fun _ => rfl⟩
  | append_singleton items x ih =>
    obtain ⟨hle, hiff⟩ := ih
    rw [indexOf_append, ids_append, List.nodup_append, List.length_append, List.length_singleton]
    by_cases hx : x.itemId ∈ ids items
    · obtain ⟨b, hb⟩ := Option.isSome_iff_exists.mp ((indexOf_isSome items x.itemId).mpr hx)
      rw [Table.rows_put_present _ _ _ _ hb, List.length_map]
      refine ⟨by omega, fun h => by omega, fun h => ?_⟩
      exact absurd rfl (h.2.2 x.itemId hx x.itemId List.mem_cons_self)
    · rw [Table.rows_put_absent _ _ _ (indexOf_none items x.itemId hx), List.length_append,
        List.length_singleton]
      refine ⟨by omega, fun h => ?_, fun h => ?_⟩
      · refine ⟨hiff.mp (by omega), List.nodup_singleton _, ?_⟩
        intro a ha b hb hab
        rw [List.mem_singleton.mp hb] at hab
        exact hx (hab ▸ ha)
      · have hlen := hiff.mpr h.1
        omega

section unique
variable (items : List ItemInput) (hu : (ids items).Nodup)
include hu

theorem indexOf_keys : (indexOf items).rows.map Prod.fst = ids items := by
  induction items using List.reverseRecOn with
  | nil => rfl
  | append_singleton items x ih =>
    rw [ids_append] at hu ⊢
    obtain ⟨hold, -, hdisjoint⟩ := List.nodup_append.mp hu
    have hx : x.itemId ∉ ids items :=
      fun h => hdisjoint x.itemId h x.itemId List.mem_cons_self rfl
    rw [indexOf_append, Table.rows_put_absent _ _ _ (indexOf_none items x.itemId hx),
      List.map_append, ih hold]
    rfl

theorem indexOf_get (v : UUID) (item : ItemInput) :
    (indexOf items).get v = some item ↔ item ∈ items ∧ item.itemId = v := by
  induction items using List.reverseRecOn with
  | nil => exact ⟨nofun, fun h => absurd h.1 List.not_mem_nil⟩
  | append_singleton items x ih =>
    rw [ids_append] at hu
    obtain ⟨hold, -, hdisjoint⟩ := List.nodup_append.mp hu
    have hx : x.itemId ∉ ids items :=
      fun h => hdisjoint x.itemId h x.itemId List.mem_cons_self rfl
    rw [indexOf_append, List.mem_append, List.mem_singleton]
    by_cases hv : v = x.itemId
    · subst hv
      rw [Table.get_put_self]
      constructor
      · intro heq
        cases heq
        exact ⟨.inr rfl, rfl⟩
      · intro ⟨hmem, hid⟩
        rcases hmem with hmem | rfl
        · exact absurd (hid ▸ List.mem_map_of_mem hmem) hx
        · rfl
    · rw [Table.get_put_ne _ _ hv, ih hold]
      constructor
      · intro ⟨hmem, hid⟩
        exact ⟨.inl hmem, hid⟩
      · intro ⟨hmem, hid⟩
        rcases hmem with hmem | rfl
        · exact ⟨hmem, hid⟩
        · exact absurd hid.symm hv

end unique

/-! ## Cycles -/

def depsOf (items : List ItemInput) (v : UUID) : List UUID :=
  ((indexOf items).get v).elim [] ItemInput.dependencyItemIds

theorem mem_depsOf (items : List ItemInput) (hu : (ids items).Nodup) (v d : UUID) :
    d ∈ depsOf items v ↔ DependsOn items v d := by
  unfold depsOf
  cases hget : (indexOf items).get v with
  | none =>
    refine ⟨nofun, fun ⟨item, hitem, hid, _⟩ => ?_⟩
    have hsome := (indexOf_get items hu v item).mpr ⟨hitem, hid⟩
    rw [hget] at hsome
    cases hsome
  | some item =>
    have hitem := (indexOf_get items hu v item).mp hget
    refine ⟨fun hd => ⟨item, hitem.1, hitem.2, hd⟩, fun ⟨other, hother, hid, hd⟩ => ?_⟩
    have hsome := (indexOf_get items hu v other).mpr ⟨hother, hid⟩
    rw [hget] at hsome
    cases hsome
    exact hd

/- What the inner loop adds to the dependents of a node. -/
theorem count_dependents (node : UUID) (deps : List UUID) (dependents : UUID → List UUID)
    (d v : UUID) :
    (deps.foldl (fun dependents dep =>
      Function.update dependents dep (dependents dep ++ [node])) dependents d).count v =
        (dependents d).count v + if node = v then deps.count d else 0 := by
  induction deps generalizing dependents with
  | nil => simp
  | cons a deps ih =>
    rw [List.foldl_cons, ih, Function.update_apply, List.count_cons]
    by_cases had : d = a
    · subst had
      rw [if_pos rfl, List.count_append, List.count_singleton]
      by_cases hv : node = v
      · simp [hv]
        omega
      · simp [hv]
    · have hne : ¬ a = d := fun h => had h.symm
      simp [had, hne]

theorem dependentsOf_count (items : List ItemInput) (hu : (ids items).Nodup) (d v : UUID) :
    (dependentsOf items d).count v = (depsOf items v).count d := by
  induction items using List.reverseRecOn with
  | nil => rfl
  | append_singleton items x ih =>
    rw [ids_append] at hu
    obtain ⟨hold, -, hdisjoint⟩ := List.nodup_append.mp hu
    have hx : x.itemId ∉ ids items :=
      fun h => hdisjoint x.itemId h x.itemId List.mem_cons_self rfl
    have hfold : dependentsOf (items ++ [x]) = x.dependencyItemIds.foldl (fun dependents dep =>
        Function.update dependents dep (dependents dep ++ [x.itemId])) (dependentsOf items) := by
      unfold dependentsOf
      rw [List.foldl_append]
      rfl
    have hdeps : depsOf (items ++ [x]) v =
        if x.itemId = v then x.dependencyItemIds else depsOf items v := by
      unfold depsOf
      rw [indexOf_append]
      by_cases hv : x.itemId = v
      · rw [if_pos hv, ← hv, Table.get_put_self]
        rfl
      · rw [if_neg hv, Table.get_put_ne _ _ fun h => hv h.symm]
    rw [hfold, count_dependents, ih hold, hdeps]
    by_cases hv : x.itemId = v
    · subst hv
      have hnone : depsOf items x.itemId = [] := by
        unfold depsOf
        rw [indexOf_none items x.itemId hx]
        rfl
      rw [hnone, if_pos rfl, if_pos rfl]
      simp
    · rw [if_neg hv, if_neg hv, Nat.add_zero]

section checked
variable {items : List ItemInput} (hu : (ids items).Nodup)
  (hedges : ∀ item ∈ items, ∀ dep ∈ item.dependencyItemIds, dep ∈ ids items)
include hu hedges

theorem depsOf_closed (v : UUID) (d : UUID) (hd : d ∈ depsOf items v) : d ∈ ids items := by
  obtain ⟨item, hitem, -, hdep⟩ := (mem_depsOf items hu v d).mp hd
  exact hedges item hitem d hdep

/-- The sort ends, and raises exactly if there is a cycle. -/
theorem returns_checkAcyclic : ∃ r, Prog.Returns (checkAcyclic items) r ∧
    (r = .ok () ↔ Acyclic (DependsOn items)) := by
  have hkeys := indexOf_keys items hu
  have hmem : ∀ d, ∀ v ∈ dependentsOf items d, v ∈ ids items := by
    intro d v hv
    rw [← List.count_pos_iff, dependentsOf_count items hu, List.count_pos_iff] at hv
    obtain ⟨item, hitem, hid, -⟩ := (mem_depsOf items hu v d).mp hv
    exact List.mem_map.mpr ⟨item, hitem, hid⟩
  have hdegree : ∀ v, remainingOf (indexOf items) v = ((depsOf items v).length : ℤ) := by
    intro v
    unfold remainingOf depsOf
    cases (indexOf items).get v with
    | none => rfl
    | some item => rfl
  have hstart : Kahn.Inv (ids items) (depsOf items) []
      ⟨(ids items).filter fun node => remainingOf (indexOf items) node = 0,
        remainingOf (indexOf items), 0⟩ := by
    constructor
    case nodup => exact List.nodup_nil
    case subset => exact nofun
    case visited => rfl
    case degree =>
      intro v _
      show remainingOf (indexOf items) v = _
      rw [hdegree v]
      simp
    case zeroNodup => exact hu.filter _
    case zero =>
      intro v
      simp
    case ordered =>
      intro l v m h
      simp at h
  obtain ⟨final, hrun, hcount⟩ := Kahn.returns_sort (ids items) (depsOf items) (dependentsOf items)
    (fun d v _ => dependentsOf_count items hu d v) hmem hu (fun v _ d => depsOf_closed hu hedges v d)
    _ hstart
  have hlen : (ids items).length = items.length := List.length_map _
  unfold checkAcyclic
  simp only [hkeys]
  refine ⟨_, Prog.returns_bind hrun (Prog.returns_pure _), ?_⟩
  rw [require_eq_ok, ← hlen, hcount]
  constructor
  · intro h
    refine h.mono fun v d hvd => ?_
    obtain ⟨item, hitem, hid, hdep⟩ := hvd
    exact ⟨List.mem_map.mpr ⟨item, hitem, hid⟩,
      (mem_depsOf items hu v d).mpr ⟨item, hitem, hid, hdep⟩⟩
  · intro h
    exact h.mono fun v d hvd => (mem_depsOf items hu v d).mp hvd.2

/-! ## Deferred dependencies -/

omit hu hedges in
/- What a node not seen before takes out of the sum over the rest. -/
theorem sum_unseen (l seen : List UUID) (f : UUID → ℕ) (a : UUID) (hl : l.Nodup) (ha : a ∈ l)
    (hs : a ∉ seen) :
    ((l.filter fun v => v ∉ seen).map f).sum =
      f a + ((l.filter fun v => v ∉ a :: seen).map f).sum := by
  induction l with
  | nil => cases ha
  | cons b l ih =>
    obtain ⟨hb, hl⟩ := List.nodup_cons.mp hl
    by_cases heq : b = a
    · subst heq
      have hrest : (l.filter fun v => v ∉ b :: seen) = l.filter fun v => v ∉ seen := by
        apply List.filter_congr
        intro v hv
        have hne : v ≠ b := fun h => hb (h ▸ hv)
        simp [hne]
      rw [List.filter_cons_of_pos (by simpa using hs), List.filter_cons_of_neg (by simp), hrest,
        List.map_cons, List.sum_cons]
    · have hin : a ∈ l := (List.mem_cons.mp ha).resolve_left fun h => heq h.symm
      have hrest := ih hl hin
      by_cases hbs : b ∈ seen
      · rw [List.filter_cons_of_neg (by simpa using hbs),
          List.filter_cons_of_neg (by simp [hbs]), hrest]
      · rw [List.filter_cons_of_pos (by simpa using hbs),
          List.filter_cons_of_pos (by simp [hbs, heq]), List.map_cons, List.sum_cons, List.map_cons,
          List.sum_cons, hrest]
        omega

omit hu hedges in
/-- The walk from `start`: what it has seen is reached and not deferred, and leads on only to what
it has seen or will. -/
structure Visits (items : List ItemInput) (start : ItemInput) (w : Walk) : Prop where
  nodup : w.seen.Nodup
  known : ∀ s ∈ w.seen, s ∈ ids items
  reached : ∀ s, s ∈ w.seen ∨ s ∈ w.pending → TransGen (DependsOn items) start.itemId s
  clear : ∀ s ∈ w.seen, ∀ t ∈ items, t.itemId = s → t.disposition ≠ .deferred
  first : ∀ d ∈ start.dependencyItemIds, d ∈ w.seen ∨ d ∈ w.pending
  closed : ∀ s ∈ w.seen, ∀ d, DependsOn items s d → d ∈ w.seen ∨ d ∈ w.pending
  failed : ∀ e, w.failed = some e → ∃ t ∈ items,
    TransGen (DependsOn items) start.itemId t.itemId ∧ t.disposition = .deferred

/-- What is left to do: the stack, and the dependencies of what is not seen. -/
def Walk.left (items : List ItemInput) (w : Walk) : ℕ :=
  if w.failed.isSome then 0 else
    1 + w.pending.length +
      (((ids items).filter fun v => v ∉ w.seen).map fun v => (depsOf items v).length).sum

theorem visits_turn (start : ItemInput) (w : Walk) (hw : Visits items start w)
    (hwalking : w.walking = true) :
    Visits items start (walkTurn (indexOf items) w) ∧
      (walkTurn (indexOf items) w).left items < w.left items := by
  obtain ⟨hok, hpending⟩ : w.failed = none ∧ w.pending ≠ [] := by
    simpa [Walk.walking] using hwalking
  obtain ⟨rest, dep, hsplit⟩ := List.eq_nil_or_concat w.pending |>.resolve_left hpending
  rw [List.concat_eq_append] at hsplit
  have hlast : w.pending.getLast? = some dep := by rw [hsplit]; exact List.getLast?_concat
  have hdrop : w.pending.dropLast = rest := by rw [hsplit]; exact List.dropLast_concat
  have hreached : TransGen (DependsOn items) start.itemId dep :=
    hw.reached dep (.inr (by rw [hsplit]; exact List.mem_append_right _ List.mem_cons_self))
  have hmem : ∀ d, d ∈ w.pending → d ∈ rest ∨ d = dep := by
    intro d hd
    rw [hsplit, List.mem_append, List.mem_singleton] at hd
    exact hd
  have hrest : ∀ d, d ∈ rest → d ∈ w.pending := by
    intro d hd
    rw [hsplit]
    exact List.mem_append_left _ hd
  have hlen : w.pending.length = rest.length + 1 := by rw [hsplit, List.length_append]; rfl
  by_cases hseen : dep ∈ w.seen
  · have hturn : walkTurn (indexOf items) w = { w with pending := rest } := by
      simp only [walkTurn, hlast, if_pos hseen, hdrop]
    have hkept : ∀ d, d ∈ w.seen ∨ d ∈ w.pending → d ∈ w.seen ∨ d ∈ rest := by
      intro d hd
      rcases hd with hd | hd
      · exact .inl hd
      · rcases hmem d hd with hd | rfl
        · exact .inr hd
        · exact .inl hseen
    rw [hturn]
    refine ⟨⟨hw.nodup, hw.known, fun s hs => hw.reached s (hs.imp_right (hrest s)), hw.clear,
      fun d hd => hkept d (hw.first d hd), fun s hs d hd => hkept d (hw.closed s hs d hd),
      hw.failed⟩, ?_⟩
    simp only [Walk.left, hok, Option.isSome_none, Bool.false_eq_true, if_false]
    omega
  · obtain ⟨target, htarget, hid⟩ : ∃ target ∈ items, target.itemId = dep := by
      obtain ⟨v, -, hstep⟩ := TransGen.tail'_iff.mp hreached
      obtain ⟨item, hitem, -, hdep⟩ := hstep
      exact List.mem_map.mp (hedges item hitem dep hdep)
    have hget := (indexOf_get items hu dep target).mpr ⟨htarget, hid⟩
    by_cases hdeferred : target.disposition = .deferred
    · have hturn : walkTurn (indexOf items) w =
          { w with failed := some ⟨"required item depends on deferred item"⟩ } := by
        simp only [walkTurn, hlast, if_neg hseen, hget, if_pos hdeferred]
      rw [hturn]
      refine ⟨⟨hw.nodup, hw.known, hw.reached, hw.clear, hw.first, hw.closed, fun e _ => ?_⟩, ?_⟩
      · exact ⟨target, htarget, hid ▸ hreached, hdeferred⟩
      · simp only [Walk.left, hok, Option.isSome_some, Option.isSome_none, Bool.false_eq_true,
          if_true, if_false]
        omega
    · have hturn : walkTurn (indexOf items) w =
          ⟨dep :: w.seen, rest ++ target.dependencyItemIds, none⟩ := by
        simp only [walkTurn, hlast, if_neg hseen, hget, if_neg hdeferred, hdrop]
      have hdeps : depsOf items dep = target.dependencyItemIds := by
        unfold depsOf
        rw [hget]
        rfl
      have hkept : ∀ d, d ∈ w.seen ∨ d ∈ w.pending →
          d ∈ dep :: w.seen ∨ d ∈ rest ++ target.dependencyItemIds := by
        intro d hd
        rcases hd with hd | hd
        · exact .inl (List.mem_cons_of_mem _ hd)
        · rcases hmem d hd with hd | rfl
          · exact .inr (List.mem_append_left _ hd)
          · exact .inl List.mem_cons_self
      have hknown : dep ∈ ids items := List.mem_map.mpr ⟨target, htarget, hid⟩
      rw [hturn]
      refine ⟨⟨List.nodup_cons.mpr ⟨hseen, hw.nodup⟩, ?_, ?_, ?_, ?_, ?_, fun e he => by cases he⟩, ?_⟩
      · intro s hs
        rcases List.mem_cons.mp hs with rfl | hs
        · exact hknown
        · exact hw.known s hs
      · intro s hs
        rcases hs with hs | hs
        · rcases List.mem_cons.mp hs with rfl | hs
          · exact hreached
          · exact hw.reached s (.inl hs)
        · rcases List.mem_append.mp hs with hs | hs
          · exact hw.reached s (.inr (hrest s hs))
          · exact hreached.tail ⟨target, htarget, hid, hs⟩
      · intro s hs t ht htid
        rcases List.mem_cons.mp hs with rfl | hs
        · have hsame := (indexOf_get items hu s t).mpr ⟨ht, htid⟩
          rw [hget] at hsame
          cases hsame
          exact hdeferred
        · exact hw.clear s hs t ht htid
      · intro d hd
        exact hkept d (hw.first d hd)
      · intro s hs d hd
        rcases List.mem_cons.mp hs with rfl | hs
        · rw [← mem_depsOf items hu, hdeps] at hd
          exact .inr (List.mem_append_right _ hd)
        · exact hkept d (hw.closed s hs d hd)
      · have hsum := sum_unseen (ids items) w.seen (fun v => (depsOf items v).length) dep hu hknown
          hseen
        rw [hdeps] at hsum
        simp only [Walk.left, hok, Option.isSome_none, Bool.false_eq_true, if_false,
          List.length_append]
        omega

/-- The walk from an item ends; it raises exactly if the item depends on a deferred one. -/
theorem returns_walkDependencies (start : ItemInput) (hstart : start ∈ items) :
    ∃ r, Prog.Returns (walkDependencies (indexOf items) start) r ∧
      (r = .ok () ↔ ∀ target ∈ items,
        TransGen (DependsOn items) start.itemId target.itemId → target.disposition ≠ .deferred) := by
  have hfirst : Visits items start ⟨[], start.dependencyItemIds, none⟩ := by
    refine ⟨List.nodup_nil, nofun, fun s hs => ?_, nofun, fun d hd => .inr hd, nofun, nofun⟩
    rcases hs with hs | hs
    · cases hs
    · exact .single ⟨start, hstart, rfl, hs⟩
  have hturn : ∀ w, Visits items start w → w.walking = true →
      ∃ w', Prog.Returns (pure (walkTurn (indexOf items) w)) w' ∧ Visits items start w' ∧
        w'.left items < w.left items := by
    intro w hw hc
    obtain ⟨hnext, hless⟩ := visits_turn hu hedges start w hw hc
    exact ⟨_, Prog.returns_pure _, hnext, hless⟩
  obtain ⟨w, hrun, hw, hend⟩ := Prog.returns_while _ _ _ _ hturn _ hfirst
  refine ⟨_, Prog.returns_bind hrun (Prog.returns_pure _), ?_⟩
  cases hf : w.failed with
  | some e =>
    obtain ⟨t, ht, hpath, hdeferred⟩ := hw.failed e hf
    exact ⟨nofun, fun hall => absurd hdeferred (hall t ht hpath)⟩
  | none =>
    have hempty : w.pending = [] := by simpa [Walk.walking, hf] using hend
    have hall : ∀ d, TransGen (DependsOn items) start.itemId d → d ∈ w.seen := by
      intro d hpath
      induction hpath with
      | single hstep =>
        obtain ⟨item, hitem, hid, hdep⟩ := hstep
        have hsame := (indexOf_get items hu start.itemId item).mpr ⟨hitem, hid⟩
        rw [(indexOf_get items hu start.itemId start).mpr ⟨hstart, rfl⟩] at hsame
        cases hsame
        have hd := hw.first _ hdep
        rw [hempty] at hd
        exact hd.resolve_right List.not_mem_nil
      | tail _ hstep ih =>
        have hd := hw.closed _ ih _ hstep
        rw [hempty] at hd
        exact hd.resolve_right List.not_mem_nil
    exact ⟨fun _ t ht hpath => hw.clear _ (hall _ hpath) t ht rfl, fun _ => rfl⟩

theorem returns_checkDeferred : ∃ r, Prog.Returns (checkDeferred items) r ∧
    (r = .ok () ↔ ∀ item ∈ items, item.disposition = .required → ∀ target ∈ items,
      TransGen (DependsOn items) item.itemId target.itemId → target.disposition ≠ .deferred) := by
  let clear := fun item : ItemInput => item.disposition = .required → ∀ target ∈ items,
    TransGen (DependsOn items) item.itemId target.itemId → target.disposition ≠ .deferred
  have hturn : ∀ (done : List ItemInput) (item : ItemInput) (rest : List ItemInput)
      (r : Except GraphValidationError Unit), items = done ++ item :: rest →
      (r = .ok () ↔ ∀ i ∈ done, clear i) →
      ∃ r', Prog.Returns (walkNext (indexOf items) r item) r' ∧
        (r' = .ok () ↔ ∀ i ∈ done ++ [item], clear i) := by
    intro done item rest r hsplit hinv
    have hitem : item ∈ items := by
      rw [hsplit]
      exact List.mem_append_right _ List.mem_cons_self
    have happend : (∀ i ∈ done ++ [item], clear i) ↔ (∀ i ∈ done, clear i) ∧ clear item := by
      rw [List.forall_mem_append, List.forall_mem_singleton]
    rw [happend]
    cases r with
    | error e =>
      refine ⟨.error e, Prog.returns_pure _, nofun, fun h => ?_⟩
      have hok := hinv.mpr h.1
      cases hok
    | ok u =>
      have hdone := hinv.mp rfl
      unfold walkNext
      by_cases hrequired : item.disposition ≠ .required
      · simp only [if_pos hrequired]
        exact ⟨.ok (), Prog.returns_pure _, fun _ => ⟨hdone, fun h => absurd h hrequired⟩,
          fun _ => rfl⟩
      · simp only [if_neg hrequired]
        obtain ⟨r', hrun, hiff⟩ := returns_walkDependencies hu hedges item hitem
        refine ⟨r', hrun, fun h => ⟨hdone, fun _ => hiff.mp h⟩, fun h => ?_⟩
        exact hiff.mpr (h.2 (not_not.mp hrequired))
  exact Prog.returns_foldlM (walkNext (indexOf items)) items
    (fun done r => r = .ok () ↔ ∀ i ∈ done, clear i) hturn (.ok ()) ⟨fun _ => nofun, fun _ => rfl⟩

end checked

/-! ## The whole check -/

theorem checkItems_eq_ok (items : List ItemInput) (adoption : Bool) :
    checkItems items adoption = .ok () ↔ (items.length ≤ 128 ∧ (adoption = true → items ≠ [])) ∧
      (ids items).Nodup ∧ ∀ item ∈ items, item.itemId ∉ item.dependencyItemIds ∧
        ∀ dep ∈ item.dependencyItemIds, dep ∈ ids items := by
  simp only [checkItems, require_bind_eq_ok, forM_eq_ok, checkEdges, require_eq_ok, indexOf_isSome,
    (indexOf_length items).2]

theorem returns_validateGraph (items : List ItemInput) (adoption : Bool) :
    ∃ r, Prog.Returns (validateGraph items adoption) r ∧
      (r = .ok () ↔ ValidGraph items ∧ (adoption = true → Adoptable items)) := by
  unfold validateGraph
  cases hchecks : checkItems items adoption with
  | error e =>
    refine ⟨.error e, Prog.returns_pure _, nofun, fun ⟨hvalid, hadopt⟩ => ?_⟩
    have hok := (checkItems_eq_ok items adoption).mpr
      ⟨⟨hvalid.few, fun h => (hadopt h).nonempty⟩, hvalid.unique, hvalid.edges⟩
    rw [hchecks] at hok
    cases hok
  | ok u =>
    obtain ⟨⟨hfew, hnonempty⟩, hunique, hedges⟩ := (checkItems_eq_ok items adoption).mp hchecks
    have hclosed := fun item hitem => (hedges item hitem).2
    obtain ⟨sorted, hsorted, hacyclic⟩ := returns_checkAcyclic hunique hclosed
    cases sorted with
    | error e =>
      refine ⟨.error e, Prog.returns_bind hsorted (Prog.returns_pure _), nofun, fun h => ?_⟩
      have hok := hacyclic.mpr h.1.acyclic
      cases hok
    | ok u =>
      have hvalid : ValidGraph items := ⟨hfew, hunique, hedges, hacyclic.mp rfl⟩
      cases adoption with
      | false =>
        refine ⟨.ok (), Prog.returns_bind hsorted (Prog.returns_pure _), fun _ => ⟨hvalid, nofun⟩,
          fun _ => rfl⟩
      | true =>
        obtain ⟨r, hrun, hiff⟩ := returns_checkDeferred hunique hclosed
        refine ⟨r, Prog.returns_bind hsorted hrun, fun h => ⟨hvalid, fun _ => ?_⟩, fun h => ?_⟩
        · exact ⟨hnonempty rfl, hiff.mp h⟩
        · exact hiff.mpr (h.2 rfl).required

/-- `validate_graph` ends on every list, and accepts exactly the valid graphs. -/
theorem validateGraph_exact (items : List ItemInput) (adoption : Bool) :
    ∃ r, Prog.Returns (validateGraph items adoption) r ∧
      (r = .ok () ↔ ValidGraph items ∧ (adoption = true → Adoptable items)) :=
  returns_validateGraph items adoption

end ParallelForge.Epic
