import Mathlib.Data.List.Nodup
import Mathlib.Data.List.Perm.Subperm

/-!
# Keyed tables

A relation with a primary key: rows in insertion order, no key twice. All
reasoning goes through `get`, so that a query (`any`) and an update (`put`,
`mapRows`) are described by what they do to single keys.
-/

namespace ParallelForge.Base

structure Table (κ α : Type) where
  rows : List (κ × α)
  unique : (rows.map Prod.fst).Nodup

namespace Table
variable {κ α : Type} [DecidableEq κ]

def empty : Table κ α := ⟨[], List.nodup_nil⟩

def get (t : Table κ α) (k : κ) : Option α := (t.rows.find? fun r => r.1 == k).map Prod.snd

/-- A bulk update keeps every key where it is. -/
def mapRows (t : Table κ α) (f : κ → α → α) : Table κ α :=
  ⟨t.rows.map fun r => (r.1, f r.1 r.2), by simpa [Function.comp_def] using t.unique⟩

def modify (t : Table κ α) (k : κ) (f : α → α) : Table κ α :=
  t.mapRows fun k' a => if k' = k then f a else a

theorem find_none (t : Table κ α) (k : κ) (h : t.get k = none) : k ∉ t.rows.map Prod.fst := by
  simp only [get, Option.map_eq_none_iff, List.find?_eq_none, beq_iff_eq] at h
  intro hk
  obtain ⟨r, hr, he⟩ := List.mem_map.mp hk
  exact h r hr he

/-- Insert or overwrite. -/
def put (t : Table κ α) (k : κ) (a : α) : Table κ α :=
  match h : t.get k with
  | none => ⟨t.rows ++ [(k, a)], by
      rw [List.map_append]
      refine List.Nodup.append t.unique (List.nodup_singleton k) ?_
      intro k' hk' hs
      simp only [List.map_cons, List.map_nil, List.mem_singleton] at hs
      exact find_none t k h (hs ▸ hk')⟩
  | some _ => t.modify k fun _ => a

/-- `EXISTS (SELECT ... WHERE p)`. -/
def any (t : Table κ α) (p : κ → α → Bool) : Bool := t.rows.any fun r => p r.1 r.2

def select (t : Table κ α) (p : κ → α → Bool) : List (κ × α) := t.rows.filter fun r => p r.1 r.2

@[simp] theorem get_empty (k : κ) : (empty : Table κ α).get k = none := rfl

theorem mem_rows_iff (t : Table κ α) (k : κ) (a : α) : (k, a) ∈ t.rows ↔ t.get k = some a := by
  obtain ⟨rows, hu⟩ := t
  simp only [get]
  induction rows with
  | nil => simp
  | cons r rows ih =>
    obtain ⟨k', a'⟩ := r
    simp only [List.map_cons, List.nodup_cons] at hu
    by_cases hk : k' = k
    · subst hk
      simp only [List.mem_cons, Prod.mk.injEq, true_and, List.find?_cons, beq_self_eq_true,
        Option.map_some, Option.some.injEq]
      constructor
      · rintro (h | h)
        · exact h.symm
        · exact absurd (List.mem_map_of_mem (f := Prod.fst) h) hu.1
      · intro h
        exact Or.inl h.symm
    · have hb : (k' == k) = false := by simpa using hk
      simp only [List.mem_cons, Prod.mk.injEq, List.find?_cons, hb, ih hu.2]
      constructor
      · rintro (h | h)
        · exact absurd h.1.symm hk
        · exact h
      · exact Or.inr

theorem find_mapRows (rows : List (κ × α)) (f : κ → α → α) (k : κ) :
    ((rows.map fun r => (r.1, f r.1 r.2)).find? fun r => r.1 == k)
      = (rows.find? fun r => r.1 == k).map fun r => (r.1, f r.1 r.2) := by
  induction rows with
  | nil => rfl
  | cons r rows ih =>
    simp only [List.map_cons, List.find?_cons]
    cases r.1 == k <;> simp [ih]

theorem get_mapRows (t : Table κ α) (f : κ → α → α) (k : κ) :
    (t.mapRows f).get k = (t.get k).map (f k) := by
  simp only [get, mapRows, find_mapRows, Option.map_map]
  cases h : t.rows.find? fun r => r.1 == k with
  | none => rfl
  | some r =>
    have hk : r.1 = k := by simpa using List.find?_some h
    simp [← hk]

theorem get_modify (t : Table κ α) (k k' : κ) (f : α → α) :
    (t.modify k f).get k' = if k' = k then (t.get k').map f else t.get k' := by
  rw [modify, get_mapRows]
  by_cases h : k' = k
  · simp [h]
  · simp [h]

theorem get_put (t : Table κ α) (k k' : κ) (a : α) :
    (t.put k a).get k' = if k' = k then some a else t.get k' := by
  unfold put
  split
  · next h =>
    simp only [get] at h ⊢
    rw [List.find?_append]
    by_cases hk : k' = k
    · subst hk
      have hn : (t.rows.find? fun r => r.1 == k') = none := by simpa using h
      simp [hn]
    · have hb : (k == k') = false := by simpa using Ne.symm hk
      simp [hb, hk]
  · next b h =>
    rw [get_modify]
    by_cases hk : k' = k
    · simp [hk, h]
    · simp [hk]

@[simp] theorem get_put_self (t : Table κ α) (k : κ) (a : α) : (t.put k a).get k = some a := by
  rw [get_put, if_pos rfl]

theorem get_put_ne (t : Table κ α) {k k' : κ} (a : α) (h : k' ≠ k) :
    (t.put k a).get k' = t.get k' := by
  rw [get_put, if_neg h]

theorem ne_of_get (t : Table κ α) {k i : κ} {a : α} (hk : t.get k = none) (hi : t.get i = some a) :
    i ≠ k := by
  intro he
  rw [he, hk] at hi
  cases hi

theorem any_iff (t : Table κ α) (p : κ → α → Bool) :
    t.any p = true ↔ ∃ k a, t.get k = some a ∧ p k a = true := by
  simp only [any, List.any_eq_true, Prod.exists, mem_rows_iff]

theorem any_eq_false (t : Table κ α) (p : κ → α → Bool) :
    t.any p = false ↔ ∀ k a, t.get k = some a → p k a = false := by
  rw [← Bool.not_eq_true, any_iff]
  simp only [not_exists, not_and, Bool.not_eq_true]

theorem mem_select_iff (t : Table κ α) (p : κ → α → Bool) (k : κ) (a : α) :
    (k, a) ∈ t.select p ↔ t.get k = some a ∧ p k a = true := by
  rw [select, List.mem_filter, mem_rows_iff]

theorem rows_put_absent (t : Table κ α) (k : κ) (a : α) (h : t.get k = none) :
    (t.put k a).rows = t.rows ++ [(k, a)] := by
  unfold put
  split
  · rfl
  · next b hb =>
    rw [h] at hb
    cases hb

theorem rows_put_present (t : Table κ α) (k : κ) (a b : α) (h : t.get k = some b) :
    (t.put k a).rows = t.rows.map fun r => (r.1, if r.1 = k then a else r.2) := by
  unfold put
  split
  · next hn =>
    rw [h] at hn
    cases hn
  · rfl

theorem select_put_absent (t : Table κ α) (p : κ → α → Bool) (k : κ) (a : α) (h : t.get k = none) :
    (t.put k a).select p = t.select p ++ if p k a then [(k, a)] else [] := by
  rw [select, rows_put_absent t k a h, List.filter_append]
  congr 1
  by_cases hp : p k a = true
  · simp [hp]
  · simp [hp]

/- One row answers the query. -/
theorem select_eq_singleton (t : Table κ α) (p : κ → α → Bool) (k : κ) (a : α)
    (hk : t.get k = some a) (hp : p k a = true)
    (h : ∀ i b, t.get i = some b → p i b = true → i = k) : t.select p = [(k, a)] := by
  have hmem : (k, a) ∈ t.select p := (mem_select_iff t p k a).mpr ⟨hk, hp⟩
  have hall : ∀ r ∈ t.select p, r = (k, a) := by
    intro r hr
    obtain ⟨hget, hpr⟩ := (mem_select_iff t p r.1 r.2).mp hr
    have hkey := h r.1 r.2 hget hpr
    rw [hkey, hk] at hget
    exact Prod.ext hkey (Option.some.inj hget).symm
  have hnodup : (t.select p).Nodup := (List.Nodup.of_map _ t.unique).filter _
  have hrep := List.eq_replicate_of_mem hall
  rw [hrep, List.nodup_replicate] at hnodup
  have hpos : 0 < (t.select p).length := List.length_pos_of_mem hmem
  have hone : (t.select p).length = 1 := by omega
  rw [hrep, hone]
  rfl

section names
variable (t : Table κ α) (q : κ → α → Bool) (ids : List κ)

/- The keys of the rows that are selected by name. -/
theorem mem_keys_select (i : κ) :
    i ∈ (t.select fun k a => q k a && ids.contains k).map Prod.fst ↔
      i ∈ ids ∧ ∃ a, t.get i = some a ∧ q i a = true := by
  simp only [List.mem_map, Prod.exists, mem_select_iff, Bool.and_eq_true, List.contains_iff_mem]
  constructor
  · rintro ⟨k, a, ⟨ha, hq, hi⟩, rfl⟩
    exact ⟨hi, a, ha, hq⟩
  · rintro ⟨hi, a, ha, hq⟩
    exact ⟨i, a, ⟨ha, hq, hi⟩, rfl⟩

theorem keys_select_subperm :
    ((t.select fun k a => q k a && ids.contains k).map Prod.fst).Subperm ids := by
  have hkeys : ((t.select fun k a => q k a && ids.contains k).map Prod.fst).Nodup :=
    List.Nodup.sublist (List.Sublist.map _ List.filter_sublist) t.unique
  exact List.subperm_of_subset hkeys fun i hi => ((mem_keys_select t q ids i).mp hi).1

theorem length_select_le : (t.select fun k a => q k a && ids.contains k).length ≤ ids.length := by
  have hle := (keys_select_subperm t q ids).length_le
  rwa [List.length_map] at hle

/-- As many selected rows as names, when the names are distinct: every name has one. -/
theorem length_select_iff (hn : ids.Nodup) :
    (t.select fun k a => q k a && ids.contains k).length = ids.length ↔
      ∀ i ∈ ids, ∃ a, t.get i = some a ∧ q i a = true := by
  constructor
  · intro hlen i hi
    have hge : ids.length ≤ ((t.select fun k a => q k a && ids.contains k).map Prod.fst).length := by
      rw [List.length_map]
      omega
    have hperm := (keys_select_subperm t q ids).perm_of_length_le hge
    exact ((mem_keys_select t q ids i).mp (hperm.mem_iff.mpr hi)).2
  · intro hall
    have hrev : ids ⊆ (t.select fun k a => q k a && ids.contains k).map Prod.fst :=
      fun i hi => (mem_keys_select t q ids i).mpr ⟨hi, hall i hi⟩
    have hge := (List.subperm_of_subset hn hrev).length_le
    have hle := length_select_le t q ids
    rw [List.length_map] at hge
    omega

end names

end Table

/-- How the row under one key may change: not at all, by insertion of a fresh
row, or by a permitted change of the row. -/
inductive RowStep {α : Type} (rel : α → α → Prop) (fresh : α → Prop) : Option α → Option α → Prop
  | absent : RowStep rel fresh none none
  | inserted (a : α) (h : fresh a) : RowStep rel fresh none (some a)
  | changed (a b : α) (h : rel a b) : RowStep rel fresh (some a) (some b)

namespace RowStep
variable {α : Type} {rel : α → α → Prop} {fresh : α → Prop}

theorem refl (hr : ∀ a, rel a a) (o : Option α) : RowStep rel fresh o o := by
  cases o with
  | none => exact absent
  | some a => exact changed a a (hr a)

theorem trans (hr : ∀ a b c, rel a b → rel b c → rel a c) (hf : ∀ a b, fresh a → rel a b → fresh b)
    {o p q : Option α} (h : RowStep rel fresh o p) (k : RowStep rel fresh p q) :
    RowStep rel fresh o q := by
  cases h with
  | absent => exact k
  | inserted a ha =>
    cases k with
    | changed _ b hb => exact inserted b (hf a b ha hb)
  | changed a b hb =>
    cases k with
    | changed _ c hc => exact changed a c (hr a b c hb hc)

theorem mono {rel' : α → α → Prop} {fresh' : α → Prop} (hr : ∀ a b, rel a b → rel' a b)
    (hf : ∀ a, fresh a → fresh' a) {o p : Option α} (h : RowStep rel fresh o p) :
    RowStep rel' fresh' o p := by
  cases h with
  | absent => exact absent
  | inserted a ha => exact inserted a (hf a ha)
  | changed a b hab => exact changed a b (hr a b hab)

theorem of_some {a : α} {o : Option α} (h : RowStep rel fresh (some a) o) :
    ∃ b, o = some b ∧ rel a b := by
  cases h with
  | changed _ b hb => exact ⟨b, rfl, hb⟩

theorem to_some {b : α} {o : Option α} (h : RowStep rel fresh o (some b)) :
    (o = none ∧ fresh b) ∨ ∃ a, o = some a ∧ rel a b := by
  cases h with
  | inserted _ hb => exact Or.inl ⟨rfl, hb⟩
  | changed a _ hb => exact Or.inr ⟨a, rfl, hb⟩

end RowStep

namespace Table
variable {κ α : Type} [DecidableEq κ] {rel : α → α → Prop} {fresh : α → Prop}

/-- Every key of the table makes a permitted step. -/
def Evolves (rel : α → α → Prop) (fresh : α → Prop) (t t' : Table κ α) : Prop :=
  ∀ k, RowStep rel fresh (t.get k) (t'.get k)

theorem Evolves.refl (hr : ∀ a, rel a a) (t : Table κ α) : Evolves rel fresh t t :=
  fun k => RowStep.refl hr (t.get k)

theorem Evolves.trans (hr : ∀ a b c, rel a b → rel b c → rel a c)
    (hf : ∀ a b, fresh a → rel a b → fresh b) {t u v : Table κ α}
    (h : Evolves rel fresh t u) (k : Evolves rel fresh u v) : Evolves rel fresh t v :=
  fun i => RowStep.trans hr hf (h i) (k i)

theorem Evolves.forth {t t' : Table κ α} (h : Evolves rel fresh t t') (k : κ) (a : α)
    (ha : t.get k = some a) : ∃ b, t'.get k = some b ∧ rel a b := by
  have hstep := h k
  rw [ha] at hstep
  exact hstep.of_some

theorem Evolves.back {t t' : Table κ α} (h : Evolves rel fresh t t') (k : κ) (b : α)
    (hb : t'.get k = some b) : (t.get k = none ∧ fresh b) ∨ ∃ a, t.get k = some a ∧ rel a b := by
  have hstep := h k
  rw [hb] at hstep
  exact hstep.to_some

/- Rows are not deleted. -/
theorem Evolves.kept {t t' : Table κ α} (h : Evolves rel fresh t t') (k : κ) (a : α)
    (ha : t.get k = some a) : ∃ b, t'.get k = some b := by
  obtain ⟨b, hb, -⟩ := h.forth k a ha
  exact ⟨b, hb⟩

/- Without insertions a row was there before. -/
theorem Evolves.origin {t t' : Table κ α} (h : Evolves rel (fun _ => False) t t') (k : κ) (b : α)
    (hb : t'.get k = some b) : ∃ a, t.get k = some a ∧ rel a b := by
  rcases h.back k b hb with ⟨-, hf⟩ | hx
  · exact hf.elim
  · exact hx

theorem evolves_put (hr : ∀ a, rel a a) (t : Table κ α) (k : κ) (a b : α) (h : t.get k = some a)
    (hab : rel a b) : Evolves rel fresh t (t.put k b) := by
  intro i
  rw [get_put]
  split
  · next hi =>
    subst hi
    rw [h]
    exact RowStep.changed a b hab
  · exact RowStep.refl hr _

theorem evolves_insert (hr : ∀ a, rel a a) (t : Table κ α) (k : κ) (b : α) (h : t.get k = none)
    (hb : fresh b) : Evolves rel fresh t (t.put k b) := by
  intro i
  rw [get_put]
  split
  · next hi =>
    subst hi
    rw [h]
    exact RowStep.inserted b hb
  · exact RowStep.refl hr _

theorem evolves_mapRows (t : Table κ α) (f : κ → α → α)
    (hf : ∀ k a, t.get k = some a → rel a (f k a)) : Evolves rel fresh t (t.mapRows f) := by
  intro i
  rw [get_mapRows]
  cases h : t.get i with
  | none => exact RowStep.absent
  | some a => exact RowStep.changed a (f i a) (hf i a h)

theorem evolves_modify (hr : ∀ a, rel a a) (t : Table κ α) (k : κ) (f : α → α)
    (hf : ∀ a, t.get k = some a → rel a (f a)) : Evolves rel fresh t (t.modify k f) := by
  refine evolves_mapRows t _ ?_
  intro i a ha
  split
  · next hi => subst hi; exact hf a ha
  · exact hr a

end Table

end ParallelForge.Base
