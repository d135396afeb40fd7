import ParallelForge.Base.Json
import Mathlib.Data.List.Perm.Subperm

/-!
# Values up to the order of keys

Sorting the keys at every level yields one representative of a value: two
values are the same exactly when they agree sorted.
-/

namespace ParallelForge.Base.Json

/-- Induction over a value; an array knows it of its items, an object of its members. -/
@[elab_as_elim]
theorem induct {motive : Json → Prop} (null : motive .null) (bool : ∀ b, motive (.bool b))
    (int : ∀ z, motive (.int z)) (float : ∀ f, motive (.float f)) (str : ∀ s, motive (.str s))
    (arr : ∀ vs : List Json, (∀ v ∈ vs, motive v) → motive (.arr vs))
    (obj : ∀ ms : List (Str × Json), (∀ p ∈ ms, motive p.2) → motive (.obj ms)) (v : Json) : motive v := by
  apply @Json.rec motive (fun vs => ∀ v ∈ vs, motive v) (fun ms => ∀ p ∈ ms, motive p.2)
    (fun p => motive p.2)
  · exact null
  · exact bool
  · exact int
  · exact float
  · exact str
  · exact arr
  · exact obj
  · exact fun v hv => by cases hv
  · intro v vs hv hvs w hw
    rcases List.mem_cons.mp hw with rfl | hw
    · exact hv
    · exact hvs w hw
  · exact fun p hp => by cases hp
  · intro p ms hp hms q hq
    rcases List.mem_cons.mp hq with rfl | hq
    · exact hp
    · exact hms q hq
  · exact fun _ _ h => h

theorem sortKeysItems_eq (vs : List Json) : sortKeysItems vs = vs.map sortKeys := by
  induction vs with
  | nil => rfl
  | cons v vs ih => rw [sortKeysItems, ih, List.map_cons]

theorem sortKeysMembers_eq (ms : List (Str × Json)) :
    sortKeysMembers ms = ms.map fun p => (p.1, sortKeys p.2) := by
  induction ms with
  | nil => rfl
  | cons p ms ih =>
    obtain ⟨k, v⟩ := p
    rw [sortKeysMembers, ih, List.map_cons]

theorem allItems_iff (P : Json → Prop) (vs : List Json) : AllItems P vs ↔ ∀ v ∈ vs, All P v := by
  induction vs with
  | nil => simp [AllItems]
  | cons v vs ih => rw [AllItems, ih, List.forall_mem_cons]

theorem allMembers_iff (P : Json → Prop) (ms : List (Str × Json)) :
    AllMembers P ms ↔ ∀ p ∈ ms, All P p.2 := by
  induction ms with
  | nil => simp [AllMembers]
  | cons p ms ih =>
    obtain ⟨k, v⟩ := p
    rw [AllMembers, ih, List.forall_mem_cons]

theorem all_arr (P : Json → Prop) (vs : List Json) :
    All P (.arr vs) ↔ P (.arr vs) ∧ ∀ v ∈ vs, All P v := by
  rw [All, allItems_iff]

theorem all_obj (P : Json → Prop) (ms : List (Str × Json)) :
    All P (.obj ms) ↔ P (.obj ms) ∧ ∀ p ∈ ms, All P p.2 := by
  rw [All, allMembers_iff]

theorem All.self {P : Json → Prop} {v : Json} (h : All P v) : P v := by
  cases v with
  | arr vs => exact ((all_arr P vs).mp h).1
  | obj ms => exact ((all_obj P ms).mp h).1
  | null => exact h
  | bool b => exact h
  | int z => exact h
  | float f => exact h
  | str s => exact h

theorem all_mono {P Q : Json → Prop} (h : ∀ v, P v → Q v) (v : Json) : All P v → All Q v := by
  induction v using induct with
  | null => exact h _
  | bool b => exact h _
  | int z => exact h _
  | float f => exact h _
  | str s => exact h _
  | arr vs ih =>
    rw [all_arr, all_arr]
    exact fun ⟨hself, hitems⟩ => ⟨h _ hself, fun v hv => ih v hv (hitems v hv)⟩
  | obj ms ih =>
    rw [all_obj, all_obj]
    exact fun ⟨hself, hmembers⟩ => ⟨h _ hself, fun p hp => ih p hp (hmembers p hp)⟩

theorem all_and {P Q : Json → Prop} {v : Json} (hp : All P v) (hq : All Q v) :
    All (fun u => P u ∧ Q u) v := by
  induction v using induct with
  | null => exact ⟨hp, hq⟩
  | bool b => exact ⟨hp, hq⟩
  | int z => exact ⟨hp, hq⟩
  | float f => exact ⟨hp, hq⟩
  | str s => exact ⟨hp, hq⟩
  | arr vs ih =>
    rw [all_arr] at hp hq ⊢
    exact ⟨⟨hp.1, hq.1⟩, fun v hv => ih v hv (hp.2 v hv) (hq.2 v hv)⟩
  | obj ms ih =>
    rw [all_obj] at hp hq ⊢
    exact ⟨⟨hp.1, hq.1⟩, fun p hmem => ih p hmem (hp.2 p hmem) (hq.2 p hmem)⟩

theorem sameItems_iff (vs ws : List Json) : SameItems vs ws ↔ List.Forall₂ Same vs ws := by
  induction vs generalizing ws with
  | nil => cases ws <;> simp [SameItems]
  | cons v vs ih => cases ws <;> simp [SameItems, ih]

theorem sameMembers_iff (ms ns : List (Str × Json)) :
    SameMembers ms ns ↔ ∀ p ∈ ms, ∃ w, (p.1, w) ∈ ns ∧ Same p.2 w := by
  induction ms with
  | nil => simp [SameMembers]
  | cons p ms ih =>
    obtain ⟨k, v⟩ := p
    rw [SameMembers, ih, List.forall_mem_cons]

/-! ## Sorted objects -/

def keyLe (p q : Str × Json) : Prop := p.1 ≤ q.1

instance : DecidableRel keyLe := fun p q => inferInstanceAs (Decidable (p.1 ≤ q.1))
instance : Std.Total keyLe := ⟨fun p q => le_total p.1 q.1⟩
instance : IsTrans (Str × Json) keyLe := ⟨fun _ _ _ h h' => le_trans h h'⟩

theorem sortKeys_obj (ms : List (Str × Json)) :
    sortKeys (.obj ms) = .obj ((ms.map fun p => (p.1, sortKeys p.2)).insertionSort keyLe) := by
  rw [sortKeys, sortKeysMembers_eq]
  rfl

theorem sortKeys_arr (vs : List Json) : sortKeys (.arr vs) = .arr (vs.map sortKeys) := by
  rw [sortKeys, sortKeysItems_eq]

theorem member_unique {ms : List (Str × Json)} (h : (ms.map Prod.fst).Nodup) {p q : Str × Json}
    (hp : p ∈ ms) (hq : q ∈ ms) (hk : p.1 = q.1) : p = q :=
  List.inj_on_of_nodup_map h hp hq hk

/- Members of one object in another order sort to one list. -/
theorem insertionSort_eq_iff (ms ns : List (Str × Json)) (hm : (ms.map Prod.fst).Nodup) :
    ms.insertionSort keyLe = ns.insertionSort keyLe ↔ ms.Perm ns := by
  have hms := List.perm_insertionSort keyLe ms
  have hns := List.perm_insertionSort keyLe ns
  constructor
  · intro h
    exact hms.symm.trans (h ▸ hns)
  · intro h
    have hperm := (hms.trans h).trans hns.symm
    apply hperm.eq_of_pairwise _ (List.pairwise_insertionSort keyLe ms)
      (List.pairwise_insertionSort keyLe ns)
    intro p q hp hq hle hge
    apply member_unique hm (hms.mem_iff.mp hp) (h.mem_iff.mpr (hns.mem_iff.mp hq))
    exact le_antisymm hle hge

theorem perm_of_members {ms ns : List (Str × Json)} (hm : (ms.map Prod.fst).Nodup)
    (hlen : ms.length = ns.length) (h : ∀ p ∈ ms, p ∈ ns) : ms.Perm ns :=
  (List.Nodup.subperm (List.Nodup.of_map _ hm) h).perm_of_length_le (by omega)

theorem map_fst_sortKeys (ms : List (Str × Json)) :
    (ms.map fun p => (p.1, sortKeys p.2)).map Prod.fst = ms.map Prod.fst := by
  rw [List.map_map]
  rfl

/-- Two values are the same exactly when they agree with their keys sorted. -/
theorem same_iff_sortKeys (v : Json) : ∀ w : Json, All uniqueKeys v →
    (Same v w ↔ sortKeys v = sortKeys w) := by
  induction v using induct with
  | null => intro w _; cases w <;> simp [Same, sortKeys]
  | bool b => intro w _; cases w <;> simp [Same, sortKeys]
  | int z => intro w _; cases w <;> simp [Same, sortKeys]
  | float f => intro w _; cases w <;> simp [Same, sortKeys]
  | str s => intro w _; cases w <;> simp [Same, sortKeys]
  | arr vs ih =>
    intro w hv
    rw [all_arr] at hv
    cases w with
    | arr ws =>
      rw [Same, sameItems_iff, sortKeys_arr, sortKeys_arr, Json.arr.injEq]
      have hitems : ∀ v ∈ vs, ∀ w, Same v w ↔ sortKeys v = sortKeys w :=
        fun v hmem w => ih v hmem w (hv.2 v hmem)
      clear ih hv
      induction vs generalizing ws with
      | nil => cases ws <;> simp
      | cons v vs ih =>
        rw [List.forall_mem_cons] at hitems
        cases ws with
        | nil => simp
        | cons w ws => simp [hitems.1 w, ih ws hitems.2]
    | null => simp [Same, sortKeys]
    | bool b => simp [Same, sortKeys]
    | int z => simp [Same, sortKeys]
    | float f => simp [Same, sortKeys]
    | str s => simp [Same, sortKeys]
    | obj ns => simp [Same, sortKeys]
  | obj ms ih =>
    intro w hv
    rw [all_obj] at hv
    cases w with
    | obj ns =>
      have hkeys : (ms.map Prod.fst).Nodup := hv.1
      have hsorted : ((ms.map fun p => (p.1, sortKeys p.2)).map Prod.fst).Nodup := by
        rw [map_fst_sortKeys]
        exact hkeys
      rw [Same, sameMembers_iff, sortKeys_obj, sortKeys_obj, Json.obj.injEq,
        insertionSort_eq_iff _ _ hsorted]
      constructor
      · rintro ⟨hlen, hall⟩
        apply perm_of_members hsorted (by simpa using hlen)
        intro p hp
        obtain ⟨q, hq, rfl⟩ := List.mem_map.mp hp
        obtain ⟨w, hw, hsame⟩ := hall q hq
        have heq := (ih q hq w (hv.2 q hq)).mp hsame
        exact List.mem_map.mpr ⟨(q.1, w), hw, by rw [heq]⟩
      · intro hperm
        refine ⟨by simpa using hperm.length_eq, fun p hp => ?_⟩
        have hmem : (p.1, sortKeys p.2) ∈ ns.map fun q => (q.1, sortKeys q.2) :=
          hperm.mem_iff.mp (List.mem_map.mpr ⟨p, hp, rfl⟩)
        obtain ⟨q, hq, heq⟩ := List.mem_map.mp hmem
        rw [Prod.mk.injEq] at heq
        refine ⟨q.2, by rw [← heq.1]; exact hq, ?_⟩
        exact (ih p hp q.2 (hv.2 p hp)).mpr heq.2.symm
    | null => simp [Same, sortKeys]
    | bool b => simp [Same, sortKeys]
    | int z => simp [Same, sortKeys]
    | float f => simp [Same, sortKeys]
    | str s => simp [Same, sortKeys]
    | arr ws => simp [Same, sortKeys]

/-- A property of the parts that survives sorting one object survives sorting the value. -/
theorem all_sortKeys {P : Json → Prop} (harr : ∀ vs, P (.arr vs) → P (.arr (vs.map sortKeys)))
    (hobj : ∀ ms ns : List (Str × Json), (ms.map Prod.fst).Perm (ns.map Prod.fst) → P (.obj ms) → P (.obj ns))
    (v : Json) : All P v → All P (sortKeys v) := by
  induction v using induct with
  | null => exact id
  | bool b => exact id
  | int z => exact id
  | float f => exact id
  | str s => exact id
  | arr vs ih =>
    intro h
    rw [all_arr] at h
    rw [sortKeys_arr, all_arr]
    refine ⟨harr vs h.1, fun w hw => ?_⟩
    obtain ⟨v, hv, rfl⟩ := List.mem_map.mp hw
    exact ih v hv (h.2 v hv)
  | obj ms ih =>
    intro h
    rw [all_obj] at h
    rw [sortKeys_obj, all_obj]
    have hperm := List.perm_insertionSort keyLe (ms.map fun p => (p.1, sortKeys p.2))
    refine ⟨hobj ms _ ?_ h.1, fun p hp => ?_⟩
    · rw [← map_fst_sortKeys ms]
      exact (hperm.map Prod.fst).symm
    · obtain ⟨q, hq, rfl⟩ := List.mem_map.mp (hperm.mem_iff.mp hp)
      exact ih q hq (h.2 q hq)

end ParallelForge.Base.Json
