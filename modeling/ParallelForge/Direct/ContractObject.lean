import ParallelForge.Base.PyJsonText
import ParallelForge.Direct.Extraction

/-!
# Contract objects and how they are written

`RESULT_SCHEMA` and `REVIEW_SCHEMA` require every property and admit no other, in any
order. A contract object is read back from its `json.dumps` with the same members, and
is written the same again.
-/

namespace ParallelForge.Direct
open Base PyJson

/-! ## The schemas -/

abbrev Check := PyJson → Prop

def isString : Check := fun v => ∃ s, v = .str s

/-- A string of an `enum`. -/
def oneOf (words : List String) : Check := fun v => ∃ w ∈ words, v = .str (codes w)

def orNull (c : Check) : Check := fun v => v = .null ∨ c v

def arrayOf (c : Check) : Check := fun v => ∃ items, v = .arr items ∧ ∀ item ∈ items, c item

/-- All properties are required, and there are no others. -/
def object (properties : List (String × Check)) : Check := fun v =>
  ∃ ms, v = .obj ms ∧ (ms.map Prod.fst).Perm (properties.map fun p => codes p.1) ∧
    ∀ p ∈ properties, ∀ value, (codes p.1, value) ∈ ms → p.2 value

def resultSchema : Check := object
  [("status", oneOf ["done", "needs_decision", "blocked"]), ("summary", isString),
    ("question", orNull isString), ("options", arrayOf isString)]

def findingSchema : Check := object
  [("severity", oneOf ["blocking", "note"]), ("file", orNull isString), ("detail", isString)]

def reviewSchema : Check := object
  [("verdict", oneOf ["clean", "blocking"]), ("summary", isString), ("findings", arrayOf findingSchema)]

/-- Its strings, keys among them, hold no backtick. -/
def NoBacktick (v : PyJson) : Prop := ∀ u ∈ parts v, ∀ s ∈ texts u, 96 ∉ s

/-- Its strings are strings of code points. -/
def Textual (v : PyJson) : Prop := ∀ u ∈ parts v, ∀ s ∈ texts u, isText s

def memberOf (v : PyJson) (key : String) : Option PyJson :=
  match v with
  | .obj ms => get ms (codes key)
  | _ => none

/-! ## Members -/

theorem lookup_of_mem {ms : Members} (hn : (ms.map Prod.fst).Nodup) {k : Str} {v : PyJson}
    (h : (k, v) ∈ ms) : get ms k = some v := by
  induction ms with
  | nil => cases h
  | cons p ms ih =>
    obtain ⟨k', v'⟩ := p
    rw [List.map_cons, List.nodup_cons] at hn
    rcases List.mem_cons.mp h with heq | hmem
    · cases heq
      exact List.lookup_cons_self
    · have hne : (k == k') = false := by
        rw [beq_eq_false_iff_ne]
        rintro rfl
        exact hn.1 (List.mem_map.mpr ⟨_, hmem, rfl⟩)
      have hrest := ih hn.2 hmem
      unfold PyJson.get at hrest ⊢
      rw [List.lookup_cons, hne]
      exact hrest

theorem get_absent {ms : Members} {k : Str} (h : k ∉ ms.map Prod.fst) : get ms k = none := by
  unfold PyJson.get
  rw [List.lookup_eq_none_iff]
  intro p hp
  rw [bne_iff_ne]
  rintro rfl
  exact h (List.mem_map_of_mem hp)

theorem has_iff {ms : Members} {key : String} : has ms key = true ↔ codes key ∈ ms.map Prod.fst := by
  rw [has, List.contains_iff_mem]

section object
variable {properties : List (String × Check)}

/-- The names of a schema are read back as they are written. -/
def Named (properties : List (String × Check)) : Prop :=
  (properties.map fun p => codes p.1).Nodup ∧ ∀ p ∈ properties, rejoin true (codes p.1) = codes p.1

theorem object_member {ms : Members} (h : object properties (.obj ms)) {p : String × Check}
    (hp : p ∈ properties) : ∃ value, (codes p.1, value) ∈ ms ∧ p.2 value := by
  obtain ⟨ms', heq, hperm, hall⟩ := h
  cases heq
  have hmem : codes p.1 ∈ ms.map Prod.fst := hperm.mem_iff.mpr (List.mem_map_of_mem hp)
  rw [List.mem_map] at hmem
  obtain ⟨⟨k, v⟩, hkv, hk⟩ := hmem
  rw [← hk]
  simp only at hk
  rw [hk] at hkv
  exact ⟨v, by rwa [hk], hall p hp v hkv⟩

theorem object_checks {ms : Members} (h : object properties (.obj ms)) :
    ∀ q ∈ ms, ∃ p ∈ properties, q.1 = codes p.1 ∧ p.2 q.2 := by
  obtain ⟨ms', heq, hperm, hall⟩ := h
  cases heq
  intro q hq
  have hmem := hperm.mem_iff.mp (List.mem_map_of_mem (f := Prod.fst) hq)
  rw [List.mem_map] at hmem
  obtain ⟨p, hp, hkey⟩ := hmem
  exact ⟨p, hp, hkey.symm, hall p hp q.2 (by rw [hkey]; exact hq)⟩

/- The keys of an object that is read back are those that were written. -/
theorem object_keys {ms : Members} (hnamed : Named properties) (h : object properties (.obj ms)) :
    (rereadMembers true ms).map Prod.fst = ms.map Prod.fst := by
  rw [rereadMembers_eq, List.map_map]
  apply List.map_congr_left
  intro q hq
  obtain ⟨p, hp, hkey, -⟩ := object_checks h q hq
  simp only [Function.comp_apply, hkey]
  exact hnamed.2 p hp

theorem object_nodup {ms : Members} (hnamed : Named properties) (h : object properties (.obj ms)) :
    (ms.map Prod.fst).Nodup := by
  obtain ⟨ms', heq, hperm, -⟩ := h
  cases heq
  exact hperm.nodup_iff.mpr hnamed.1

/- What a property holds in the object that is read back. -/
theorem object_get {ms : Members} (hnamed : Named properties) (h : object properties (.obj ms))
    {p : String × Check} (hp : p ∈ properties) : ∃ value, p.2 value ∧ get ms (codes p.1) = some value ∧
      get (rereadMembers true ms) (codes p.1) = some (reread true value) := by
  obtain ⟨value, hmem, hcheck⟩ := object_member h hp
  have hn := object_nodup hnamed h
  refine ⟨value, hcheck, lookup_of_mem hn hmem, lookup_of_mem ?_ ?_⟩
  · rw [object_keys hnamed h]
    exact hn
  · rw [rereadMembers_eq, List.mem_map]
    exact ⟨_, hmem, by simp only [hnamed.2 p hp]⟩

theorem object_has {ms : Members} (hnamed : Named properties) (h : object properties (.obj ms)) (key : String) :
    has (rereadMembers true ms) key = (properties.map fun p => codes p.1).contains (codes key) := by
  rw [Bool.eq_iff_iff, has_iff, object_keys hnamed h, List.contains_iff_mem]
  obtain ⟨ms', heq, hperm, -⟩ := h
  cases heq
  exact hperm.mem_iff

theorem object_absent {ms : Members} (hnamed : Named properties) (h : object properties (.obj ms)) {key : String}
    (hkey : codes key ∉ properties.map fun p => codes p.1) : get (rereadMembers true ms) (codes key) = none := by
  apply get_absent
  rw [object_keys hnamed h]
  obtain ⟨ms', heq, hperm, -⟩ := h
  cases heq
  rwa [hperm.mem_iff]

end object

/-! ## Values that can be written and read -/

/-- Written without floats, no deeper than a bound, and without an object that begins with a `v`. -/
structure Tame (depth : ℕ) (v : PyJson) : Prop where
  plain : Plain true v
  depth : nesting v ≤ depth
  keys : ∀ u ∈ parts v, otherKeys u

theorem tame_string {s : Str} (h : isText s) : Tame 0 (.str s) :=
  ⟨h, Nat.le_refl 0, by simp [parts, otherKeys]⟩

theorem tame_null : Tame 0 .null := ⟨trivial, Nat.le_refl 0, by simp [parts, otherKeys]⟩

theorem partsItems_forall {Q : PyJson → Prop} {vs : List PyJson} (h : ∀ v ∈ vs, ∀ u ∈ parts v, Q u) :
    ∀ u ∈ partsItems vs, Q u := by
  induction vs with
  | nil => intro u hu; cases hu
  | cons v vs ih =>
    rw [List.forall_mem_cons] at h
    rw [partsItems, List.forall_mem_append]
    exact ⟨h.1, ih h.2⟩

theorem partsMembers_forall {Q : PyJson → Prop} {ms : Members} (h : ∀ p ∈ ms, ∀ u ∈ parts p.2, Q u) :
    ∀ u ∈ partsMembers ms, Q u := by
  induction ms with
  | nil => intro u hu; cases hu
  | cons p ms ih =>
    rw [List.forall_mem_cons] at h
    rw [partsMembers, List.forall_mem_append]
    exact ⟨h.1, ih h.2⟩

theorem tame_array {depth : ℕ} {items : List PyJson} (h : ∀ v ∈ items, Tame depth v) :
    Tame (depth + 1) (.arr items) := by
  refine ⟨?_, ?_, ?_⟩
  · rw [Plain, plainItems_iff]
    exact fun v hv => (h v hv).plain
  · rw [nesting]
    have hitems := nestingItems_le fun v hv => (h v hv).depth
    omega
  · rw [parts, List.forall_mem_cons]
    exact ⟨trivial, partsItems_forall fun v hv => (h v hv).keys⟩

theorem plain_object {properties : List (String × Check)} {ms : Members} (hnamed : Named properties)
    (h : object properties (.obj ms)) (htext : ∀ p ∈ ms, isText p.1) (hplain : ∀ p ∈ ms, Plain true p.2) :
    Plain true (.obj ms) := by
  rw [Plain, plainMembers_iff]
  refine ⟨?_, fun p hp => ⟨htext p hp, hplain p hp⟩⟩
  have hkeys := object_keys hnamed h
  rw [rereadMembers_eq, List.map_map] at hkeys
  have hn := object_nodup hnamed h
  rw [← hkeys] at hn
  exact hn

theorem tame_object {depth : ℕ} {properties : List (String × Check)} {ms : Members} (hnamed : Named properties)
    (hfirst : ∀ p ∈ properties, (codes p.1).head? ≠ some 118) (h : object properties (.obj ms))
    (htext : ∀ p ∈ ms, isText p.1) (hall : ∀ p ∈ ms, Tame depth p.2) : Tame (depth + 1) (.obj ms) := by
  refine ⟨plain_object hnamed h htext fun p hp => (hall p hp).plain, ?_, ?_⟩
  · rw [nesting]
    have hmembers := nestingMembers_le fun p hp => (hall p hp).depth
    omega
  · rw [parts, List.forall_mem_cons]
    refine ⟨?_, partsMembers_forall fun p hp => (hall p hp).keys⟩
    intro q hq
    obtain ⟨p, hp, hkey, -⟩ := object_checks h q (List.mem_of_mem_head? hq)
    rw [hkey]
    exact hfirst p hp

theorem Tame.mono {depth depth' : ℕ} {v : PyJson} (h : Tame depth v) (hle : depth ≤ depth') : Tame depth' v :=
  ⟨h.plain, Nat.le_trans h.depth hle, h.keys⟩

theorem Textual.item {items : List PyJson} (h : Textual (.arr items)) : ∀ v ∈ items, Textual v :=
  forall_parts_arr h

theorem Textual.member {ms : Members} (h : Textual (.obj ms)) : ∀ p ∈ ms, Textual p.2 :=
  forall_parts_obj h

theorem Textual.key {ms : Members} (h : Textual (.obj ms)) : ∀ p ∈ ms, isText p.1 :=
  fun p hp => h _ (parts_self _) p.1 (List.mem_map_of_mem hp)

theorem Textual.string {s : Str} (h : Textual (.str s)) : isText s :=
  h _ (parts_self _) s (by simp [texts])

/-! ### The schemas are tame -/

/-- Every textual value that passes a check is tame. -/
def Tames (depth : ℕ) (c : Check) : Prop := ∀ v, c v → Textual v → Tame depth v

theorem tames_isString : Tames 0 isString := by
  rintro v ⟨s, rfl⟩ htext
  exact tame_string htext.string

theorem tames_oneOf (words : List String) : Tames 0 (oneOf words) := by
  rintro v ⟨w, -, rfl⟩ htext
  exact tame_string htext.string

theorem tames_orNull {depth : ℕ} {c : Check} (hc : Tames depth c) : Tames depth (orNull c) := by
  rintro v (rfl | hv) htext
  · exact tame_null.mono (Nat.zero_le _)
  · exact hc v hv htext

theorem tames_arrayOf {depth : ℕ} {c : Check} (hc : Tames depth c) : Tames (depth + 1) (arrayOf c) := by
  rintro v ⟨items, rfl, hall⟩ htext
  exact tame_array fun item hitem => hc item (hall item hitem) (htext.item item hitem)

theorem Tames.mono {depth depth' : ℕ} {c : Check} (h : Tames depth c) (hle : depth ≤ depth') : Tames depth' c :=
  fun v hv htext => (h v hv htext).mono hle

theorem object_tame {depth : ℕ} {properties : List (String × Check)} {ms : Members}
    (h : object properties (.obj ms)) (hall : ∀ p ∈ properties, Tames depth p.2) (htext : Textual (.obj ms)) :
    ∀ q ∈ ms, Tame depth q.2 := by
  intro q hq
  obtain ⟨p, hp, -, hcheck⟩ := object_checks h q hq
  exact hall p hp q.2 hcheck (htext.member q hq)

theorem named_finding : Named [("severity", oneOf ["blocking", "note"]), ("file", orNull isString), ("detail", isString)] := by
  refine ⟨by decide, ?_⟩
  simp only [List.forall_mem_cons]
  exact ⟨by decide, by decide, by decide, by simp⟩

theorem tames_finding : Tames 1 findingSchema := by
  intro v h htext
  obtain ⟨ms, rfl, -⟩ := id h
  refine tame_object named_finding ?_ h htext.key (object_tame h ?_ htext)
  · simp only [List.forall_mem_cons]
    exact ⟨by decide, by decide, by decide, by simp⟩
  · simp only [List.forall_mem_cons]
    exact ⟨tames_oneOf _, tames_orNull tames_isString, tames_isString, by simp⟩

end ParallelForge.Direct
