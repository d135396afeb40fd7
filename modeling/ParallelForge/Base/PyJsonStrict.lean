import ParallelForge.Base.PyJsonHook

/-!
# Written values under a strict hook

A hook that takes the pairs of an object as they are, and may refuse one that names a key
twice, gives a written value back whole. Sorting the keys of a value changes neither what
can be written of it nor what a key finds in it.
-/

namespace ParallelForge.Base.PyJson
open Json

section strict
variable {ε : Type} {failure : ε} {readFloat : FloatText → Option FloatText}
  {hook : List (Str × PyJson) → Except ε PyJson} {spaced ascii : Bool}

/-- The hook keeps an object without a repeated key. -/
def Keeps (hook : List (Str × PyJson) → Except ε PyJson) : Prop :=
  ∀ pairs, (pairs.map Prod.fst).Nodup → hook pairs = .ok (.obj pairs)

def ReadsHooked (failure : ε) (readFloat : FloatText → Option FloatText)
    (hook : List (Str × PyJson) → Except ε PyJson) (spaced ascii : Bool) (v : PyJson) : Prop :=
  ∀ n rest, (render spaced ascii v).length ≤ n → Closed rest →
    readHooked failure readFloat hook n (render spaced ascii v ++ rest) = .ok (reread ascii v, rest)

/- A value that is no array and no object. -/
theorem readsHooked_leaf (v : PyJson) (hplain : Plain ascii v)
    (hhead : ∃ c t, render spaced ascii v = c :: t ∧ c ≠ 91 ∧ c ≠ 123) :
    ReadsHooked failure readFloat hook spaced ascii v := by
  intro n rest hn hrest
  have hread : readValue readFloat n (render spaced ascii v ++ rest) = some (reread ascii v, rest) :=
    reads_render v hplain n rest hn hrest
  obtain ⟨c, t, ht, harr, hobj⟩ := hhead
  rw [ht, List.cons_append] at hread ⊢
  cases n with
  | zero => cases hread
  | succ n =>
    rw [readHooked, if_neg harr, if_neg hobj, hread]
    rfl

/- Induction on the items behind the first. -/
theorem readHookedItems_render (vs : List PyJson) (rest : Str) : ∀ (v : PyJson) (n : ℕ),
    (∀ w ∈ v :: vs, Plain ascii w ∧ ReadsHooked failure readFloat hook spaced ascii w) →
    (render spaced ascii v ++ renderItems spaced ascii vs).length ≤ n →
    readHookedItems failure readFloat hook n (render spaced ascii v ++ (renderItems spaced ascii vs ++ rest)) =
      .ok ((v :: vs).map (reread ascii), rest) := by
  induction vs with
  | nil =>
    intro v n hreads hn
    rw [List.length_append, renderItems, List.length_singleton] at hn
    cases n with
    | zero => omega
    | succ n =>
      have hv := (hreads v (by simp)).2 n (renderItems spaced ascii [] ++ rest) (by omega) (closed_items [] rest)
      have hclose : skip (renderItems spaced ascii [] ++ rest) = 93 :: rest := skip_cons 93 rest rfl
      simp only [readHookedItems, hv, hclose, bind, Except.bind, pure, Except.pure, if_true]
      rfl
  | cons w vs ih =>
    intro v n hreads hn
    rw [renderItems, List.length_append, List.length_cons, List.length_append] at hn
    cases n with
    | zero => omega
    | succ n =>
      have hv := (hreads v (by simp)).2 n (renderItems spaced ascii (w :: vs) ++ rest) (by omega)
        (closed_items (w :: vs) rest)
      have hnext : skip (renderItems spaced ascii (w :: vs) ++ rest) =
          44 :: (gap spaced ++ (render spaced ascii w ++ (renderItems spaced ascii vs ++ rest))) := by
        rw [renderItems, List.cons_append, List.append_assoc, List.append_assoc]
        exact skip_cons 44 _ rfl
      have hrest := ih w n (fun x hx => hreads x (List.mem_cons_of_mem v hx)) (by omega)
      have hw := (hreads w (by simp)).1
      simp only [readHookedItems, hv, hnext, skip_gap, skip_render w hw, hrest, bind, Except.bind, pure, Except.pure,
        if_true]
      rfl

/- Induction on the members behind the first; each turn of the reader takes one. -/
theorem readHookedMembers_render (ms : List (Str × PyJson)) (rest : Str) : ∀ (k : Str) (v : PyJson) (n : ℕ),
    (∀ p ∈ (k, v) :: ms, isText p.1 ∧ Plain ascii p.2 ∧ ReadsHooked failure readFloat hook spaced ascii p.2) →
    (render spaced ascii v ++ renderMembers spaced ascii ms).length < n →
    readHookedMembers failure readFloat hook n (stringText ascii k ++ 58 :: (gap spaced ++
        (render spaced ascii v ++ (renderMembers spaced ascii ms ++ rest)))) =
      .ok (((k, v) :: ms).map fun p => (rejoin ascii p.1, reread ascii p.2), rest) := by
  induction ms with
  | nil =>
    intro k v n hall hn
    rw [List.length_append, renderMembers, List.length_singleton] at hn
    cases n with
    | zero => omega
    | succ n =>
      obtain ⟨hk, hplain, hreads⟩ : isText k ∧ Plain ascii v ∧ ReadsHooked failure readFloat hook spaced ascii v :=
        hall (k, v) (by simp)
      have hv := hreads n (renderMembers spaced ascii [] ++ rest) (by omega) (closed_members [] rest)
      have hclose : skip (renderMembers spaced ascii [] ++ rest) = 125 :: rest := skip_cons 125 rest rfl
      simp only [readHookedMembers, expect_key, scanString_rejoin k _ hk, skip_cons 58 _ rfl, expect_self, skip_gap,
        skip_render v hplain, hv, hclose, orRaise, bind, Except.bind, pure, Except.pure, if_true]
      rfl
  | cons p ms ih =>
    obtain ⟨k', v'⟩ := p
    intro k v n hall hn
    simp only [renderMembers, List.length_append, List.length_cons] at hn
    cases n with
    | zero => omega
    | succ n =>
      obtain ⟨hk, hplain, hreads⟩ : isText k ∧ Plain ascii v ∧ ReadsHooked failure readFloat hook spaced ascii v :=
        hall (k, v) (by simp)
      have hv := hreads n (renderMembers spaced ascii ((k', v') :: ms) ++ rest) (by omega)
        (closed_members ((k', v') :: ms) rest)
      have hnext : skip (renderMembers spaced ascii ((k', v') :: ms) ++ rest) =
          44 :: (gap spaced ++ (stringText ascii k' ++ 58 :: (gap spaced ++
            (render spaced ascii v' ++ (renderMembers spaced ascii ms ++ rest))))) := by
        simp only [renderMembers, List.cons_append, List.append_assoc]
        exact skip_cons 44 _ rfl
      have hrest := ih k' v' n (fun x hx => hall x (List.mem_cons_of_mem _ hx)) (by
        rw [List.length_append]
        omega)
      simp only [readHookedMembers, expect_key, scanString_rejoin k _ hk, skip_cons 58 _ rfl, expect_self, skip_gap,
        skip_render v hplain, hv, hnext, skip_key, hrest, orRaise, bind, Except.bind, pure, Except.pure, if_true]
      rfl

theorem expect_close (v : PyJson) (h : Plain ascii v) (more : Str) :
    expect [93] (render spaced ascii v ++ more) = none := by
  have hhead : ∃ c s, render spaced ascii v = c :: s ∧ Opens c := render_head v h
  obtain ⟨c, s, hs, hc⟩ := hhead
  rw [hs, List.cons_append, expect_other 93 c _ (opens_facts hc).2.1]

/-- A written value is read back under a hook that keeps objects. -/
theorem readsHooked_render (hkeeps : Keeps hook) (v : PyJson) :
    Plain ascii v → ReadsHooked failure readFloat hook spaced ascii v := by
  induction v using induct with
  | null => exact fun h => readsHooked_leaf _ h ⟨110, [117, 108, 108], rfl, by decide, by decide⟩
  | bool b =>
    intro h
    cases b with
    | true => exact readsHooked_leaf _ h ⟨116, [114, 117, 101], rfl, by decide, by decide⟩
    | false => exact readsHooked_leaf _ h ⟨102, [97, 108, 115, 101], rfl, by decide, by decide⟩
  | int z =>
    intro h
    obtain ⟨c, r, hr, hc⟩ := intText_head z
    refine readsHooked_leaf _ h ⟨c, r, by rw [render, hr], ?_⟩
    simp only [isDigit, Bool.and_eq_true, decide_eq_true_eq] at hc
    omega
  | float f => exact fun h => absurd h (by simp [Plain])
  | constant c => exact fun h => absurd h (by simp [Plain])
  | str s => exact fun h => readsHooked_leaf _ h ⟨34, _, by rw [render, stringText], by decide, by decide⟩
  | arr vs ih =>
    intro h n rest hn _
    rw [Plain, plainItems_iff] at h
    cases n with
    | zero => cases vs <;> simp [render] at hn
    | succ n =>
      cases vs with
      | nil => rw [render]; rfl
      | cons v vs =>
        rw [render, List.length_cons] at hn
        have hitems : readHookedItems failure readFloat hook n
            (render spaced ascii v ++ (renderItems spaced ascii vs ++ rest)) = .ok ((v :: vs).map (reread ascii), rest) :=
          readHookedItems_render vs rest v n (fun w hw => ⟨h w hw, ih w hw (h w hw)⟩) (by omega)
        have hplain := h v (by simp)
        rw [render, List.cons_append, List.append_assoc, readHooked, if_pos rfl, skip_render v hplain,
          expect_close v hplain, hitems, reread, rereadItems_eq]
        rfl
  | obj ms ih =>
    intro h n rest hn _
    rw [Plain, plainMembers_iff] at h
    cases n with
    | zero => cases ms <;> simp [render] at hn
    | succ n =>
      cases ms with
      | nil =>
        rw [render, List.cons_append, readHooked, if_neg (by decide), if_pos rfl]
        have hempty : expect [125] (skip ([125] ++ rest)) = some rest := rfl
        rw [hempty, hkeeps [] List.nodup_nil]
        rfl
      | cons p ms =>
        obtain ⟨k, v⟩ := p
        rw [render, List.length_cons, List.length_append, List.length_cons, List.length_append] at hn
        have hmembers : readHookedMembers failure readFloat hook n (stringText ascii k ++ 58 :: (gap spaced ++
            (render spaced ascii v ++ (renderMembers spaced ascii ms ++ rest)))) =
            .ok (((k, v) :: ms).map fun p => (rejoin ascii p.1, reread ascii p.2), rest) :=
          readHookedMembers_render ms rest k v n (fun p hp => ⟨(h.2 p hp).1, (h.2 p hp).2, ih p hp (h.2 p hp).2⟩)
            (by omega)
        have hopen : ∀ more : Str, expect [125] (stringText ascii k ++ more) = none := by
          intro more
          rw [stringText, List.cons_append, expect_other 125 34 _ (by decide)]
        have hkeys : ((((k, v) :: ms).map fun p => (rejoin ascii p.1, reread ascii p.2)).map Prod.fst).Nodup := by
          rw [List.map_map]
          exact h.1
        rw [render, List.cons_append, List.append_assoc, List.cons_append, List.append_assoc, List.append_assoc,
          readHooked, if_neg (by decide), if_pos rfl, skip_key, hopen, hmembers, reread, rereadMembers_eq]
        simp only [bind, Except.bind, pure, Except.pure, hkeeps _ hkeys]

/-- The whole text of a value is read back. -/
theorem loadsHooked_render (hkeeps : Keeps hook) (v : PyJson) (h : Plain ascii v) :
    loadsHooked failure readFloat hook (render spaced ascii v) = .ok (reread ascii v) := by
  have hreads : ReadsHooked failure readFloat hook spaced ascii v := readsHooked_render hkeeps v h
  have hwhole := hreads (render spaced ascii v).length [] (Nat.le_refl _) closed_nil
  have hskip : skip (render spaced ascii v ++ []) = render spaced ascii v ++ [] := skip_render v h []
  rw [List.append_nil] at hwhole hskip
  unfold loadsHooked
  rw [hskip, hwhole]
  rfl

end strict

/-! ## Sorted keys -/

theorem sortKeysItems_eq (vs : List PyJson) : sortKeysItems vs = vs.map sortKeys := by
  induction vs with
  | nil => rfl
  | cons v vs ih => rw [sortKeysItems, ih, List.map_cons]

theorem sortKeysMembers_eq (ms : List (Str × PyJson)) :
    sortKeysMembers ms = ms.map fun p => (p.1, sortKeys p.2) := by
  induction ms with
  | nil => rfl
  | cons p ms ih =>
    obtain ⟨k, v⟩ := p
    rw [sortKeysMembers, ih, List.map_cons]

/-- The members of an object with sorted keys. -/
def sortedMembers (ms : List (Str × PyJson)) : List (Str × PyJson) :=
  (ms.map fun p => (p.1, sortKeys p.2)).insertionSort fun p q => p.1 ≤ q.1

theorem sortKeys_obj (ms : List (Str × PyJson)) : sortKeys (.obj ms) = .obj (sortedMembers ms) := by
  rw [sortKeys, sortKeysMembers_eq]
  rfl

theorem sortKeys_arr (vs : List PyJson) : sortKeys (.arr vs) = .arr (vs.map sortKeys) := by
  rw [sortKeys, sortKeysItems_eq]

theorem sortedMembers_perm (ms : List (Str × PyJson)) :
    (sortedMembers ms).Perm (ms.map fun p => (p.1, sortKeys p.2)) := List.perm_insertionSort _ _

theorem sortedMembers_keys (ms : List (Str × PyJson)) :
    ((sortedMembers ms).map Prod.fst).Perm (ms.map Prod.fst) := by
  have h := (sortedMembers_perm ms).map Prod.fst
  rwa [List.map_map] at h

theorem plain_sortKeys (ascii : Bool) (v : PyJson) : Plain ascii v → Plain ascii (sortKeys v) := by
  induction v using induct with
  | null => exact fun h => h
  | bool b => exact fun h => h
  | int z => exact fun h => h
  | float f => exact fun h => h
  | constant c => exact fun h => h
  | str s => exact fun h => h
  | arr vs ih =>
    intro h
    rw [sortKeys_arr]
    rw [Plain, plainItems_iff] at h ⊢
    intro w hw
    obtain ⟨v, hv, rfl⟩ := List.mem_map.mp hw
    exact ih v hv (h v hv)
  | obj ms ih =>
    intro h
    rw [sortKeys_obj]
    rw [Plain, plainMembers_iff] at h ⊢
    refine ⟨?_, ?_⟩
    · have hperm := (sortedMembers_perm ms).map fun p => rejoin ascii p.1
      rw [List.map_map] at hperm
      exact hperm.nodup_iff.mpr h.1
    · intro p hp
      obtain ⟨q, hq, rfl⟩ := List.mem_map.mp ((sortedMembers_perm ms).mem_iff.mp hp)
      exact ⟨(h.2 q hq).1, ih q hq (h.2 q hq).2⟩

/- A value that is written without escapes is read back as it was. -/
theorem reread_open (v : PyJson) : Plain false v → reread false v = v := by
  induction v using induct with
  | null => exact fun _ => rfl
  | bool b => exact fun _ => rfl
  | int z => exact fun _ => rfl
  | float f => exact fun _ => rfl
  | constant c => exact fun _ => rfl
  | str s => exact fun h => congrArg PyJson.str (rejoin_open h)
  | arr vs ih =>
    intro h
    rw [Plain, plainItems_iff] at h
    rw [reread, rereadItems_eq]
    have hsame : vs.map (reread false) = vs.map id := List.map_congr_left fun v hv => ih v hv (h v hv)
    rw [hsame, List.map_id]
  | obj ms ih =>
    intro h
    rw [Plain, plainMembers_iff] at h
    rw [reread, rereadMembers_eq]
    have hsame : (ms.map fun p => (rejoin false p.1, reread false p.2)) = ms.map id := by
      refine List.map_congr_left fun p hp => ?_
      exact Prod.ext (rejoin_open (h.2 p hp).1) (ih p hp (h.2 p hp).2)
    rw [hsame, List.map_id]

/-! ## Keys -/

section keys
variable {α : Type}

/- Without repeated keys the list is searched in any order. -/
theorem lookup_eq_some (ms : List (Str × α)) (hn : (ms.map Prod.fst).Nodup) (k : Str) (v : α) :
    ms.lookup k = some v ↔ (k, v) ∈ ms := by
  induction ms with
  | nil => simp
  | cons p ms ih =>
    obtain ⟨k', v'⟩ := p
    rw [List.map_cons, List.nodup_cons] at hn
    rw [List.lookup_cons, List.mem_cons, Prod.mk.injEq]
    cases hk : k == k' with
    | true =>
      have heq : k = k' := beq_iff_eq.mp hk
      subst heq
      have hnot : (k, v) ∉ ms := fun hmem => hn.1 (List.mem_map.mpr ⟨_, hmem, rfl⟩)
      simp [hnot, eq_comm]
    | false =>
      have hne : k ≠ k' := fun heq => by simp [heq] at hk
      simp [hne, ih hn.2]

theorem lookup_perm {ms ns : List (Str × α)} (h : ms.Perm ns) (hn : (ms.map Prod.fst).Nodup) (k : Str) :
    ms.lookup k = ns.lookup k := by
  apply Option.ext
  intro v
  rw [lookup_eq_some ms hn, lookup_eq_some ns ((h.map Prod.fst).nodup_iff.mp hn), h.mem_iff]

theorem lookup_map {β : Type} (ms : List (Str × α)) (f : α → β) (k : Str) :
    (ms.map fun p => (p.1, f p.2)).lookup k = (ms.lookup k).map f := by
  induction ms with
  | nil => rfl
  | cons p ms ih =>
    rw [List.map_cons, List.lookup_cons, List.lookup_cons]
    cases k == p.1 with
    | true => rfl
    | false => exact ih

theorem isText_codes (s : String) : isText (codes s) := by
  intro c hc
  obtain ⟨letter, -, rfl⟩ := List.mem_map.mp hc
  have hvalid : letter.toNat.isValidChar := letter.valid
  unfold Nat.isValidChar at hvalid
  omega

/- The keys that the source names. -/
theorem lookup_codes (entries : List (String × α)) (key : String) :
    (entries.map fun p => (codes p.1, p.2)).lookup (codes key) = entries.lookup key := by
  induction entries with
  | nil => rfl
  | cons p entries ih =>
    rw [List.map_cons, List.lookup_cons, List.lookup_cons]
    cases hkey : key == p.1 with
    | true =>
      have heq : (codes key == codes p.1) = true := by rw [beq_iff_eq.mp hkey, beq_self_eq_true]
      rw [heq]
    | false =>
      have hne : (codes key == codes p.1) = false :=
        beq_eq_false_iff_ne.mpr fun heq => beq_eq_false_iff_ne.mp hkey (codes_injective heq)
      rw [hne]
      exact ih

end keys

theorem lookup_sortedMembers (ms : List (Str × PyJson)) (hn : (ms.map Prod.fst).Nodup) (k : Str) :
    (sortedMembers ms).lookup k = (ms.lookup k).map sortKeys := by
  rw [lookup_perm (sortedMembers_perm ms) ((sortedMembers_keys ms).nodup_iff.mpr hn), lookup_map]

end ParallelForge.Base.PyJson
