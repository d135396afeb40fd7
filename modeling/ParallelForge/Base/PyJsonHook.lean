import ParallelForge.Base.PyJsonRoundTrip
import ParallelForge.Base.Result

/-!
# JSON as `json.loads` reads it with a hook

`object_pairs_hook` is given the pairs of every object, inner objects first, and may
raise. A written object without arrays or objects in it reaches the hook as it was.
-/

namespace ParallelForge.Base.PyJson
open Json

section reading
variable {ε : Type} (failure : ε) (readFloat : FloatText → Option FloatText)
  (hook : List (Str × PyJson) → Except ε PyJson)

mutual
/-- `scan_once` with `object_pairs_hook`; `failure` is raised where the text is no JSON. -/
def readHooked : ℕ → Str → Except ε (PyJson × Str)
  | 0, _ => .error failure
  | _ + 1, [] => .error failure
  | n + 1, c :: s =>
    if c = 91 then
      match expect [93] (skip s) with
      | some rest => .ok (.arr [], rest)
      | none => (readHookedItems n (skip s)).map fun r => (.arr r.1, r.2)
    else if c = 123 then
      match expect [125] (skip s) with
      | some rest => (hook []).map fun v => (v, rest)
      | none => do
        let (pairs, rest) ← readHookedMembers n (skip s)
        let v ← hook pairs
        return (v, rest)
    else orRaise (readValue readFloat (n + 1) (c :: s)) failure

def readHookedItems : ℕ → Str → Except ε (List PyJson × Str)
  | 0, _ => .error failure
  | n + 1, s => do
    let (v, rest) ← readHooked n s
    match skip rest with
    | [] => .error failure
    | c :: rest =>
      if c = 93 then return ([v], rest)
      else if c = 44 then
        let (vs, rest) ← readHookedItems n (skip rest)
        return (v :: vs, rest)
      else .error failure

def readHookedMembers : ℕ → Str → Except ε (List (Str × PyJson) × Str)
  | 0, _ => .error failure
  | n + 1, s => do
    let s ← orRaise (expect [34] s) failure
    let (k, s) ← orRaise (scanString s) failure
    let s ← orRaise (expect [58] (skip s)) failure
    let (v, rest) ← readHooked n (skip s)
    match skip rest with
    | [] => .error failure
    | c :: rest =>
      if c = 125 then return ([(k, v)], rest)
      else if c = 44 then
        let (ms, rest) ← readHookedMembers n (skip rest)
        return ((k, v) :: ms, rest)
      else .error failure
end

/-- `json.loads(s, object_pairs_hook=hook)`. -/
def loadsHooked (s : Str) : Except ε PyJson := do
  let (v, rest) ← readHooked failure readFloat hook s.length (skip s)
  require (skip rest = []) failure
  return v

end reading

mutual
/-- `sort_keys=True`. -/
def sortKeys : PyJson → PyJson
  | .arr vs => .arr (sortKeysItems vs)
  | .obj ms => .obj ((sortKeysMembers ms).insertionSort fun p q => p.1 ≤ q.1)
  | .null => .null
  | .bool b => .bool b
  | .int z => .int z
  | .float f => .float f
  | .constant c => .constant c
  | .str s => .str s

def sortKeysItems : List PyJson → List PyJson
  | [] => []
  | v :: vs => sortKeys v :: sortKeysItems vs

def sortKeysMembers : List (Str × PyJson) → List (Str × PyJson)
  | [] => []
  | (k, v) :: ms => (k, sortKeys v) :: sortKeysMembers ms
end

/-! ## Flat objects -/

/-- `isinstance(value, (str, type(None)))`. -/
def isTextOrNone : PyJson → Bool
  | .str _ => true
  | .null => true
  | _ => false

section flat
variable {ε : Type} {failure : ε} {readFloat : FloatText → Option FloatText}
  {hook : List (Str × PyJson) → Except ε PyJson} {spaced ascii : Bool}

theorem readHooked_leaf (v : PyJson) (hleaf : isTextOrNone v = true) (hplain : Plain ascii v) (n : ℕ) (rest : Str)
    (hn : (render spaced ascii v).length ≤ n) (hrest : Closed rest) :
    readHooked failure readFloat hook n (render spaced ascii v ++ rest) = .ok (reread ascii v, rest) := by
  have hread : readValue readFloat n (render spaced ascii v ++ rest) = some (reread ascii v, rest) :=
    reads_render v hplain n rest hn hrest
  have hhead : ∃ c t, render spaced ascii v = c :: t ∧ c ≠ 91 ∧ c ≠ 123 := by
    cases v with
    | null => exact ⟨110, [117, 108, 108], rfl, by decide, by decide⟩
    | str s => exact ⟨34, _, by rw [render, stringText], by decide, by decide⟩
    | bool b => cases hleaf
    | int z => cases hleaf
    | float f => cases hleaf
    | constant c => cases hleaf
    | arr vs => cases hleaf
    | obj ms => cases hleaf
  obtain ⟨c, t, ht, harr, hobj⟩ := hhead
  rw [ht, List.cons_append] at hread ⊢
  cases n with
  | zero => cases hread
  | succ n =>
    rw [readHooked, if_neg harr, if_neg hobj, hread]
    rfl

/- Induction on the members behind the first; each turn of the reader takes one. -/
theorem readHookedMembers_flat (ms : List (Str × PyJson)) (rest : Str) : ∀ (k : Str) (v : PyJson) (n : ℕ),
    (∀ p ∈ (k, v) :: ms, isText p.1 ∧ Plain ascii p.2 ∧ isTextOrNone p.2 = true) →
    (render spaced ascii v ++ renderMembers spaced ascii ms).length < n →
    readHookedMembers failure readFloat hook n (stringText ascii k ++ 58 :: (gap spaced ++
        (render spaced ascii v ++ (renderMembers spaced ascii ms ++ rest)))) =
      .ok (((k, v) :: ms).map fun p => (rejoin ascii p.1, reread ascii p.2), rest) := by
  induction ms with
  | nil =>
    intro k v n hall hn
    rw [List.length_append, renderMembers, List.length_singleton] at hn
    cases n with
    | zero => omega
    | succ n =>
      obtain ⟨hk, hplain, hleaf⟩ := hall (k, v) (by simp)
      have hv : readHooked failure readFloat hook n (render spaced ascii v ++ (renderMembers spaced ascii [] ++ rest)) =
          .ok (reread ascii v, renderMembers spaced ascii [] ++ rest) :=
        readHooked_leaf v hleaf hplain n _ (by omega) (closed_members [] rest)
      have hclose : skip (renderMembers spaced ascii [] ++ rest) = 125 :: rest := skip_cons 125 rest rfl
      simp only [readHookedMembers, expect_key, scanString_rejoin k _ hk, skip_cons 58 _ rfl, expect_self, skip_gap,
        skip_render v hplain, hv, hclose, orRaise, bind, Except.bind, pure, Except.pure, if_true]
      rfl
  | cons p ms ih =>
    obtain ⟨k', v'⟩ := p
    intro k v n hall hn
    simp only [renderMembers, List.length_append, List.length_cons] at hn
    cases n with
    | zero => omega
    | succ n =>
      obtain ⟨hk, hplain, hleaf⟩ := hall (k, v) (by simp)
      have hv : readHooked failure readFloat hook n
          (render spaced ascii v ++ (renderMembers spaced ascii ((k', v') :: ms) ++ rest)) =
          .ok (reread ascii v, renderMembers spaced ascii ((k', v') :: ms) ++ rest) :=
        readHooked_leaf v hleaf hplain n _ (by omega) (closed_members ((k', v') :: ms) rest)
      have hnext : skip (renderMembers spaced ascii ((k', v') :: ms) ++ rest) =
          44 :: (gap spaced ++ (stringText ascii k' ++ 58 :: (gap spaced ++
            (render spaced ascii v' ++ (renderMembers spaced ascii ms ++ rest))))) := by
        simp only [renderMembers, List.cons_append, List.append_assoc]
        exact skip_cons 44 _ rfl
      have hrest := ih k' v' n (fun x hx => hall x (List.mem_cons_of_mem _ hx)) (by
        rw [List.length_append]
        omega)
      simp only [readHookedMembers, expect_key, scanString_rejoin k _ hk, skip_cons 58 _ rfl, expect_self, skip_gap,
        skip_render v hplain, hv, hnext, skip_key, hrest, orRaise, bind, Except.bind, pure, Except.pure, if_true]
      rfl

/-- A written object of texts and `None` reaches the hook with its members in their order. -/
theorem loadsHooked_flat (k : Str) (v : PyJson) (ms : List (Str × PyJson))
    (hall : ∀ p ∈ (k, v) :: ms, isText p.1 ∧ Plain ascii p.2 ∧ isTextOrNone p.2 = true) :
    loadsHooked failure readFloat hook (render spaced ascii (.obj ((k, v) :: ms))) =
      hook (((k, v) :: ms).map fun p => (rejoin ascii p.1, reread ascii p.2)) := by
  have hopen : ∀ more : Str, expect [125] (stringText ascii k ++ more) = none := by
    intro more
    rw [stringText, List.cons_append, expect_other 125 34 _ (by decide)]
  have hskip : ∀ more : Str, skip (123 :: more) = 123 :: more := fun more => skip_cons 123 more rfl
  have hmembers : ∀ n, (render spaced ascii v ++ renderMembers spaced ascii ms).length < n →
      readHookedMembers failure readFloat hook n (stringText ascii k ++ 58 :: (gap spaced ++
        (render spaced ascii v ++ renderMembers spaced ascii ms))) =
      .ok (((k, v) :: ms).map fun p => (rejoin ascii p.1, reread ascii p.2), []) := by
    intro n hn
    have hread : readHookedMembers failure readFloat hook n (stringText ascii k ++ 58 :: (gap spaced ++
        (render spaced ascii v ++ (renderMembers spaced ascii ms ++ [])))) =
        .ok (((k, v) :: ms).map fun p => (rejoin ascii p.1, reread ascii p.2), []) :=
      readHookedMembers_flat ms [] k v n hall hn
    rwa [List.append_nil] at hread
  unfold loadsHooked
  rw [render, hskip, List.length_cons, readHooked, if_neg (by decide), if_pos rfl, skip_key, hopen,
    hmembers _ (by simp only [List.length_append, List.length_cons]; omega)]
  simp only [bind, Except.bind, pure, Except.pure]
  cases hook (((k, v) :: ms).map fun p => (rejoin ascii p.1, reread ascii p.2)) with
  | error e => rfl
  | ok w => rfl

end flat

end ParallelForge.Base.PyJson
