import ParallelForge.Base.Regex
import Mathlib.Data.List.TakeWhile
import Mathlib.Algebra.Order.Group.Nat

/-!
# What a backtracking matcher finds first

A loop over a class of letters ends first where the run of the class ends. A
match that asserts nothing depends only on the letters from its start on, and
one that ends within a common beginning of two texts is found in both.
-/

namespace ParallelForge.Base.Regex
variable {α : Type}

/-! ### Runs -/

/-- The letters of a class from a position on. -/
def run (p : α → Bool) (text : List α) (i : ℕ) : ℕ := ((text.drop i).takeWhile p).length

section run
variable {p : α → Bool} {text : List α} {i : ℕ}

theorem run_eq_zero (h : text[i]?.any p = false) : run p text i = 0 := by
  unfold run
  cases hdrop : text.drop i with
  | nil => rfl
  | cons a rest =>
    have hget : text[i]? = some a := by
      rw [← List.head?_drop, hdrop]
      rfl
    rw [hget] at h
    have ha : p a = false := h
    simp [ha]

theorem run_eq_succ (h : text[i]?.any p = true) : run p text i = run p text (i + 1) + 1 := by
  unfold run
  cases hdrop : text.drop i with
  | nil =>
    have hget : text[i]? = none := by
      rw [← List.head?_drop, hdrop]
      rfl
    rw [hget] at h
    cases h
  | cons a rest =>
    have hget : text[i]? = some a := by
      rw [← List.head?_drop, hdrop]
      rfl
    have hrest : text.drop (i + 1) = rest := by
      rw [← List.tail_drop, hdrop]
      rfl
    rw [hget] at h
    have ha : p a = true := h
    rw [hrest, List.takeWhile_cons, if_pos ha, List.length_cons]

theorem run_le_rest (p : α → Bool) (text : List α) (i : ℕ) : run p text i ≤ text.length - i := by
  have hle := (List.takeWhile_sublist (l := text.drop i) p).length_le
  rwa [List.length_drop] at hle

theorem getElem_of_run (k : ℕ) (hk : k < run p text i) : text[i + k]?.any p = true := by
  induction k generalizing i with
  | zero =>
    by_contra h
    rw [Nat.add_zero, Bool.not_eq_true] at h
    rw [run_eq_zero h] at hk
    omega
  | succ k ih =>
    have hfirst : text[i]?.any p = true := by
      by_contra h
      rw [Bool.not_eq_true] at h
      rw [run_eq_zero h] at hk
      omega
    rw [run_eq_succ hfirst] at hk
    have hrest := ih (i := i + 1) (by omega)
    rwa [Nat.add_assoc, Nat.add_comm 1 k] at hrest

theorem getElem_run_end : text[i + run p text i]?.any p = false := by
  generalize hn : run p text i = n
  induction n generalizing i with
  | zero =>
    by_contra h
    rw [Nat.add_zero, Bool.not_eq_false] at h
    rw [run_eq_succ h] at hn
    omega
  | succ n ih =>
    have hfirst : text[i]?.any p = true := by
      by_contra h
      rw [Bool.not_eq_true] at h
      rw [run_eq_zero h] at hn
      omega
    rw [run_eq_succ hfirst] at hn
    have hrest := ih (i := i + 1) (by omega)
    rwa [Nat.add_assoc, Nat.add_comm 1 n] at hrest

/- A run is known from its letters and the one behind it. -/
theorem run_eq (n : ℕ) (hin : ∀ k, k < n → text[i + k]?.any p = true)
    (hout : text[i + n]?.any p = false) : run p text i = n := by
  induction n generalizing i with
  | zero => exact run_eq_zero hout
  | succ n ih =>
    have hfirst := hin 0 (by omega)
    rw [Nat.add_zero] at hfirst
    have hrest : run p text (i + 1) = n := by
      refine ih (fun k hk => ?_) ?_
      · rw [Nat.add_assoc, Nat.add_comm 1 k]
        exact hin (k + 1) (by omega)
      · rwa [Nat.add_assoc, Nat.add_comm 1 n]
    rw [run_eq_succ hfirst, hrest]

theorem le_run (n : ℕ) (hin : ∀ k, k < n → text[i + k]?.any p = true) : n ≤ run p text i := by
  by_contra h
  rw [Nat.not_le] at h
  have hend := hin _ h
  rw [getElem_run_end] at hend
  cases hend

end run

/-! ### Loops over a class -/

section loops
variable {p : α → Bool} {text : List α}

theorem ends_chr_true {i : ℕ} (h : text[i]?.any p = true) : ends text (.chr p) i = [i + 1] := by
  rw [ends, if_pos h]

theorem ends_chr_false {i : ℕ} (h : text[i]?.any p = false) : ends text (.chr p) i = [] := by
  rw [ends, h]
  rfl

theorem mem_ends_chr {i j : ℕ} : j ∈ ends text (.chr p) i ↔ text[i]?.any p = true ∧ j = i + 1 := by
  cases h : text[i]?.any p with
  | false => simp [ends_chr_false h]
  | true => simp [ends_chr_true h]

theorem range_shift (i n : ℕ) :
    (List.range (n + 1)).map (i + ·) = i :: (List.range n).map (i + 1 + ·) := by
  rw [List.range_succ_eq_map, List.map_cons, List.map_map]
  congr 1
  refine List.map_congr_left fun k _ => ?_
  show i + (k + 1) = i + 1 + k
  omega

/- The greedy loop gives back one letter after the other. -/
theorem starEnds_chr (n : ℕ) (i : ℕ) (hn : run p text i ≤ n) :
    starEnds (ends text (.chr p)) n i =
      ((List.range (run p text i + 1)).map (i + ·)).reverse := by
  induction n generalizing i with
  | zero =>
    have hzero : run p text i = 0 := by omega
    rw [hzero]
    rfl
  | succ n ih =>
    rw [starEnds]
    cases h : text[i]?.any p with
    | false =>
      rw [ends_chr_false h, run_eq_zero h]
      rfl
    | true =>
      rw [run_eq_succ h] at hn ⊢
      have hlt : [i + 1].filter (fun j => decide (i < j)) = [i + 1] := by simp
      rw [ends_chr_true h, hlt, List.flatMap_cons, List.flatMap_nil, List.append_nil, ih (i + 1) (by omega), range_shift i,
        List.reverse_cons]

theorem ends_star_chr (i : ℕ) :
    ends text (.star (.chr p)) i = ((List.range (run p text i + 1)).map (i + ·)).reverse := by
  rw [ends]
  exact starEnds_chr _ i (run_le_rest p text i)

theorem lazyEnds_any (n i : ℕ) (hn : n = text.length - i) :
    lazyEnds (ends text (.chr fun _ => true)) n i = (List.range (n + 1)).map (i + ·) := by
  induction n generalizing i with
  | zero => rfl
  | succ n ih =>
    have hget : text[i]?.any (fun _ => true) = true := by
      rw [List.getElem?_eq_getElem (by omega)]
      rfl
    have hlt : [i + 1].filter (fun j => decide (i < j)) = [i + 1] := by simp
    rw [lazyEnds, ends_chr_true hget, hlt, List.flatMap_singleton, ih (i + 1) (by omega),
      range_shift i (n + 1)]

/- `.*?` of any letters may end anywhere. -/
theorem ends_lazy_any (i : ℕ) : ends text (.lazy (.chr fun _ => true)) i =
    (List.range (text.length - i + 1)).map (i + ·) :=
  lazyEnds_any _ i rfl

theorem mem_ends_star {i j : ℕ} :
    j ∈ ends text (.star (.chr p)) i ↔ i ≤ j ∧ j ≤ i + run p text i := by
  rw [ends_star_chr, List.mem_reverse, List.mem_map]
  constructor
  · rintro ⟨k, hk, rfl⟩
    rw [List.mem_range] at hk
    omega
  · rintro ⟨hle, hge⟩
    exact ⟨j - i, List.mem_range.mpr (by omega), by omega⟩

theorem head_ends_star (i : ℕ) :
    (ends text (.star (.chr p)) i).head? = some (i + run p text i) := by
  rw [ends_star_chr, List.head?_reverse, List.range_succ, List.map_append, List.map_singleton,
    List.getLast?_append]
  rfl

theorem mem_ends_atLeast {n i j : ℕ} :
    j ∈ ends text (atLeast (.chr p) n) i ↔ i + n ≤ j ∧ j ≤ i + run p text i := by
  induction n generalizing i with
  | zero => exact mem_ends_star
  | succ n ih =>
    rw [atLeast, ends, List.mem_flatMap]
    constructor
    · rintro ⟨k, hk, hj⟩
      obtain ⟨hfirst, rfl⟩ := mem_ends_chr.mp hk
      have hj' := ih.mp hj
      rw [run_eq_succ hfirst]
      omega
    · rintro ⟨hle, hge⟩
      have hfirst : text[i]?.any p = true := by
        by_contra h
        rw [Bool.not_eq_true] at h
        rw [run_eq_zero h] at hge
        omega
      rw [run_eq_succ hfirst] at hge
      exact ⟨i + 1, mem_ends_chr.mpr ⟨hfirst, rfl⟩, ih.mpr (by omega)⟩

theorem head_ends_atLeast (n i : ℕ) :
    (ends text (atLeast (.chr p) n) i).head? =
      if n ≤ run p text i then some (i + run p text i) else none := by
  induction n generalizing i with
  | zero =>
    rw [if_pos (Nat.zero_le _)]
    exact head_ends_star i
  | succ n ih =>
    rw [atLeast, ends]
    cases h : text[i]?.any p with
    | false =>
      rw [ends_chr_false h, run_eq_zero h, if_neg (by omega)]
      rfl
    | true =>
      rw [ends_chr_true h, List.flatMap_cons, List.flatMap_nil, List.append_nil, ih, run_eq_succ h]
      by_cases hle : n ≤ run p text (i + 1)
      · rw [if_pos hle, if_pos (by omega)]
        congr 1
        omega
      · rw [if_neg hle, if_neg (by omega)]

/- `atLeast r 1` is `plus r`. -/
theorem mem_ends_plus {i j : ℕ} :
    j ∈ ends text (plus (.chr p)) i ↔ i + 1 ≤ j ∧ j ≤ i + run p text i :=
  mem_ends_atLeast (n := 1)

theorem head_ends_plus (i : ℕ) : (ends text (plus (.chr p)) i).head? =
    if 1 ≤ run p text i then some (i + run p text i) else none :=
  head_ends_atLeast 1 i

end loops

/-! ### First matches of a sequence -/

section first
variable {text : List α} {β : Type}

/- Only one way to begin can be continued. -/
theorem head_flatMap_unique (l : List ℕ) (f : ℕ → List β) (k : ℕ) (hk : k ∈ l)
    (honly : ∀ k' ∈ l, k' ≠ k → f k' = []) : (l.flatMap f).head? = (f k).head? := by
  induction l with
  | nil => cases hk
  | cons a l ih =>
    rw [List.flatMap_cons, List.head?_append]
    by_cases ha : a = k
    · subst ha
      cases hf : (f a).head? with
      | some b => rfl
      | none =>
        rw [Option.none_or]
        have hnil : l.flatMap f = [] := by
          rw [List.flatMap_eq_nil_iff]
          intro b hb
          by_cases hba : b = a
          · rw [hba]
            exact List.head?_eq_none_iff.mp hf
          · exact honly b (List.mem_cons_of_mem _ hb) hba
        rw [hnil]
        rfl
    · have hfa : f a = [] := honly a (List.mem_cons_self ..) ha
      have hrest : k ∈ l := (List.mem_cons.mp hk).resolve_left fun h => ha h.symm
      rw [hfa]
      exact ih hrest fun b hb => honly b (List.mem_cons_of_mem _ hb)

/- The first way to begin can be continued. -/
theorem head_flatMap_head {l : List ℕ} {f : ℕ → List β} {k : ℕ} {b : β} (hk : l.head? = some k)
    (hf : (f k).head? = some b) : (l.flatMap f).head? = some b := by
  obtain ⟨rest, rfl⟩ := List.head?_eq_some_iff.mp hk
  rw [List.flatMap_cons, List.head?_append, hf]
  rfl

theorem mem_ends_seq {r s : Regex α} {i j : ℕ} :
    j ∈ ends text (.seq r s) i ↔ ∃ k ∈ ends text r i, j ∈ ends text s k := by
  rw [ends, List.mem_flatMap]

theorem mem_ends_alt {r s : Regex α} {i j : ℕ} :
    j ∈ ends text (.alt r s) i ↔ j ∈ ends text r i ∨ j ∈ ends text s i := by
  rw [ends, List.mem_append]

/- The first way to begin that can be continued decides. -/
theorem head_flatMap_some {l : List ℕ} {f : ℕ → List β} {b : β} (h : (l.flatMap f).head? = some b) :
    ∃ k ∈ l, (f k).head? = some b := by
  induction l with
  | nil => cases h
  | cons a l ih =>
    rw [List.flatMap_cons, List.head?_append] at h
    cases hf : (f a).head? with
    | some c =>
      rw [hf] at h
      exact ⟨a, List.mem_cons_self .., hf.trans h⟩
    | none =>
      rw [hf, Option.none_or] at h
      obtain ⟨k, hk, hfk⟩ := ih h
      exact ⟨k, List.mem_cons_of_mem _ hk, hfk⟩

end first

/-! ### The letters of a match -/

/-- Every letter that is read belongs to a class. -/
def Within (q : α → Bool) : Regex α → Prop
  | .empty => True
  | .chr p => ∀ c, p c = true → q c = true
  | .edge _ => True
  | .seq r s => Within q r ∧ Within q s
  | .alt r s => Within q r ∧ Within q s
  | .star r => Within q r
  | .lazy r => Within q r

section within
variable {text : List α} {q : α → Bool}

/-- All letters between two positions belong to a class. -/
def Covers (text : List α) (q : α → Bool) (i j : ℕ) : Prop :=
  ∀ k, i ≤ k → k < j → text[k]?.any q = true

theorem covers_trans {i j k : ℕ} (h : Covers text q i j) (h' : Covers text q j k) :
    Covers text q i k := by
  intro l hil hlk
  by_cases hlj : l < j
  · exact h l hil hlj
  · exact h' l (by omega) hlk

theorem covers_self {i : ℕ} : Covers text q i i := fun _ hle hlt => absurd hlt (by omega)

theorem starEnds_covers {turn : ℕ → List ℕ} (hturn : ∀ i, ∀ j ∈ turn i, Covers text q i j) (n : ℕ)
    (i j : ℕ) (hj : j ∈ starEnds turn n i) : Covers text q i j := by
  induction n generalizing i with
  | zero =>
    rw [starEnds, List.mem_singleton] at hj
    exact hj ▸ covers_self
  | succ n ih =>
    rw [starEnds, List.mem_append, List.mem_flatMap, List.mem_singleton] at hj
    rcases hj with ⟨k, hk, hj⟩ | hj
    · exact covers_trans (hturn i k (List.mem_of_mem_filter hk)) (ih k hj)
    · exact hj ▸ covers_self

theorem lazyEnds_covers {turn : ℕ → List ℕ} (hturn : ∀ i, ∀ j ∈ turn i, Covers text q i j) (n : ℕ)
    (i j : ℕ) (hj : j ∈ lazyEnds turn n i) : Covers text q i j := by
  induction n generalizing i with
  | zero =>
    rw [lazyEnds, List.mem_singleton] at hj
    exact hj ▸ covers_self
  | succ n ih =>
    rw [lazyEnds, List.mem_cons, List.mem_flatMap] at hj
    rcases hj with hj | ⟨k, hk, hj⟩
    · exact hj ▸ covers_self
    · exact covers_trans (hturn i k (List.mem_of_mem_filter hk)) (ih k hj)

theorem ends_covers (r : Regex α) (hr : Within q r) (i j : ℕ) (hj : j ∈ ends text r i) :
    Covers text q i j := by
  induction r generalizing i j with
  | empty =>
    rw [ends, List.mem_singleton] at hj
    exact hj ▸ covers_self
  | chr p =>
    obtain ⟨hany, rfl⟩ := mem_ends_chr.mp hj
    intro k hik hki
    have hk : k = i := by omega
    subst hk
    obtain ⟨c, hc, hp⟩ := (Option.any_eq_true _ _).mp hany
    rw [hc]
    exact hr c hp
  | edge p =>
    rw [ends] at hj
    split at hj
    · rw [List.mem_singleton] at hj
      exact hj ▸ covers_self
    · cases hj
  | seq r s ihr ihs =>
    obtain ⟨k, hk, hj⟩ := mem_ends_seq.mp hj
    exact covers_trans (ihr hr.1 i k hk) (ihs hr.2 k j hj)
  | alt r s ihr ihs =>
    rcases mem_ends_alt.mp hj with hj | hj
    · exact ihr hr.1 i j hj
    · exact ihs hr.2 i j hj
  | star r ih => exact starEnds_covers (ih hr) _ i j hj
  | lazy r ih => exact lazyEnds_covers (ih hr) _ i j hj

theorem covers_run (p : α → Bool) (i : ℕ) : Covers text p i (i + run p text i) := by
  intro k hik hk
  have hlt : k - i < run p text i := by omega
  have hget := getElem_of_run (k - i) hlt
  rwa [Nat.add_sub_cancel' hik] at hget

theorem le_run_of_covers {p : α → Bool} {i j : ℕ} (h : Covers text p i j) :
    j ≤ i + run p text i := by
  have hle : j - i ≤ run p text i := le_run (j - i) fun k hk => h (i + k) (by omega) (by omega)
  omega

end within

/-! ### Texts that agree -/

/-- Without assertions. -/
def plain : Regex α → Bool
  | .empty => true
  | .chr _ => true
  | .edge _ => false
  | .seq r s => plain r && plain s
  | .alt r s => plain r && plain s
  | .star r => plain r
  | .lazy r => plain r

section forward
variable {text : List α}

theorem starEnds_ge {turn : ℕ → List ℕ} {n : ℕ} {i j : ℕ} (hj : j ∈ starEnds turn n i) : i ≤ j := by
  induction n generalizing i with
  | zero =>
    rw [starEnds, List.mem_singleton] at hj
    omega
  | succ n ih =>
    rw [starEnds, List.mem_append, List.mem_flatMap, List.mem_singleton] at hj
    rcases hj with ⟨k, hk, hj⟩ | hj
    · have hlt := of_decide_eq_true (List.mem_filter.mp hk).2
      have hle := ih hj
      omega
    · omega

theorem lazyEnds_ge {turn : ℕ → List ℕ} {n : ℕ} {i j : ℕ} (hj : j ∈ lazyEnds turn n i) : i ≤ j := by
  induction n generalizing i with
  | zero =>
    rw [lazyEnds, List.mem_singleton] at hj
    omega
  | succ n ih =>
    rw [lazyEnds, List.mem_cons, List.mem_flatMap] at hj
    rcases hj with hj | ⟨k, hk, hj⟩
    · omega
    · have hlt := of_decide_eq_true (List.mem_filter.mp hk).2
      have hle := ih hj
      omega

theorem ends_ge (r : Regex α) {i j : ℕ} (hj : j ∈ ends text r i) : i ≤ j := by
  induction r generalizing i j with
  | empty =>
    rw [ends, List.mem_singleton] at hj
    omega
  | chr p =>
    have h := (mem_ends_chr.mp hj).2
    omega
  | edge p =>
    rw [ends] at hj
    split at hj
    · rw [List.mem_singleton] at hj
      omega
    · cases hj
  | seq r s ihr ihs =>
    obtain ⟨k, hk, hj⟩ := mem_ends_seq.mp hj
    exact (ihr hk).trans (ihs hj)
  | alt r s ihr ihs =>
    rcases mem_ends_alt.mp hj with hj | hj
    · exact ihr hj
    · exact ihs hj
  | star r ih => exact starEnds_ge hj
  | lazy r ih => exact lazyEnds_ge hj

end forward

section shift
variable {front text : List α}

theorem starEnds_shift {turn turn' : ℕ → List ℕ} (c n lo : ℕ)
    (hturn : ∀ i, lo ≤ i → turn' (c + i) = (turn i).map (c + ·)) (i : ℕ) (hi : lo ≤ i) :
    starEnds turn' n (c + i) = (starEnds turn n i).map (c + ·) := by
  induction n generalizing i with
  | zero => rfl
  | succ n ih =>
    rw [starEnds, starEnds, hturn i hi, List.map_append, List.map_flatMap, List.filter_map,
      List.flatMap_map]
    congr 1
    have hfilter : ((fun j => decide (c + i < j)) ∘ (c + ·)) = fun j => decide (i < j) := by
      funext j
      show decide (c + i < c + j) = decide (i < j)
      exact decide_eq_decide.mpr (by omega)
    rw [hfilter]
    refine List.flatMap_congr fun k hk => ih k ?_
    have hlt := of_decide_eq_true (List.mem_filter.mp hk).2
    omega

theorem lazyEnds_shift {turn turn' : ℕ → List ℕ} (c n lo : ℕ)
    (hturn : ∀ i, lo ≤ i → turn' (c + i) = (turn i).map (c + ·)) (i : ℕ) (hi : lo ≤ i) :
    lazyEnds turn' n (c + i) = (lazyEnds turn n i).map (c + ·) := by
  induction n generalizing i with
  | zero => rfl
  | succ n ih =>
    rw [lazyEnds, lazyEnds, hturn i hi, List.map_cons, List.map_flatMap, List.filter_map,
      List.flatMap_map]
    congr 1
    have hfilter : ((fun j => decide (c + i < j)) ∘ (c + ·)) = fun j => decide (i < j) := by
      funext j
      show decide (c + i < c + j) = decide (i < j)
      exact decide_eq_decide.mpr (by omega)
    rw [hfilter]
    refine List.flatMap_congr fun k hk => ih k ?_
    have hlt := of_decide_eq_true (List.mem_filter.mp hk).2
    omega

/-- What is before a match does not matter where nothing is asserted, and no more than one letter
of it matters anyway. -/
theorem ends_behind (r : Regex α) (lo : ℕ) (hr : plain r = true ∨ 1 ≤ lo) (i : ℕ) (hi : lo ≤ i) :
    ends (front ++ text) r (front.length + i) = (ends text r i).map (front.length + ·) := by
  have hget : ∀ i, (front ++ text)[front.length + i]? = text[i]? := fun i => by
    rw [List.getElem?_append_right (by omega), Nat.add_sub_cancel_left]
  have hlength : ∀ i, (front ++ text).length - (front.length + i) = text.length - i := fun i => by
    rw [List.length_append]
    omega
  induction r generalizing i with
  | empty => rfl
  | chr p =>
    rw [ends, ends, hget]
    split
    · simp only [List.map_cons, List.map_nil, Nat.add_assoc]
    · rfl
  | edge p =>
    have hpos : 1 ≤ i := (hr.resolve_left Bool.false_ne_true).trans hi
    have hbefore : before (front ++ text) (front.length + i) = before text i := by
      have hprev := hget (i - 1)
      rw [← Nat.add_sub_assoc hpos] at hprev
      rw [before, before, if_neg (by omega), if_neg (by omega), hprev]
    rw [ends, ends, hget, hbefore]
    split
    · rfl
    · rfl
  | seq r s ihr ihs =>
    rw [plain, Bool.and_eq_true] at hr
    rw [ends, ends, ihr (hr.imp_left And.left) i hi, List.flatMap_map, List.map_flatMap]
    exact List.flatMap_congr fun k hk => ihs (hr.imp_left And.right) k (hi.trans (ends_ge r hk))
  | alt r s ihr ihs =>
    rw [plain, Bool.and_eq_true] at hr
    rw [ends, ends, ihr (hr.imp_left And.left) i hi, ihs (hr.imp_left And.right) i hi,
      List.map_append]
  | star r ih =>
    rw [ends, ends, hlength]
    exact starEnds_shift _ _ lo (ih hr) i hi
  | lazy r ih =>
    rw [ends, ends, hlength]
    exact lazyEnds_shift _ _ lo (ih hr) i hi

theorem ends_shift (r : Regex α) (hr : plain r = true) (i : ℕ) :
    ends (front ++ text) r (front.length + i) = (ends text r i).map (front.length + ·) :=
  ends_behind r 0 (Or.inl hr) i (Nat.zero_le i)

end shift

section agree
variable {text text' : List α} {b : ℕ}

/-- The ends up to a bound. -/
def upTo (b : ℕ) (l : List ℕ) : List ℕ := l.filter fun j => decide (j ≤ b)

theorem upTo_eq_nil {l : List ℕ} (h : ∀ j ∈ l, b < j) : upTo b l = [] := by
  rw [upTo, List.filter_eq_nil_iff]
  intro j hj
  have hlt := h j hj
  rw [decide_eq_true_eq]
  omega

theorem upTo_append (l l' : List ℕ) : upTo b (l ++ l') = upTo b l ++ upTo b l' :=
  List.filter_append ..

theorem upTo_flatMap (l : List ℕ) (f : ℕ → List ℕ) (hf : ∀ k ∈ l, ∀ j ∈ f k, k ≤ j) :
    upTo b (l.flatMap f) = (upTo b l).flatMap fun k => upTo b (f k) := by
  induction l with
  | nil => rfl
  | cons a l ih =>
    have hrest := ih fun k hk => hf k (List.mem_cons_of_mem _ hk)
    rw [List.flatMap_cons, upTo_append, hrest]
    by_cases ha : a ≤ b
    · have hcons : upTo b (a :: l) = a :: upTo b l := List.filter_cons_of_pos (by simpa using ha)
      rw [hcons, List.flatMap_cons]
    · have hcons : upTo b (a :: l) = upTo b l := List.filter_cons_of_neg (by simpa using ha)
      have hnil : upTo b (f a) = [] := by
        refine upTo_eq_nil fun j hj => ?_
        have hle := hf a (List.mem_cons_self ..) j hj
        omega
      rw [hcons, hnil, List.nil_append]

/- The turns of a loop that go on, up to a bound. -/
theorem upTo_forward (l : List ℕ) (i : ℕ) :
    upTo b (l.filter (i < ·)) = (upTo b l).filter (i < ·) := by
  unfold upTo
  rw [List.filter_filter, List.filter_filter]
  refine List.filter_congr fun j _ => ?_
  rw [Bool.and_comm]

theorem mem_upTo {l : List ℕ} {j : ℕ} : j ∈ upTo b l ↔ j ∈ l ∧ j ≤ b := by
  rw [upTo, List.mem_filter, decide_eq_true_eq]

theorem starEnds_last (turn : ℕ → List ℕ) (n : ℕ) {i : ℕ} (hi : b ≤ i) :
    upTo b (starEnds turn n i) = upTo b [i] := by
  cases n with
  | zero => rfl
  | succ n =>
    have hnil : upTo b (((turn i).filter (i < ·)).flatMap (starEnds turn n)) = [] := by
      refine upTo_eq_nil fun j hj => ?_
      obtain ⟨k, hk, hj⟩ := List.mem_flatMap.mp hj
      have hlt := of_decide_eq_true (List.mem_filter.mp hk).2
      have hle := starEnds_ge hj
      omega
    rw [starEnds, upTo_append, hnil, List.nil_append]

theorem lazyEnds_last (turn : ℕ → List ℕ) (n : ℕ) {i : ℕ} (hi : b ≤ i) :
    upTo b (lazyEnds turn n i) = upTo b [i] := by
  cases n with
  | zero => rfl
  | succ n =>
    have hnil : upTo b (((turn i).filter (i < ·)).flatMap (lazyEnds turn n)) = [] := by
      refine upTo_eq_nil fun j hj => ?_
      obtain ⟨k, hk, hj⟩ := List.mem_flatMap.mp hj
      have hlt := of_decide_eq_true (List.mem_filter.mp hk).2
      have hle := lazyEnds_ge hj
      omega
    have hcons := upTo_append (b := b) [i] (((turn i).filter (i < ·)).flatMap (lazyEnds turn n))
    rw [hnil, List.append_nil] at hcons
    exact hcons

/- How often a loop may turn does not show before the bound. -/
theorem starEnds_agree {turn turn' : ℕ → List ℕ} (hturn : ∀ i, upTo b (turn i) = upTo b (turn' i))
    (n n' i : ℕ) (hn : b - i ≤ n) (hn' : b - i ≤ n') :
    upTo b (starEnds turn n i) = upTo b (starEnds turn' n' i) := by
  by_cases hi : b ≤ i
  · rw [starEnds_last turn n hi, starEnds_last turn' n' hi]
  · induction n generalizing n' i with
    | zero => omega
    | succ n ih =>
      cases n' with
      | zero => omega
      | succ n' =>
        rw [starEnds, starEnds, upTo_append, upTo_append,
          upTo_flatMap _ _ fun k _ j hj => starEnds_ge hj,
          upTo_flatMap _ _ fun k _ j hj => starEnds_ge hj, upTo_forward, upTo_forward, hturn]
        congr 1
        refine List.flatMap_congr fun k hk => ?_
        have hlt := of_decide_eq_true (List.mem_filter.mp hk).2
        by_cases hkb : b ≤ k
        · rw [starEnds_last turn n hkb, starEnds_last turn' n' hkb]
        · exact ih n' k (by omega) (by omega) hkb

theorem upTo_lazyEnds (turn : ℕ → List ℕ) (n i : ℕ) : upTo b (lazyEnds turn (n + 1) i) =
    upTo b [i] ++ ((upTo b (turn i)).filter (i < ·)).flatMap fun k => upTo b (lazyEnds turn n k) := by
  have hcons := upTo_append (b := b) [i] (((turn i).filter (i < ·)).flatMap (lazyEnds turn n))
  rw [upTo_flatMap _ _ fun k _ j hj => lazyEnds_ge hj, upTo_forward] at hcons
  exact hcons

theorem lazyEnds_agree {turn turn' : ℕ → List ℕ} (hturn : ∀ i, upTo b (turn i) = upTo b (turn' i))
    (n n' i : ℕ) (hn : b - i ≤ n) (hn' : b - i ≤ n') :
    upTo b (lazyEnds turn n i) = upTo b (lazyEnds turn' n' i) := by
  by_cases hi : b ≤ i
  · rw [lazyEnds_last turn n hi, lazyEnds_last turn' n' hi]
  · induction n generalizing n' i with
    | zero => omega
    | succ n ih =>
      cases n' with
      | zero => omega
      | succ n' =>
        rw [upTo_lazyEnds, upTo_lazyEnds, hturn]
        congr 1
        refine List.flatMap_congr fun k hk => ?_
        have hlt := of_decide_eq_true (List.mem_filter.mp hk).2
        by_cases hkb : b ≤ k
        · rw [lazyEnds_last turn n hkb, lazyEnds_last turn' n' hkb]
        · exact ih n' k (by omega) (by omega) hkb

/-- Texts that agree before a bound have the same matches up to it, unless something is asserted
at the bound. -/
theorem ends_agree (r : Regex α) (hr : plain r = true ∨ text[b]? = text'[b]?)
    (hb : b ≤ text.length) (hb' : b ≤ text'.length)
    (hagree : ∀ k, k < b → text[k]? = text'[k]?) (i : ℕ) :
    upTo b (ends text r i) = upTo b (ends text' r i) := by
  induction r generalizing i with
  | empty => rfl
  | chr p =>
    by_cases hi : i < b
    · rw [ends, ends, hagree i hi]
    · have hnil : ∀ text : List α, upTo b (ends text (.chr p) i) = [] := fun text =>
        upTo_eq_nil fun j hj => by
          have h := (mem_ends_chr.mp hj).2
          omega
      rw [hnil, hnil]
  | edge p =>
    have hb := hr.resolve_left Bool.false_ne_true
    by_cases hi : i ≤ b
    · have hafter : text[i]? = text'[i]? := by
        by_cases hib : i = b
        · rw [hib, hb]
        · exact hagree i (by omega)
      have hbefore : before text i = before text' i := by
        unfold before
        split
        · rfl
        · exact hagree _ (by omega)
      rw [ends, ends, hafter, hbefore]
    · have hnil : ∀ text : List α, upTo b (ends text (.edge p) i) = [] := fun text =>
        upTo_eq_nil fun j hj => by
          have hle := ends_ge _ hj
          omega
      rw [hnil, hnil]
  | seq r s ihr ihs =>
    rw [plain, Bool.and_eq_true] at hr
    rw [ends, ends, upTo_flatMap _ _ fun k _ j hj => ends_ge s hj,
      upTo_flatMap _ _ fun k _ j hj => ends_ge s hj, ihr (hr.imp_left And.left)]
    exact List.flatMap_congr fun k _ => ihs (hr.imp_left And.right) k
  | alt r s ihr ihs =>
    rw [plain, Bool.and_eq_true] at hr
    rw [ends, ends, upTo_append, upTo_append, ihr (hr.imp_left And.left),
      ihs (hr.imp_left And.right)]
  | star r ih => exact starEnds_agree (ih hr) _ _ i (by omega) (by omega)
  | lazy r ih => exact lazyEnds_agree (ih hr) _ _ i (by omega) (by omega)

/- An assertion at the start only sees what is before the bound. -/
theorem ends_edge_agree (p : Option α → Option α → Bool) (r : Regex α) (hr : plain r = true)
    (hb : b ≤ text.length) (hb' : b ≤ text'.length)
    (hagree : ∀ k, k < b → text[k]? = text'[k]?) {i : ℕ} (hi : i < b) :
    upTo b (ends text (.seq (.edge p) r) i) = upTo b (ends text' (.seq (.edge p) r) i) := by
  have hbefore : before text i = before text' i := by
    unfold before
    split
    · rfl
    · exact hagree _ (by omega)
  have hrest := ends_agree r (Or.inl hr) hb hb' hagree i
  rw [ends, ends, ends, ends, hagree i hi, hbefore]
  split
  · rw [List.flatMap_singleton, List.flatMap_singleton, hrest]
  · rfl

theorem mem_of_upTo_eq {l l' : List ℕ} {j : ℕ} (h : upTo b l = upTo b l') (hj : j ≤ b)
    (hmem : j ∈ l) : j ∈ l' := by
  have hup : j ∈ upTo b l := mem_upTo.mpr ⟨hmem, hj⟩
  rw [h] at hup
  exact (mem_upTo.mp hup).1

/- A first match up to the bound is the first match there. -/
theorem head_upTo {l : List ℕ} {j : ℕ} (h : l.head? = some j) (hj : j ≤ b) :
    (upTo b l).head? = some j := by
  obtain ⟨rest, rfl⟩ := List.head?_eq_some_iff.mp h
  have hcons : upTo b (j :: rest) = j :: upTo b rest := List.filter_cons_of_pos (by simpa using hj)
  rw [hcons]
  rfl

end agree

/-! ### The first letter of a match -/

/-- Every match reads something. -/
def consumes : Regex α → Bool
  | .empty => false
  | .chr _ => true
  | .edge _ => false
  | .seq r s => consumes r || consumes s
  | .alt r s => consumes r && consumes s
  | .star _ => false
  | .lazy _ => false

/-- What is read first belongs to a class. -/
def Opens (q : α → Bool) : Regex α → Prop
  | .empty => True
  | .chr p => ∀ c, p c = true → q c = true
  | .edge _ => True
  | .seq r s => Opens q r ∧ (consumes r = true ∨ Opens q s)
  | .alt r s => Opens q r ∧ Opens q s
  | .star r => Opens q r
  | .lazy r => Opens q r

section opening
variable {text : List α} {q : α → Bool} {i j : ℕ}

theorem lt_of_consumes (r : Regex α) (hr : consumes r = true) (hj : j ∈ ends text r i) : i < j := by
  induction r generalizing i j with
  | empty => cases hr
  | chr p =>
    have h := (mem_ends_chr.mp hj).2
    omega
  | edge p => cases hr
  | seq r s ihr ihs =>
    obtain ⟨k, hk, hj⟩ := mem_ends_seq.mp hj
    have hik := ends_ge r hk
    have hkj := ends_ge s hj
    rw [consumes, Bool.or_eq_true] at hr
    rcases hr with hr | hs
    · have hlt := ihr hr hk
      omega
    · have hlt := ihs hs hj
      omega
  | alt r s ihr ihs =>
    rw [consumes, Bool.and_eq_true] at hr
    rcases mem_ends_alt.mp hj with hj | hj
    · exact ihr hr.1 hj
    · exact ihs hr.2 hj
  | star r ih => cases hr
  | lazy r ih => cases hr

theorem starEnds_first {turn : ℕ → List ℕ} {P : ℕ → Prop}
    (hturn : ∀ i, ∀ j ∈ turn i, j = i ∨ P i) (n : ℕ) (hj : j ∈ starEnds turn n i) : j = i ∨ P i := by
  cases n with
  | zero => exact Or.inl (List.mem_singleton.mp hj)
  | succ n =>
    rw [starEnds, List.mem_append, List.mem_flatMap, List.mem_singleton] at hj
    rcases hj with ⟨k, hk, _⟩ | hj
    · have hlt := of_decide_eq_true (List.mem_filter.mp hk).2
      exact Or.inr ((hturn i k (List.mem_of_mem_filter hk)).resolve_left (by omega))
    · exact Or.inl hj

theorem lazyEnds_first {turn : ℕ → List ℕ} {P : ℕ → Prop}
    (hturn : ∀ i, ∀ j ∈ turn i, j = i ∨ P i) (n : ℕ) (hj : j ∈ lazyEnds turn n i) : j = i ∨ P i := by
  cases n with
  | zero => exact Or.inl (List.mem_singleton.mp hj)
  | succ n =>
    rw [lazyEnds, List.mem_cons, List.mem_flatMap] at hj
    rcases hj with hj | ⟨k, hk, _⟩
    · exact Or.inl hj
    · have hlt := of_decide_eq_true (List.mem_filter.mp hk).2
      exact Or.inr ((hturn i k (List.mem_of_mem_filter hk)).resolve_left (by omega))

theorem ends_first (r : Regex α) (hr : Opens q r) (hj : j ∈ ends text r i) :
    j = i ∨ text[i]?.any q = true := by
  induction r generalizing i j with
  | empty =>
    rw [ends, List.mem_singleton] at hj
    exact Or.inl hj
  | chr p =>
    obtain ⟨c, hc, hp⟩ := (Option.any_eq_true _ _).mp (mem_ends_chr.mp hj).1
    rw [hc]
    exact Or.inr (hr c hp)
  | edge p =>
    rw [ends] at hj
    split at hj
    · exact Or.inl (List.mem_singleton.mp hj)
    · cases hj
  | seq r s ihr ihs =>
    obtain ⟨k, hk, hrest⟩ := mem_ends_seq.mp hj
    rcases ihr hr.1 hk with rfl | hany
    · rcases hr.2 with hcons | hs
      · have hlt := lt_of_consumes r hcons hk
        omega
      · exact ihs hs hrest
    · exact Or.inr hany
  | alt r s ihr ihs =>
    rcases mem_ends_alt.mp hj with hj | hj
    · exact ihr hr.1 hj
    · exact ihs hr.2 hj
  | star r ih => exact starEnds_first (P := fun i => text[i]?.any q = true) (fun i j => ih hr) _ hj
  | lazy r ih => exact lazyEnds_first (P := fun i => text[i]?.any q = true) (fun i j => ih hr) _ hj

/- Nothing is read where the first letter does not fit. -/
theorem ends_eq_nil (r : Regex α) (hr : Opens q r) (hcons : consumes r = true)
    (hout : text[i]?.any q = false) : ends text r i = [] := by
  rw [List.eq_nil_iff_forall_not_mem]
  intro j hj
  have hlt := lt_of_consumes r hcons hj
  rcases ends_first r hr hj with hji | hany
  · omega
  · rw [hout] at hany
    cases hany

end opening

/-! ### Scanning -/

section scan
variable {text text' : List α} {r : Regex α} {b : ℕ}

theorem mem_matchesFrom {n s : ℕ} {m : ℕ × ℕ} (h : m ∈ matchesFrom text r n s) :
    s ≤ m.1 ∧ matchAt text r m.1 = some m.2 := by
  induction n generalizing s with
  | zero => cases h
  | succ n ih =>
    rw [matchesFrom] at h
    split at h
    · cases h
    · split at h
      · rename_i j hj
        rcases List.mem_cons.mp h with rfl | h
        · exact ⟨le_rfl, hj⟩
        · obtain ⟨hle, hm⟩ := ih h
          exact ⟨by omega, hm⟩
      · obtain ⟨hle, hm⟩ := ih h
        exact ⟨by omega, hm⟩

theorem mem_finditer {m : ℕ × ℕ} (h : m ∈ finditer text r) : matchAt text r m.1 = some m.2 :=
  (mem_matchesFrom h).2

/-- Two texts that have the same matches up to a bound are scanned alike up to it. So where one
has a match over the bound, the other has one that starts no later, if it has any there. -/
theorem exists_crossing {n n' s i j j' : ℕ} (hi : i < b)
    (hsame : ∀ s, s ≤ i → upTo b (ends text r s) = upTo b (ends text' r s))
    (hmem : (i, j) ∈ matchesFrom text r n s) (hmatch : matchAt text' r i = some j') (hj' : b < j')
    (hb : b ≤ text'.length) (hn' : text'.length < s + n') :
    ∃ m ∈ matchesFrom text' r n' s, m.1 ≤ i ∧ b < m.2 := by
  induction n generalizing s n' with
  | zero => cases hmem
  | succ n ih =>
    have hsi : s ≤ i := (mem_matchesFrom hmem).1
    obtain ⟨n', rfl⟩ : ∃ k, n' = k + 1 := ⟨n' - 1, by omega⟩
    have hs' : ¬ text'.length < s := by omega
    rw [matchesFrom, if_neg hs']
    -- what the other text has at this position
    have hcross : ∀ k, matchAt text' r s = some k → b < k →
        ∃ m ∈ (s, k) :: matchesFrom text' r n' (max k (s + 1)), m.1 ≤ i ∧ b < m.2 :=
      fun k _ hk => ⟨(s, k), List.mem_cons_self .., hsi, hk⟩
    rw [matchesFrom] at hmem
    split at hmem
    · cases hmem
    · split at hmem
      · rename_i k hk
        rcases List.mem_cons.mp hmem with heq | hmem
        · cases heq
          rw [hmatch]
          exact hcross j' hmatch hj'
        · have hki := (mem_matchesFrom hmem).1
          have hkb : k ≤ b := by
            simp only at hki
            omega
          have hfirst := head_upTo hk hkb
          rw [hsame s hsi] at hfirst
          cases hother : matchAt text' r s with
          | none =>
            rw [matchAt, List.head?_eq_none_iff] at hother
            rw [hother] at hfirst
            cases hfirst
          | some k' =>
            by_cases hk' : k' ≤ b
            · have hkk := head_upTo hother hk'
              rw [hfirst] at hkk
              cases hkk
              have hrest : ∃ m ∈ matchesFrom text' r n' (max k (s + 1)), m.1 ≤ i ∧ b < m.2 :=
                ih hmem (by omega)
              obtain ⟨m, hm, hlaw⟩ := hrest
              exact ⟨m, List.mem_cons_of_mem _ hm, hlaw⟩
            · exact hcross k' hother (by omega)
      · rename_i hnone
        have hne : s ≠ i := by
          intro heq
          have hm := (mem_matchesFrom hmem).1
          simp only at hm
          omega
        rw [matchAt, List.head?_eq_none_iff] at hnone
        cases hother : matchAt text' r s with
        | none => exact ih hmem (by omega)
        | some k' =>
          by_cases hk' : k' ≤ b
          · have hkk := head_upTo hother hk'
            rw [← hsame s hsi, hnone] at hkk
            cases hkk
          · exact hcross k' hother (by omega)

theorem finditer_crossing {i j j' : ℕ} (hi : i < b)
    (hsame : ∀ s, s ≤ i → upTo b (ends text r s) = upTo b (ends text' r s))
    (hmem : (i, j) ∈ finditer text r) (hmatch : matchAt text' r i = some j') (hj' : b < j')
    (hb : b ≤ text'.length) : ∃ m ∈ finditer text' r, m.1 ≤ i ∧ b < m.2 :=
  exists_crossing hi hsame hmem hmatch hj' hb (by omega)

end scan

end ParallelForge.Base.Regex
