import ParallelForge.Base.RegexLaw

/-!
# Replacing the matches of a pattern

`sub` copies a text with each match replaced by a function of it. Where no match
crosses a border the text is replaced piece by piece: the piece before a border
only depends on the letters up to it, and the piece behind one on the letters
from there on.
-/

namespace ParallelForge.Base.Regex
variable {α : Type}

def slice (text : List α) (i j : ℕ) : List α := (text.drop i).take (j - i)

/-- The text from a position up to another, with each match replaced. -/
def splice (f : List α → List α) (text : List α) : List (ℕ × ℕ) → ℕ → ℕ → List α
  | [], i, stop => slice text i stop
  | m :: ms, i, stop => slice text i m.1 ++ f (slice text m.1 m.2) ++ splice f text ms m.2 stop

/-- `re.sub` with a function of the match. -/
def sub (r : Regex α) (f : List α → List α) (text : List α) : List α :=
  splice f text (finditer text r) 0 text.length

attribute [local simp] splice

/-! ### Slices -/

section slices
variable {text text' : List α} {i j k b stop : ℕ}

theorem getElem_slice (text : List α) (i j k : ℕ) :
    (slice text i j)[k]? = if k < j - i then text[i + k]? else none := by
  rw [slice, List.getElem?_take, List.getElem?_drop]

theorem slice_append (hij : i ≤ j) (hjk : j ≤ k) :
    slice text i k = slice text i j ++ slice text j k := by
  have hlen : k - i = (j - i) + (k - j) := by omega
  have hdrop : i + (j - i) = j := by omega
  rw [slice, slice, slice, hlen, List.take_add, List.drop_drop, hdrop]

theorem slice_self (text : List α) (i : ℕ) : slice text i i = [] := by
  rw [slice, Nat.sub_self, List.take_zero]

/- Slices read the same letters where the texts do. -/
theorem slice_congr {d d' : ℕ} (hagree : ∀ k, k < stop → text[d + k]? = text'[d' + k]?) (hj : j ≤ stop) :
    slice text (d + i) (d + j) = slice text' (d' + i) (d' + j) := by
  apply List.ext_getElem?
  intro k
  have hleft : d + j - (d + i) = j - i := by omega
  have hright : d' + j - (d' + i) = j - i := by omega
  rw [getElem_slice, getElem_slice, hleft, hright]
  split
  · rw [Nat.add_assoc, Nat.add_assoc]
    exact hagree (i + k) (by omega)
  · rfl

theorem mem_slice {a : α} (h : a ∈ slice text i j) : ∃ k, i ≤ k ∧ k < j ∧ text[k]? = some a := by
  obtain ⟨k, hk⟩ := List.getElem?_of_mem h
  rw [getElem_slice] at hk
  split at hk
  · exact ⟨i + k, by omega, by omega, hk⟩
  · cases hk

end slices

/-! ### Pieces -/

/-- Matches that do not overlap, from a position on. -/
def Ordered : ℕ → List (ℕ × ℕ) → Prop
  | _, [] => True
  | i, m :: ms => i ≤ m.1 ∧ m.1 ≤ m.2 ∧ Ordered m.2 ms

section pieces
variable {f : List α → List α} {text text' : List α} {ms : List (ℕ × ℕ)} {i j k b stop : ℕ}

theorem Ordered.mono (hji : j ≤ i) (h : Ordered i ms) : Ordered j ms := by
  cases ms with
  | nil => trivial
  | cons m ms => exact ⟨hji.trans h.1, h.2⟩

theorem Ordered.start (h : Ordered i ms) : ∀ m ∈ ms, i ≤ m.1 := by
  induction ms generalizing i with
  | nil => exact fun m hm => by cases hm
  | cons first ms ih =>
    intro m hm
    rcases List.mem_cons.mp hm with rfl | hm
    · exact h.1
    · have hle := ih h.2.2 m hm
      have hfirst := h.1
      have hlen := h.2.1
      omega

theorem Ordered.behind (h : Ordered i ms) : Ordered b (ms.filter fun m => decide (b ≤ m.1)) := by
  induction ms generalizing i with
  | nil => trivial
  | cons m ms ih =>
    obtain ⟨_, hm, hrest⟩ := h
    rw [List.filter_cons]
    split
    · rename_i hb
      rw [decide_eq_true_eq] at hb
      have hall : (ms.filter fun m => decide (b ≤ m.1)) = ms := by
        rw [List.filter_eq_self]
        intro m' hm'
        have hle := hrest.start m' hm'
        rw [decide_eq_true_eq]
        omega
      rw [hall]
      exact ⟨hb, hm, hrest⟩
    · exact ih hrest

theorem Ordered.filter (keep : ℕ × ℕ → Bool) (h : Ordered i ms) : Ordered i (ms.filter keep) := by
  induction ms generalizing i with
  | nil => trivial
  | cons m ms ih =>
    obtain ⟨him, hm, hrest⟩ := h
    rw [List.filter_cons]
    split
    · exact ⟨him, hm, ih hrest⟩
    · exact (ih hrest).mono (by omega)

/- One of the matches, with those before it and those behind. -/
theorem Ordered.around {l l' : List (ℕ × ℕ)} {m : ℕ × ℕ} (h : Ordered i (l ++ m :: l')) :
    (∀ x ∈ l, x.1 ≤ x.2 ∧ x.2 ≤ m.1) ∧ ∀ x ∈ l', m.2 ≤ x.1 := by
  induction l generalizing i with
  | nil => exact ⟨fun x hx => absurd hx List.not_mem_nil, h.2.2.start⟩
  | cons first l ih =>
    obtain ⟨_, hfirst, hrest⟩ := h
    obtain ⟨hleft, hright⟩ := ih hrest
    refine ⟨fun x hx => ?_, hright⟩
    rcases List.mem_cons.mp hx with rfl | hx
    · exact ⟨hfirst, hrest.start m (List.mem_append_right _ (List.mem_cons_self ..))⟩
    · exact hleft x hx

theorem ordered_matchesFrom (r : Regex α) (n s : ℕ) : Ordered s (matchesFrom text r n s) := by
  induction n generalizing s with
  | zero => trivial
  | succ n ih =>
    rw [matchesFrom]
    split
    · trivial
    · split
      · rename_i j hj
        have hge := ends_ge r (List.mem_of_mem_head? (Option.mem_def.mpr hj))
        exact ⟨le_rfl, hge, (ih _).mono (le_max_left j (s + 1))⟩
      · exact (ih _).mono (by omega)

/- A border that no match crosses. -/
theorem splice_split (h : Ordered i ms) (hib : i ≤ b) (hb : b ≤ stop)
    (hcross : ∀ m ∈ ms, m.1 < b → m.2 ≤ b) : splice f text ms i stop =
      splice f text (ms.filter fun m => decide (m.1 < b)) i b ++
        splice f text (ms.filter fun m => decide (b ≤ m.1)) b stop := by
  induction ms generalizing i with
  | nil => exact slice_append hib hb
  | cons m ms ih =>
    obtain ⟨him, hm, hrest⟩ := h
    by_cases hmb : m.1 < b
    · have hleft : (m :: ms).filter (fun m => decide (m.1 < b))
          = m :: ms.filter fun m => decide (m.1 < b) :=
        List.filter_cons_of_pos (by simpa using hmb)
      have hright : (m :: ms).filter (fun m => decide (b ≤ m.1)) = ms.filter fun m => decide (b ≤ m.1) :=
        List.filter_cons_of_neg (by simpa using hmb)
      have hinner := ih hrest (hcross m (List.mem_cons_self ..) hmb)
        fun m' hm' => hcross m' (List.mem_cons_of_mem m hm')
      rw [hleft, hright, splice, splice, hinner]
      simp only [List.append_assoc]
    · have hall : ∀ m' ∈ m :: ms, b ≤ m'.1 := by
        intro m' hm'
        rcases List.mem_cons.mp hm' with rfl | hm'
        · omega
        · have hle := hrest.start m' hm'
          omega
      have hleft : (m :: ms).filter (fun m => decide (m.1 < b)) = [] := by
        rw [List.filter_eq_nil_iff]
        intro m' hm'
        have hle := hall m' hm'
        rw [decide_eq_true_eq]
        omega
      have hright : (m :: ms).filter (fun m => decide (b ≤ m.1)) = m :: ms := by
        rw [List.filter_eq_self]
        intro m' hm'
        rw [decide_eq_true_eq]
        exact hall m' hm'
      rw [hleft, hright, splice, splice, splice, slice_append hib (hall m (List.mem_cons_self ..))]
      simp only [List.append_assoc]

/- The same matches in the same letters, at another place. -/
theorem splice_congr {d d' : ℕ} (hagree : ∀ k, k < stop → text[d + k]? = text'[d' + k]?)
    (hms : ∀ m ∈ ms, m.2 ≤ stop) (hm : ∀ m ∈ ms, m.1 ≤ stop) :
    splice f text (ms.map fun m => (d + m.1, d + m.2)) (d + i) (d + stop) =
      splice f text' (ms.map fun m => (d' + m.1, d' + m.2)) (d' + i) (d' + stop) := by
  induction ms generalizing i with
  | nil => exact slice_congr hagree le_rfl
  | cons m ms ih =>
    have hrest : splice f text (ms.map fun m => (d + m.1, d + m.2)) (d + m.2) (d + stop) =
        splice f text' (ms.map fun m => (d' + m.1, d' + m.2)) (d' + m.2) (d' + stop) :=
      ih (fun m' hm' => hms m' (List.mem_cons_of_mem m hm'))
        fun m' hm' => hm m' (List.mem_cons_of_mem m hm')
    have hend := hms m (List.mem_cons_self ..)
    have hstart := hm m (List.mem_cons_self ..)
    rw [List.map_cons, List.map_cons, splice, splice, hrest, slice_congr hagree hstart,
      slice_congr hagree hend]

theorem splice_at (l l' : List (ℕ × ℕ)) (m : ℕ × ℕ) : splice f text (l ++ m :: l') i stop =
    splice f text l i m.1 ++ f (slice text m.1 m.2) ++ splice f text l' m.2 stop := by
  induction l generalizing i with
  | nil => rfl
  | cons first l ih =>
    rw [List.cons_append, splice, splice, ih]
    simp only [List.append_assoc]

theorem slice_head (hi : i < j) : (slice text i j).head? = text[i]? := by
  rw [List.head?_eq_getElem?, getElem_slice, if_pos (by omega), Nat.add_zero]

/- A replaced text starts with a letter of the text or of the first replacement. -/
theorem splice_head {P : α → Prop} (htext : ∃ a, text[i]? = some a ∧ P a) (hi : i < stop)
    (hf : ∀ m ∈ ms, m.1 = i → ∃ a, (f (slice text m.1 m.2)).head? = some a ∧ P a) (h : Ordered i ms) :
    ∃ a, (splice f text ms i stop).head? = some a ∧ P a := by
  obtain ⟨a, ha, hP⟩ := htext
  cases ms with
  | nil =>
    rw [splice, slice_head hi]
    exact ⟨a, ha, hP⟩
  | cons m ms =>
    rw [splice, List.append_assoc, List.head?_append]
    by_cases hm : m.1 = i
    · obtain ⟨c, hc, hPc⟩ := hf m (List.mem_cons_self ..) hm
      have hempty : slice text i m.1 = [] := by rw [hm, slice_self]
      rw [hempty, List.head?_nil, Option.none_or, List.head?_append, hc]
      exact ⟨c, rfl, hPc⟩
    · have hlt : i < m.1 := by
        have hle := h.1
        omega
      rw [slice_head hlt, ha]
      exact ⟨a, rfl, hP⟩

/- Every letter of a replaced text is one of the text or of a replacement. -/
theorem splice_letters {P : α → Prop} (hf : ∀ m ∈ ms, ∀ a ∈ f (slice text m.1 m.2), P a)
    (h : Ordered i ms) (htext : ∀ k a, i ≤ k → k < stop → text[k]? = some a → P a)
    (hms : ∀ m ∈ ms, m.1 ≤ stop) : ∀ a ∈ splice f text ms i stop, P a := by
  induction ms generalizing i with
  | nil =>
    intro a ha
    obtain ⟨k, hik, hk, hget⟩ := mem_slice ha
    exact htext k a hik hk hget
  | cons m ms ih =>
    obtain ⟨him, hm, hrest⟩ := h
    have hstop := hms m (List.mem_cons_self ..)
    intro a ha
    rw [splice, List.append_assoc, List.mem_append, List.mem_append] at ha
    rcases ha with ha | ha | ha
    · obtain ⟨k, hik, hk, hget⟩ := mem_slice ha
      exact htext k a hik (by omega) hget
    · exact hf m (List.mem_cons_self ..) a ha
    · refine ih (fun m' hm' => hf m' (List.mem_cons_of_mem m hm')) hrest (fun k a hk => ?_)
        (fun m' hm' => hms m' (List.mem_cons_of_mem m hm')) a ha
      exact htext k a (by omega)

end pieces

/-! ### Scanning past a border -/

section borders
variable {text text' : List α} {r : Regex α} {b n n' s : ℕ}

/- Enough fuel for the letters that are left. -/
theorem matchesFrom_fuel (hn : text.length < s + n) (hn' : text.length < s + n') :
    matchesFrom text r n s = matchesFrom text r n' s := by
  induction n generalizing n' s with
  | zero =>
    cases n' with
    | zero => rfl
    | succ n' => rw [matchesFrom, matchesFrom, if_pos (by omega)]
  | succ n ih =>
    cases n' with
    | zero => rw [matchesFrom, matchesFrom, if_pos (by omega)]
    | succ n' =>
      rw [matchesFrom, matchesFrom]
      split
      · rfl
      · split
        · rename_i j hj
          have hrest : matchesFrom text r n (max j (s + 1)) = matchesFrom text r n' (max j (s + 1)) :=
            ih (by omega) (by omega)
          rw [hrest]
        · exact ih (by omega) (by omega)

theorem matchesFrom_some {j : ℕ} (hs : s ≤ text.length) (hj : matchAt text r s = some j) :
    matchesFrom text r (n + 1) s = (s, j) :: matchesFrom text r n (max j (s + 1)) := by
  rw [matchesFrom, if_neg (by omega), hj]

theorem matchesFrom_none (hs : s ≤ text.length) (hnone : matchAt text r s = none) :
    matchesFrom text r (n + 1) s = matchesFrom text r n (s + 1) := by
  rw [matchesFrom, if_neg (by omega), hnone]

theorem none_before (hbs : b ≤ s) :
    (matchesFrom text r n s).filter (fun m => decide (m.1 < b)) = [] := by
  rw [List.filter_eq_nil_iff]
  intro m hm
  have hle := (ordered_matchesFrom r n s).start m hm
  rw [decide_eq_true_eq]
  omega

/- Where neither text has a match over the border, both have the same one. -/
theorem matchAt_agree (hsame : upTo b (ends text r s) = upTo b (ends text' r s))
    (h : ∀ j, matchAt text r s = some j → j ≤ b) (h' : ∀ j, matchAt text' r s = some j → j ≤ b) :
    matchAt text r s = matchAt text' r s := by
  cases hleft : matchAt text r s with
  | some j =>
    have hfirst := head_upTo hleft (h j hleft)
    cases hright : matchAt text' r s with
    | some j' =>
      have hother := head_upTo hright (h' j' hright)
      rw [hsame, hother] at hfirst
      exact hfirst.symm
    | none =>
      rw [matchAt, List.head?_eq_none_iff] at hright
      rw [hsame, hright] at hfirst
      cases hfirst
  | none =>
    cases hright : matchAt text' r s with
    | some j' =>
      have hother := head_upTo hright (h' j' hright)
      rw [matchAt, List.head?_eq_none_iff] at hleft
      rw [← hsame, hleft] at hother
      cases hother
    | none => rfl

/-- Texts that agree up to a border have the same matches before it, if none crosses it. -/
theorem matches_before (hsame : ∀ s, upTo b (ends text r s) = upTo b (ends text' r s))
    (hb : b ≤ text.length) (hb' : b ≤ text'.length)
    (h : ∀ m ∈ matchesFrom text r n s, m.1 < b → m.2 ≤ b)
    (h' : ∀ m ∈ matchesFrom text' r n' s, m.1 < b → m.2 ≤ b)
    (hn : text.length < s + n) (hn' : text'.length < s + n') :
    (matchesFrom text r n s).filter (fun m => decide (m.1 < b)) =
      (matchesFrom text' r n' s).filter fun m => decide (m.1 < b) := by
  induction n generalizing n' s with
  | zero => rw [none_before (by omega), none_before (by omega)]
  | succ n ih =>
    by_cases hbs : b ≤ s
    · rw [none_before hbs, none_before hbs]
    · obtain ⟨n', rfl⟩ : ∃ k, n' = k + 1 := ⟨n' - 1, by omega⟩
      have hfirst : ∀ j, matchAt text r s = some j → j ≤ b := by
        intro j hj
        refine h (s, j) ?_ (by simp only; omega)
        rw [matchesFrom_some (by omega) hj]
        exact List.mem_cons_self ..
      have hfirst' : ∀ j, matchAt text' r s = some j → j ≤ b := by
        intro j hj
        refine h' (s, j) ?_ (by simp only; omega)
        rw [matchesFrom_some (by omega) hj]
        exact List.mem_cons_self ..
      have hagree := matchAt_agree (hsame s) hfirst hfirst'
      cases hm : matchAt text r s with
      | some j =>
        have hlist := matchesFrom_some (n := n) (by omega) hm
        have hlist' := matchesFrom_some (n := n') (by omega) (hagree.symm.trans hm)
        rw [hlist] at h ⊢
        rw [hlist'] at h' ⊢
        have hkeep : decide (s < b) = true := by
          rw [decide_eq_true_eq]
          omega
        rw [List.filter_cons, List.filter_cons, if_pos hkeep, if_pos hkeep,
          ih (fun m hm => h m (List.mem_cons_of_mem _ hm)) (fun m hm => h' m (List.mem_cons_of_mem _ hm))
            (by omega) (by omega)]
      | none =>
        have hlist := matchesFrom_none (n := n) (by omega) hm
        have hlist' := matchesFrom_none (n := n') (by omega) (hagree.symm.trans hm)
        rw [hlist] at h ⊢
        rw [hlist'] at h' ⊢
        exact ih h h' (by omega) (by omega)

/- A scan that crosses no match over a border goes on at the border. -/
theorem matches_behind (hs : s ≤ b) (hb : b ≤ text.length)
    (h : ∀ m ∈ matchesFrom text r n s, m.1 < b → m.2 ≤ b) (hn : text.length < s + n)
    (hn' : text.length < b + n') :
    (matchesFrom text r n s).filter (fun m => decide (b ≤ m.1)) = matchesFrom text r n' b := by
  induction n generalizing s with
  | zero => omega
  | succ n ih =>
    by_cases hsb : s = b
    · subst hsb
      rw [matchesFrom_fuel hn' hn, List.filter_eq_self]
      intro m hm
      rw [decide_eq_true_eq]
      exact (ordered_matchesFrom r _ s).start m hm
    · cases hm : matchAt text r s with
      | some j =>
        have hlist := matchesFrom_some (n := n) (by omega) hm
        rw [hlist] at h ⊢
        have hj : j ≤ b := h (s, j) (List.mem_cons_self ..) (by simp only; omega)
        have hdrop : ¬ decide (b ≤ s) = true := by
          rw [decide_eq_true_eq]
          omega
        rw [List.filter_cons, if_neg hdrop]
        exact ih (by omega) (fun m hm => h m (List.mem_cons_of_mem _ hm)) (by omega)
      | none =>
        have hlist := matchesFrom_none (n := n) (by omega) hm
        rw [hlist] at h ⊢
        exact ih (by omega) h (by omega)

/- Scans of the same letters at two places. -/
theorem matches_shift {d d' : ℕ} (l : ℕ → List ℕ) (hl : ∀ k, ends text r (d + k) = (l k).map (d + ·))
    (hl' : ∀ k, ends text' r (d' + k) = (l k).map (d' + ·)) (hd : d ≤ text.length)
    (hd' : d' ≤ text'.length) (hlen : text.length - d = text'.length - d') (n s : ℕ) :
    ∃ ms : List (ℕ × ℕ), matchesFrom text r n (d + s) = ms.map (fun m => (d + m.1, d + m.2)) ∧
      matchesFrom text' r n (d' + s) = ms.map fun m => (d' + m.1, d' + m.2) := by
  induction n generalizing s with
  | zero => exact ⟨[], rfl, rfl⟩
  | succ n ih =>
    by_cases hend : text.length < d + s
    · refine ⟨[], ?_, ?_⟩
      · rw [matchesFrom, if_pos hend]
        rfl
      · rw [matchesFrom, if_pos (by omega)]
        rfl
    · have hmatch : matchAt text r (d + s) = (l s).head?.map (d + ·) := by
        rw [matchAt, hl, List.head?_map]
      have hmatch' : matchAt text' r (d' + s) = (l s).head?.map (d' + ·) := by
        rw [matchAt, hl', List.head?_map]
      cases hhead : (l s).head? with
      | some j =>
        rw [hhead] at hmatch hmatch'
        obtain ⟨ms, hms, hms'⟩ := ih (max j (s + 1))
        refine ⟨(s, j) :: ms, ?_, ?_⟩
        · have hnext : max (d + j) (d + s + 1) = d + max j (s + 1) := by omega
          rw [matchesFrom_some (by omega) hmatch, hnext, hms]
          rfl
        · have hnext : max (d' + j) (d' + s + 1) = d' + max j (s + 1) := by omega
          rw [matchesFrom_some (by omega) hmatch', hnext, hms']
          rfl
      | none =>
        rw [hhead] at hmatch hmatch'
        obtain ⟨ms, hms, hms'⟩ := ih (s + 1)
        refine ⟨ms, ?_, ?_⟩
        · rw [matchesFrom_none (by omega) hmatch, Nat.add_assoc]
          exact hms
        · rw [matchesFrom_none (by omega) hmatch', Nat.add_assoc]
          exact hms'

end borders

/-! ### A text in four pieces -/

/-- The lead and the word are what a replacement is about; the word may be any. -/
structure Parts (α : Type) where
  front : List α
  lead : List α
  word : List α
  rest : List α

namespace Parts

def text (p : Parts α) : List α := p.front ++ p.lead ++ p.word ++ p.rest

def leadAt (p : Parts α) : ℕ := p.front.length

def wordAt (p : Parts α) : ℕ := p.front.length + p.lead.length

def restAt (p : Parts α) : ℕ := p.front.length + p.lead.length + p.word.length

/-- Each match is in front of the lead, inside the word, or behind it. -/
def Spares (p : Parts α) (r : Regex α) : Prop :=
  ∀ m ∈ finditer p.text r, m.2 ≤ p.leadAt ∨ (p.wordAt ≤ m.1 ∧ m.2 ≤ p.restAt) ∨ p.restAt ≤ m.1

def replaceFront (p : Parts α) (r : Regex α) (f : List α → List α) : List α :=
  splice f p.text ((finditer p.text r).filter fun m => decide (m.1 < p.leadAt)) 0 p.leadAt

def replaceWord (p : Parts α) (r : Regex α) (f : List α → List α) : List α :=
  splice f p.text (((finditer p.text r).filter fun m => decide (p.wordAt ≤ m.1)).filter fun m =>
    decide (m.1 < p.restAt)) p.wordAt p.restAt

def replaceRest (p : Parts α) (r : Regex α) (f : List α → List α) : List α :=
  splice f p.text ((finditer p.text r).filter fun m => decide (p.restAt ≤ m.1)) p.restAt p.text.length

def replace (p : Parts α) (r : Regex α) (f : List α → List α) : Parts α where
  front := p.replaceFront r f
  lead := p.lead
  word := p.replaceWord r f
  rest := p.replaceRest r f

/-- The pieces around the word. -/
structure Same (p p' : Parts α) : Prop where
  front : p.front = p'.front
  lead : p.lead = p'.lead
  rest : p.rest = p'.rest

section parts
variable {p p' : Parts α} {r : Regex α} {f : List α → List α} {q : α → Bool} {k : ℕ}

theorem length_text (p : Parts α) : p.text.length = p.restAt + p.rest.length := by
  simp only [text, restAt, List.length_append]

theorem getElem_front (hk : k < p.leadAt) : p.text[k]? = p.front[k]? := by
  rw [text, List.append_assoc, List.append_assoc, List.getElem?_append_left hk]

theorem getElem_lead (hk : k < p.lead.length) : p.text[p.leadAt + k]? = p.lead[k]? := by
  rw [text, List.append_assoc, List.append_assoc, leadAt,
    List.getElem?_append_right (Nat.le_add_right _ _), Nat.add_sub_cancel_left,
    List.getElem?_append_left hk]

theorem getElem_word (hk : k < p.word.length) : p.text[p.wordAt + k]? = p.word[k]? := by
  have hlen : (p.front ++ p.lead).length = p.wordAt := List.length_append
  rw [text, List.append_assoc, List.getElem?_append_right (by omega), hlen, Nat.add_sub_cancel_left,
    List.getElem?_append_left hk]

theorem getElem_rest (p : Parts α) (k : ℕ) : p.text[p.restAt + k]? = p.rest[k]? := by
  have hlen : (p.front ++ p.lead ++ p.word).length = p.restAt := by
    simp only [restAt, List.length_append]
  rw [text, List.getElem?_append_right (by omega), hlen, Nat.add_sub_cancel_left]

theorem slice_lead (p : Parts α) : slice p.text p.leadAt p.wordAt = p.lead := by
  apply List.ext_getElem?
  intro k
  have hlen : p.wordAt - p.leadAt = p.lead.length := Nat.add_sub_cancel_left ..
  rw [getElem_slice, hlen]
  split
  · exact getElem_lead ‹_›
  · rw [List.getElem?_eq_none (by omega)]

theorem ends_rest (r : Regex α) (k : ℕ) (hk : 1 ≤ k) :
    ends p.text r (p.restAt + k) = (ends p.rest r k).map (p.restAt + ·) := by
  have hlen : (p.front ++ p.lead ++ p.word).length = p.restAt := by
    simp only [restAt, List.length_append]
  rw [← hlen]
  exact ends_behind r 1 (Or.inr le_rfl) k hk

theorem filter_behind {a b : ℕ} (hab : a ≤ b) (ms : List (ℕ × ℕ)) :
    (ms.filter fun m => decide (a ≤ m.1)).filter (fun m => decide (b ≤ m.1)) =
      ms.filter fun m => decide (b ≤ m.1) := by
  rw [List.filter_filter]
  refine List.filter_congr fun m _ => ?_
  by_cases hb : b ≤ m.1
  · have ha : a ≤ m.1 := by omega
    simp only [ha, hb, decide_true, Bool.and_self]
  · simp only [hb, decide_false, Bool.false_and]

theorem match_lt (hcons : consumes r = true) {text : List α} {m : ℕ × ℕ} (hm : m ∈ finditer text r) :
    m.1 < m.2 :=
  lt_of_consumes r hcons (List.mem_of_mem_head? (Option.mem_def.mpr (mem_finditer hm)))

/-- Where a pattern spares the lead and the borders of the word, the pieces are replaced one by
one. -/
theorem sub_text (hcons : consumes r = true) (h : p.Spares r) :
    sub r f p.text = (p.replace r f).text := by
  have hlw : p.leadAt ≤ p.wordAt := Nat.le_add_right _ _
  have hwr : p.wordAt ≤ p.restAt := Nat.le_add_right _ _
  have hre : p.restAt ≤ p.text.length := by
    rw [length_text]
    omega
  have hordered : Ordered 0 (finditer p.text r) := ordered_matchesFrom r _ 0
  have hfront : splice f p.text (finditer p.text r) 0 p.text.length = _ :=
    splice_split hordered (Nat.zero_le p.leadAt) (hlw.trans (hwr.trans hre)) fun m hm hlt => by
      have hspare := h m hm
      omega
  have hlead : splice f p.text _ p.leadAt p.text.length = _ :=
    splice_split (hordered.behind (b := p.leadAt)) hlw (hwr.trans hre) fun m hm hlt => by
      have hspare := h m (List.mem_of_mem_filter hm)
      omega
  have hword : splice f p.text _ p.wordAt p.text.length = _ :=
    splice_split (hordered.behind (b := p.wordAt)) hwr hre fun m hm hlt => by
      have hspare := h m (List.mem_of_mem_filter hm)
      have hle := of_decide_eq_true (List.mem_filter.mp hm).2
      have hpos := match_lt hcons (List.mem_of_mem_filter hm)
      omega
  have hnone : ((finditer p.text r).filter fun m => decide (p.leadAt ≤ m.1)).filter
      (fun m => decide (m.1 < p.wordAt)) = [] := by
    rw [List.filter_eq_nil_iff]
    intro m hm
    have hspare := h m (List.mem_of_mem_filter hm)
    have hle := of_decide_eq_true (List.mem_filter.mp hm).2
    have hpos := match_lt hcons (List.mem_of_mem_filter hm)
    rw [decide_eq_true_eq]
    omega
  rw [hnone, splice, slice_lead, filter_behind hlw] at hlead
  rw [filter_behind hwr] at hword
  rw [sub, hfront, hlead, hword]
  simp only [text, replace, replaceFront, replaceWord, replaceRest, List.append_assoc]

/-- What is in front of the lead is replaced without regard to the word. -/
theorem replaceFront_same (hsame : p.Same p') (hlead : p.lead ≠ [])
    (h : ∀ m ∈ finditer p.text r, m.1 < p.leadAt → m.2 ≤ p.leadAt)
    (h' : ∀ m ∈ finditer p'.text r, m.1 < p'.leadAt → m.2 ≤ p'.leadAt) :
    p.replaceFront r f = p'.replaceFront r f := by
  have hat : p'.leadAt = p.leadAt := congrArg List.length hsame.front.symm
  have hpos := List.length_pos_iff.mpr hlead
  have hlen : p.leadAt ≤ p.text.length := by
    rw [length_text, restAt, leadAt]
    omega
  have hlen' : p.leadAt ≤ p'.text.length := by
    rw [← hat, length_text, restAt, leadAt]
    omega
  have hagree : ∀ k, k < p.leadAt → p.text[k]? = p'.text[k]? := fun k hk => by
    rw [getElem_front hk, getElem_front (hat ▸ hk), hsame.front]
  have hborder : p.text[p.leadAt]? = p'.text[p.leadAt]? := by
    have hleft := getElem_lead (p := p) (k := 0) hpos
    have hright := getElem_lead (p := p') (k := 0) (hsame.lead ▸ hpos)
    rw [hat, ← hsame.lead] at hright
    exact hleft.trans hright.symm
  rw [hat] at h'
  have hms : (finditer p.text r).filter (fun m => decide (m.1 < p.leadAt)) =
      (finditer p'.text r).filter fun m => decide (m.1 < p.leadAt) :=
    matches_before (fun s => ends_agree r (Or.inr hborder) hlen hlen' hagree s) hlen hlen' h h'
      (by omega) (by omega)
  have hbefore : ∀ m ∈ (finditer p'.text r).filter (fun m => decide (m.1 < p.leadAt)),
      m.1 ≤ p.leadAt ∧ m.2 ≤ p.leadAt := by
    intro m hm
    have hlt := of_decide_eq_true (List.mem_filter.mp hm).2
    exact ⟨hlt.le, h' m (List.mem_of_mem_filter hm) hlt⟩
  have hcopy : splice f p.text _ (0 + 0) (0 + p.leadAt) = splice f p'.text _ (0 + 0) (0 + p.leadAt) :=
    splice_congr (fun k hk => by rw [Nat.zero_add]; exact hagree k hk) (fun m hm => (hbefore m hm).2)
      fun m hm => (hbefore m hm).1
  simp only [Nat.zero_add, Prod.mk.eta, List.map_id'] at hcopy
  rw [replaceFront, replaceFront, hat, hms]
  exact hcopy

/-- What is behind the word is replaced without regard to the word. -/
theorem replaceRest_same (hsame : p.Same p') (hopens : Opens q r) (hcons : consumes r = true)
    (hout : p.rest[0]?.any q = false) (h : ∀ m ∈ finditer p.text r, m.1 < p.restAt → m.2 ≤ p.restAt)
    (h' : ∀ m ∈ finditer p'.text r, m.1 < p'.restAt → m.2 ≤ p'.restAt) :
    p.replaceRest r f = p'.replaceRest r f := by
  have hlen := length_text p
  have hlen' := length_text p'
  rw [← hsame.rest] at hlen'
  have hends : ∀ (o : Parts α), o.rest = p.rest → ∀ k, ends o.text r (o.restAt + k) =
      (if k = 0 then [] else ends p.rest r k).map (o.restAt + ·) := by
    intro o ho k
    by_cases hk : k = 0
    · rw [if_pos hk, hk, Nat.add_zero]
      refine ends_eq_nil r hopens hcons ?_
      have hget := getElem_rest o 0
      rw [Nat.add_zero] at hget
      rw [hget, ho]
      exact hout
    · rw [if_neg hk, ends_rest r k (by omega), ho]
  obtain ⟨ms, hms, hms'⟩ := matches_shift (fun k => if k = 0 then [] else ends p.rest r k)
    (hends p rfl) (hends p' hsame.rest.symm) (by omega) (by omega) (by omega)
    (p.text.length + p'.text.length + 1) 0
  have hscan : (finditer p.text r).filter (fun m => decide (p.restAt ≤ m.1)) = _ :=
    (matches_behind (Nat.zero_le _) (by omega) h (by omega) (by omega)).trans hms
  have hscan' : (finditer p'.text r).filter (fun m => decide (p'.restAt ≤ m.1)) = _ :=
    (matches_behind (Nat.zero_le _) (by omega) h' (by omega) (by omega)).trans hms'
  have hbounds : ∀ m ∈ ms, m.1 ≤ p.rest.length ∧ m.2 ≤ p.rest.length := by
    intro m hm
    have hmem : (p.restAt + m.1, p.restAt + m.2) ∈ finditer p.text r := by
      refine List.mem_of_mem_filter (p := fun m => decide (p.restAt ≤ m.1)) ?_
      rw [hscan]
      exact List.mem_map.mpr ⟨m, hm, rfl⟩
    have hle := finditer_bounds hmem
    simp only at hle
    omega
  have hcopy : splice f p.text _ (p.restAt + 0) (p.restAt + p.rest.length) =
      splice f p'.text _ (p'.restAt + 0) (p'.restAt + p.rest.length) :=
    splice_congr (fun k _ => by rw [getElem_rest, getElem_rest, hsame.rest])
      (fun m hm => (hbounds m hm).2) fun m hm => (hbounds m hm).1
  rw [replaceRest, replaceRest, hscan, hscan', hlen, hlen']
  exact hcopy

theorem replaceRest_head (hopens : Opens q r) (hcons : consumes r = true)
    (hout : p.rest[0]?.any q = false) : (p.replaceRest r f)[0]?.any q = false := by
  have hlen := length_text p
  have hget := getElem_rest p 0
  rw [Nat.add_zero] at hget
  have hordered : Ordered 0 (finditer p.text r) := ordered_matchesFrom r _ 0
  by_cases hend : p.rest = []
  · have hnone : ((finditer p.text r).filter fun m => decide (p.restAt ≤ m.1)) = [] := by
      rw [List.filter_eq_nil_iff]
      intro m hm
      have hbounds := finditer_bounds hm
      have hpos := match_lt hcons hm
      rw [decide_eq_true_eq]
      rw [hend, List.length_nil] at hlen
      omega
    have hstop : p.text.length = p.restAt := by
      rw [hend, List.length_nil] at hlen
      omega
    rw [replaceRest, hnone, splice, hstop, slice_self]
    rfl
  · have hpos := List.length_pos_iff.mpr hend
    obtain ⟨a, ha⟩ : ∃ a, p.rest[0]? = some a := ⟨_, List.getElem?_eq_getElem hpos⟩
    have hq : q a = false := by
      rw [ha] at hout
      exact hout
    obtain ⟨c, hc, hqc⟩ : ∃ c, (p.replaceRest r f).head? = some c ∧ q c = false := by
      refine splice_head ⟨a, hget.trans ha, hq⟩ (by omega) (fun m hm hat => ?_) hordered.behind
      have hmatch := mem_finditer (List.mem_of_mem_filter hm)
      rw [hat, matchAt, ends_eq_nil r hopens hcons (hget ▸ hout)] at hmatch
      cases hmatch
    rw [← List.head?_eq_getElem?, hc]
    exact hqc

theorem replaceWord_letters {P : α → Prop} (hword : ∀ a ∈ p.word, P a)
    (hf : ∀ m ∈ finditer p.text r, p.wordAt ≤ m.1 → m.1 < p.restAt →
      ∀ a ∈ f (slice p.text m.1 m.2), P a) : ∀ a ∈ p.replaceWord r f, P a := by
  have hordered : Ordered 0 (finditer p.text r) := ordered_matchesFrom r _ 0
  refine splice_letters (fun m hm => ?_) (hordered.behind.filter _) (fun k a hk hkr ha => ?_)
    fun m hm => (of_decide_eq_true (List.mem_filter.mp hm).2).le
  · have hstart := of_decide_eq_true (List.mem_filter.mp (List.mem_of_mem_filter hm)).2
    have hlt := of_decide_eq_true (List.mem_filter.mp hm).2
    exact hf m (List.mem_of_mem_filter (List.mem_of_mem_filter hm)) hstart hlt
  · obtain ⟨n, rfl⟩ : ∃ n, k = p.wordAt + n := ⟨k - p.wordAt, by omega⟩
    have hn : n < p.word.length := by
      have hat : p.restAt = p.wordAt + p.word.length := rfl
      omega
    rw [getElem_word hn] at ha
    exact hword a (List.mem_of_getElem? ha)

theorem replaceWord_head {P : α → Prop} (hword : ∃ a, p.word.head? = some a ∧ P a)
    (hf : ∀ m ∈ finditer p.text r, m.1 = p.wordAt →
      ∃ a, (f (slice p.text m.1 m.2)).head? = some a ∧ P a) :
    ∃ a, (p.replaceWord r f).head? = some a ∧ P a := by
  have hordered : Ordered 0 (finditer p.text r) := ordered_matchesFrom r _ 0
  obtain ⟨a, ha, hP⟩ := hword
  have hpos : 0 < p.word.length := by
    rw [List.length_pos_iff]
    intro hempty
    rw [hempty] at ha
    cases ha
  have hget := getElem_word (p := p) (k := 0) hpos
  rw [Nat.add_zero, ← List.head?_eq_getElem?, ha] at hget
  have hat : p.restAt = p.wordAt + p.word.length := rfl
  exact splice_head ⟨a, hget, hP⟩ (by omega)
    (fun m hm => hf m (List.mem_of_mem_filter (List.mem_of_mem_filter hm))) (hordered.behind.filter _)

end parts

end Parts

end ParallelForge.Base.Regex
